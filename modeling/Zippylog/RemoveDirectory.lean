import Mathlib.Data.List.Basic
import Zippylog.Wire.Varint

/-!
# Removing directories

`RemoveDirectory`, on a tree that nothing else changes. It removes what is in a directory, the
directories among it by itself, and then the directory; `platform.hpp` promises that the result
tells whether everything was removed.

- Whether a call succeeds on an entry is given with the entry. `.` and `..` are not in a listing.
- What is left of a tree is a tree, by recursion over the entries.
- `removeDirectory_iff`: when a directory is gone, and what is returned. The results of `unlink` and
  `rmdir` are not looked at, names that begin with a dot are passed over, and a directory inside
  that cannot be opened ends the loop with `true`.
-/

namespace Zippylog

open Wire

namespace Platform

/-- The entries of a directory in the order of `readdir`, and what is below them. -/
inductive Listing where
  | nil
  /-- a link, or what has another type or none -/
  | other (name : Bytes) (rest : Listing)
  | regular (name : Bytes) (unlinks : Bool) (rest : Listing)
  /-- `opens`: it is found and opened; `removes`: `rmdir` succeeds when it is empty -/
  | directory (name : Bytes) (opens removes : Bool) (children rest : Listing)

/-- The character `.`. -/
def nameDot : UInt8 := 46

/-- `i->name[0] == '.'`. -/
def Hidden (name : Bytes) : Prop := name.head? = some nameDot

instance (name : Bytes) : Decidable (Hidden name) := inferInstanceAs (Decidable (_ = _))

namespace Listing

def isNil : Listing → Bool
  | nil => true
  | _ => false

/-- The loop of `RemoveDirectory`: what it leaves, and whether it comes to its end. -/
def removeEntries : Listing → Listing × Bool
  | nil => (nil, true)
  | other name rest => (other name rest.removeEntries.1, rest.removeEntries.2)
  | regular name unlinks rest =>
    if Hidden name ∨ unlinks = false then
      (regular name unlinks rest.removeEntries.1, rest.removeEntries.2)
    else rest.removeEntries
  | directory name opens removes children rest =>
    if Hidden name then
      (directory name opens removes children rest.removeEntries.1, rest.removeEntries.2)
    else if opens = false then
      -- `return true`
      (directory name opens removes children rest, false)
    else if children.removeEntries.2 && children.removeEntries.1.isNil && removes then
      rest.removeEntries
    else
      (directory name opens removes children.removeEntries.1 rest.removeEntries.1,
        rest.removeEntries.2)

end Listing

/-- `RemoveDirectory`: what it returns, and what it leaves of the directory. -/
def removeDirectory (opens removes : Bool) (l : Listing) : Bool × Option Listing :=
  if opens = false then (false, some l)
  else if l.removeEntries.2 && l.removeEntries.1.isNil && removes then (true, none)
  else (true, some l.removeEntries.1)

/-! ## What is removed -/

/-- An entry by itself. -/
inductive ListingEntry where
  | other (name : Bytes)
  | regular (name : Bytes) (unlinks : Bool)
  | directory (name : Bytes) (opens removes : Bool)

/-- No call fails on it, and it is not hidden. -/
def ListingEntry.Removable : ListingEntry → Prop
  | other _ => False
  | regular name unlinks => ¬ Hidden name ∧ unlinks = true
  | directory name opens removes => ¬ Hidden name ∧ opens = true ∧ removes = true

namespace Listing

/-- The entries at every depth. -/
def entries : Listing → List ListingEntry
  | nil => []
  | other name rest => .other name :: rest.entries
  | regular name unlinks rest => .regular name unlinks :: rest.entries
  | directory name opens removes children rest =>
    .directory name opens removes :: (children.entries ++ rest.entries)

/-- Where nothing is left, the loop came to its end. -/
theorem removeEntries_snd {l : Listing} (h : l.removeEntries.1.isNil = true) :
    l.removeEntries.2 = true := by
  induction l with
  | nil => rfl
  | other name rest ih => cases h
  | regular name unlinks rest ih =>
    rw [removeEntries] at h ⊢
    split_ifs at h ⊢ with hkept
    · cases h
    · exact ih h
  | directory name opens removes children rest _ ih =>
    rw [removeEntries] at h ⊢
    split_ifs at h ⊢
    · cases h
    · cases h
    · exact ih h
    · cases h

/-- **Nothing is left** of the entries that can be removed at every depth, and of no others. -/
theorem isNil_removeEntries_iff (l : Listing) :
    l.removeEntries.1.isNil = true ↔ ∀ e ∈ l.entries, e.Removable := by
  induction l with
  | nil => exact iff_of_true rfl fun e h => absurd h List.not_mem_nil
  | other name rest ih =>
    refine iff_of_false (fun h => (by cases h)) fun h => ?_
    exact h _ List.mem_cons_self
  | regular name unlinks rest ih =>
    rw [removeEntries, entries, List.forall_mem_cons, ListingEntry.Removable]
    split_ifs with hkept
    · refine iff_of_false (fun h => (by cases h)) fun h => ?_
      rcases hkept with hhidden | hunlinks
      · exact h.1.1 hhidden
      · rw [h.1.2] at hunlinks
        cases hunlinks
    · rw [not_or, Bool.not_eq_false] at hkept
      rw [ih]
      exact ⟨fun h => ⟨hkept, h⟩, fun h => h.2⟩
  | directory name opens removes children rest ihc ih =>
    rw [removeEntries, entries, List.forall_mem_cons, List.forall_mem_append,
      ListingEntry.Removable, ← ihc, ← ih]
    split_ifs with hhidden hopens hgone
    · exact iff_of_false (fun h => (by cases h)) fun h => h.1.1 hhidden
    · refine iff_of_false (fun h => (by cases h)) fun h => ?_
      rw [h.1.2.1] at hopens
      cases hopens
    · rw [Bool.and_eq_true, Bool.and_eq_true] at hgone
      rw [Bool.not_eq_false] at hopens
      exact ⟨fun h => ⟨⟨hhidden, hopens, hgone.2⟩, hgone.1.2, h⟩, fun h => h.2.2⟩
    · refine iff_of_false (fun h => (by cases h)) fun h => ?_
      obtain ⟨⟨-, -, hremoves⟩, hchildren, -⟩ := h
      rw [removeEntries_snd hchildren, hchildren, hremoves] at hgone
      exact hgone rfl

/-- What is left was there. -/
theorem entries_removeEntries (l : Listing) : l.removeEntries.1.entries.Sublist l.entries := by
  induction l with
  | nil => exact .slnil
  | other name rest ih => exact ih.cons_cons _
  | regular name unlinks rest ih =>
    rw [removeEntries]
    split_ifs
    · exact ih.cons_cons _
    · exact ih.cons _
  | directory name opens removes children rest ihc ih =>
    rw [removeEntries]
    split_ifs
    · exact ((List.Sublist.refl _).append ih).cons_cons _
    · exact .refl _
    · exact (ih.trans (List.sublist_append_right _ _)).cons _
    · exact (ihc.append ih).cons_cons _

end Listing

/-- **`RemoveDirectory` returns that a directory could be opened**, and not that it is gone: that
takes that no name below it is hidden, that there are only files and directories, and that no call
fails. What is left, if anything, was there before. -/
theorem removeDirectory_iff (opens removes : Bool) (l : Listing) :
    (removeDirectory opens removes l).1 = opens ∧
    ((removeDirectory opens removes l).2 = none ↔
      opens = true ∧ removes = true ∧ ∀ e ∈ l.entries, e.Removable) ∧
    ∀ left, (removeDirectory opens removes l).2 = some left →
      left.entries.Sublist l.entries := by
  rw [removeDirectory, ← l.isNil_removeEntries_iff]
  cases opens with
  | false =>
    refine ⟨rfl, iff_of_false (fun h => (by cases h)) fun h => (by cases h.1), fun left h => ?_⟩
    obtain rfl := Option.some.inj h
    exact .refl _
  | true =>
    rw [if_neg (by decide)]
    split_ifs with hgone
    · rw [Bool.and_eq_true, Bool.and_eq_true] at hgone
      refine ⟨rfl, iff_of_true rfl ⟨rfl, hgone.2, hgone.1.2⟩, fun left h => (by cases h)⟩
    · refine ⟨rfl, iff_of_false (fun h => (by cases h)) fun h => hgone ?_, fun left h => ?_⟩
      · rw [Listing.removeEntries_snd h.2.2, h.2.1, h.2.2]
        rfl
      · obtain rfl := Option.some.inj h
        exact l.entries_removeEntries

end Platform

end Zippylog
