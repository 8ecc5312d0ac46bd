import Mathlib.Data.List.AList

/-!
# Numberings

Tables that give names the numbers 1, 2, 3, ... in the order they come, and how a table
is copied entry by entry. A table that is written out and read back can come back in another order,
so all is said up to the order of the entries.

- `Dense`: the numbers of a table with `n` names are 1 to `n`, each for one name;
- `number`: the number of a name, which it keeps (`Extends`); a new one gets the next number, and
  the table is dense again;
- `insertAll`: the loop that reads a table back, in any order. A table read back into an empty one
  has the entries that it had.
-/

/-- A table of names. -/
abbrev Table (α β : Type) := AList fun _ : α => β

namespace Table

section

variable {α : Type}

/-- The number of names. -/
def size {β : Type} (d : Table α β) : Nat := d.entries.length

/-- The numbers are those from 1 to the number of names. -/
def Dense (d : Table α Nat) : Prop := (d.entries.map Sigma.snd).Perm (List.range' 1 d.size)

theorem dense_empty : Dense (∅ : Table α Nat) := List.Perm.refl _

theorem Dense.perm {d d' : Table α Nat} (h : Dense d) (hperm : d'.entries.Perm d.entries) :
    Dense d' := by
  rw [Dense, size, hperm.length_eq]
  exact (hperm.map _).trans h

end

variable {α β : Type} [DecidableEq α]

/-- What is in the one table is in the other. -/
def Extends (d d' : Table α β) : Prop := ∀ a b, d.lookup a = some b → d'.lookup a = some b

theorem Extends.refl (d : Table α β) : d.Extends d := fun _ _ h => h

theorem Extends.trans {d d' d'' : Table α β} (h : d.Extends d') (h' : d'.Extends d'') :
    d.Extends d'' :=
  fun a b hab => h' a b (h a b hab)

theorem Extends.insert {d : Table α β} {a : α} (b : β) (h : d.lookup a = none) :
    d.Extends (d.insert a b) := by
  intro a' b' hb
  have hne : a' ≠ a := by
    rintro rfl
    cases h.symm.trans hb
  rw [AList.lookup_insert_ne hne]
  exact hb

/-- Writing what is there already changes at most the order. -/
theorem insert_perm {d : Table α β} {a : α} {b : β} (h : d.lookup a = some b) :
    (d.insert a b).entries.Perm d.entries := by
  refine List.lookup_ext (AList.nodupKeys _) d.nodupKeys fun a' b' => ?_
  show (d.insert a b).lookup a' = some b' ↔ d.lookup a' = some b'
  by_cases heq : a' = a
  · rw [heq, AList.lookup_insert, h]
  · rw [AList.lookup_insert_ne heq]

/-! ## Reading back -/

/-- The entries of a list, written to a table one after the other. -/
def insertAll (l : List (Σ _ : α, β)) (d : Table α β) : Table α β :=
  l.foldl (fun d e => d.insert e.1 e.2) d

theorem lookup_insertAll {l : List (Σ _ : α, β)} (hl : l.NodupKeys) (d : Table α β) (a : α) :
    (insertAll l d).lookup a = (l.dlookup a).or (d.lookup a) := by
  induction l generalizing d with
  | nil => rfl
  | cons e l ih =>
    obtain ⟨hnotMem, hl⟩ := List.nodupKeys_cons.mp hl
    rw [insertAll, List.foldl_cons]
    refine (ih hl _).trans ?_
    by_cases heq : a = e.1
    · rw [heq, AList.lookup_insert, List.dlookup_eq_none.mpr hnotMem, Option.none_or]
      rw [show l.cons e = ⟨e.1, e.2⟩ :: l from rfl, List.dlookup_cons_eq, Option.some_or]
    · rw [AList.lookup_insert_ne heq, List.dlookup_cons_ne _ _ heq]

/-- A copy has the same entries. -/
theorem insertAll_perm {l : List (Σ _ : α, β)} (hl : l.NodupKeys) :
    (insertAll l ∅).entries.Perm l := by
  refine List.lookup_ext (AList.nodupKeys _) hl fun a b => ?_
  show (insertAll l ∅).lookup a = some b ↔ l.dlookup a = some b
  rw [lookup_insertAll hl, AList.lookup_empty, Option.or_none]

/-! ## Dense numbers -/

variable {d : Table α Nat}

/-- No two names have one number. -/
theorem Dense.injective (h : Dense d) {a b : α} {n : Nat} (ha : d.lookup a = some n)
    (hb : d.lookup b = some n) : a = b := by
  have hnodup : (d.entries.map Sigma.snd).Nodup := h.nodup_iff.mpr List.nodup_range'
  have hentry := List.inj_on_of_nodup_map hnodup (AList.mem_lookup_iff.mp ha)
    (AList.mem_lookup_iff.mp hb) rfl
  exact congrArg Sigma.fst hentry

theorem Dense.bounds (h : Dense d) {a : α} {n : Nat} (ha : d.lookup a = some n) :
    1 ≤ n ∧ n ≤ d.size := by
  have hmem := h.subset (List.mem_map_of_mem (f := Sigma.snd) (AList.mem_lookup_iff.mp ha))
  rw [List.mem_range'_1] at hmem
  exact ⟨hmem.1, Nat.lt_one_add_iff.mp hmem.2⟩

/-- The table of the names by their numbers. -/
theorem Dense.lookup_swap (h : Dense d) {n : Nat} {a : α} :
    (insertAll (d.entries.map fun e => ⟨e.2, e.1⟩) ∅ : Table Nat α).lookup n = some a ↔
      d.lookup a = some n := by
  have hkeys : (d.entries.map fun e => (⟨e.2, e.1⟩ : Σ _ : Nat, α)).NodupKeys := by
    rw [List.NodupKeys, List.keys, List.map_map]
    exact h.nodup_iff.mpr List.nodup_range'
  rw [lookup_insertAll hkeys, AList.lookup_empty, Option.or_none]
  refine (List.mem_dlookup_iff hkeys).trans (Iff.trans ?_ AList.mem_lookup_iff.symm)
  constructor
  · intro hmem
    obtain ⟨e, he, heq⟩ := List.mem_map.mp hmem
    cases heq
    exact he
  · exact fun hmem => List.mem_map.mpr ⟨_, hmem, rfl⟩

/-- A new name gets the next number. -/
theorem Dense.insert (h : Dense d) {a : α} (ha : d.lookup a = none) :
    Dense (d.insert a (d.size + 1)) := by
  have hentries := AList.entries_insert_of_notMem (b := d.size + 1) (AList.lookup_eq_none.mp ha)
  have hsize : size (d.insert a (d.size + 1)) = d.size + 1 := congrArg List.length hentries
  rw [Dense, hsize, hentries, List.map_cons, List.range'_1_concat, Nat.add_comm 1]
  exact (List.perm_append_singleton _ _).symm.trans (h.append_right _)

/-- The number of a name, and the table with it. -/
def number (d : Table α Nat) (a : α) : Nat × Table α Nat :=
  match d.lookup a with
  | some n => (n, d)
  | none => (d.size + 1, d.insert a (d.size + 1))

/-- **A name is numbered** and all others keep their numbers. -/
theorem number_spec (h : Dense d) (a : α) :
    Dense (number d a).2 ∧ d.Extends (number d a).2 ∧
      (number d a).2.lookup a = some (number d a).1 := by
  rw [number]
  split
  · rename_i hlookup
    exact ⟨h, Extends.refl d, hlookup⟩
  · rename_i hlookup
    exact ⟨h.insert hlookup, Extends.insert _ hlookup, AList.lookup_insert _⟩

end Table
