import Mathlib.Data.List.Infix
import Zippylog.Store.PathParser
import Zippylog.Wire.Words

/-!
# Store URIs

`Store::CreateStore` and the constructor of `SimpleDirectoryStore`: a string names a store as
`simpledirectory://` and a directory, or as a directory alone. A scheme that is not known, and a
directory that is not there, are refused with exceptions of their own.

- `createStore_append`: what is made of a URI whose first `:` or `/` is known;
- `followsUri_iff`: for which URIs that is what a URI means. `find_first_of("://")` finds the first
  of these characters, not the three of them.
-/

namespace Zippylog

open Wire

namespace Store

/-- What `CreateStore` throws. -/
inductive CreateExn where
  | invalidStoreUri (what : Bytes)
  | unsupportedStoreUri (what : Bytes)
  | storePathNotDirectory (what : Bytes)
  /-- `std::out_of_range`, from `substr` -/
  | outOfRange
  deriving DecidableEq

/-- The character `:`. -/
def colon : UInt8 := 58

/-- What the scheme of a URI ends with. -/
def uriSeparator : Bytes := [colon, slash, slash]

/-- The scheme of a `SimpleDirectoryStore`. -/
def simpleDirectory : Bytes := str "simpledirectory"

/-- `find_first_of(set)`. -/
def findFirstOf (s set : Bytes) : Option Nat := s.findIdx? fun c => set.contains c

/-- `substr(pos, n)`, with the position behind the end. -/
def substrAt (s : Bytes) (pos n : Nat) : Except CreateExn Bytes :=
  if s.length < pos then .error .outOfRange else .ok (substr s pos n)

/-- `SimpleDirectoryStore(path)`: the `root_path` of the store. -/
def simpleDirectoryStore (isDirectory : Bytes → Bool) (path : Bytes) : Except CreateExn Bytes :=
  if isDirectory path then .ok path
  else .error (.storePathNotDirectory
    (str "store path does not exist, could not be read, or is not a directory: " ++ path))

/-- `CreateStore`, with `PathIsDirectory`. -/
def createStore (isDirectory : Bytes → Bool) (s : Bytes) : Except CreateExn Bytes :=
  match findFirstOf s uriSeparator with
  | none => .error (.invalidStoreUri (str "store path not in expected URI format: " ++ s))
  | some i => do
    let proto ← substrAt s 0 i
    if proto ≠ simpleDirectory then
      .error (.unsupportedStoreUri (str "store protocol not understood: " ++ proto))
    else
      let path ← substrAt s (i + 3) (s.length - i - 3)
      simpleDirectoryStore isDirectory path

/-! ## The first `:` or `/` -/

/-- There is no `:` and no `/`. -/
def Plain (s : Bytes) : Prop := colon ∉ s ∧ slash ∉ s

theorem contains_uriSeparator (c : UInt8) :
    uriSeparator.contains c = true ↔ c = colon ∨ c = slash := by
  simp [uriSeparator]

theorem plain_iff {s : Bytes} : Plain s ↔ ∀ c ∈ s, uriSeparator.contains c = false := by
  simp only [Plain, ← Bool.not_eq_true, contains_uriSeparator, not_or]
  constructor
  · rintro ⟨hcolon, hslash⟩ c hc
    exact ⟨fun h => hcolon (h ▸ hc), fun h => hslash (h ▸ hc)⟩
  · intro h
    exact ⟨fun hc => (h _ hc).1 rfl, fun hc => (h _ hc).2 rfl⟩

theorem findFirstOf_plain {s : Bytes} (h : Plain s) : findFirstOf s uriSeparator = none :=
  List.findIdx?_eq_none_iff.mpr (plain_iff.mp h)

theorem findFirstOf_append {q r : Bytes} {c : UInt8} (hq : Plain q)
    (hc : c = colon ∨ c = slash) : findFirstOf (q ++ c :: r) uriSeparator = some q.length := by
  have hq' : q.findIdx? (fun c => uriSeparator.contains c) = none := findFirstOf_plain hq
  rw [findFirstOf, List.findIdx?_append, hq', List.findIdx?_cons,
    if_pos ((contains_uriSeparator c).mpr hc)]
  simp

/-- Where the first of them is. -/
theorem plain_or_split (s : Bytes) :
    Plain s ∨ ∃ q c r, s = q ++ c :: r ∧ Plain q ∧ (c = colon ∨ c = slash) := by
  induction s with
  | nil => exact .inl ⟨List.not_mem_nil, List.not_mem_nil⟩
  | cons c s ih =>
    by_cases hc : c = colon ∨ c = slash
    · exact .inr ⟨[], c, s, rfl, ⟨List.not_mem_nil, List.not_mem_nil⟩, hc⟩
    · have hcons {q : Bytes} (hq : Plain q) : Plain (c :: q) := by
        simp only [Plain, List.mem_cons, not_or] at hq hc ⊢
        exact ⟨⟨Ne.symm hc.1, hq.1⟩, ⟨Ne.symm hc.2, hq.2⟩⟩
      rcases ih with hs | ⟨q, d, r, rfl, hq, hd⟩
      · exact .inl (hcons hs)
      · exact .inr ⟨c :: q, d, r, rfl, hcons hq, hd⟩

/-- There is only one place for it. -/
theorem split_unique {q q' r r' : Bytes} {c c' : UInt8} (hq : Plain q) (hq' : Plain q')
    (hc : c = colon ∨ c = slash) (hc' : c' = colon ∨ c' = slash)
    (h : q ++ c :: r = q' ++ c' :: r') : q = q' ∧ c = c' ∧ r = r' :=
  first_unique (uriSeparator.contains ·) (plain_iff.mp hq) (plain_iff.mp hq')
    ((contains_uriSeparator c).mpr hc) ((contains_uriSeparator c').mpr hc') h

/-! ## What is made of a URI -/

section Created

variable (isDirectory : Bytes → Bool) {q r : Bytes} {c : UInt8}

theorem createStore_plain {s : Bytes} (h : Plain s) : createStore isDirectory s =
    .error (.invalidStoreUri (str "store path not in expected URI format: " ++ s)) := by
  rw [createStore, findFirstOf_plain h]

/-- The two characters behind the first `:` or `/` are skipped, whatever they are. -/
theorem createStore_append (hq : Plain q) (hc : c = colon ∨ c = slash) :
    createStore isDirectory (q ++ c :: r) =
      if q ≠ simpleDirectory then
        .error (.unsupportedStoreUri (str "store protocol not understood: " ++ q))
      else if r.length < 2 then .error .outOfRange
      else simpleDirectoryStore isDirectory (r.drop 2) := by
  have hproto : substrAt (q ++ c :: r) 0 q.length = .ok q := by
    simp [substrAt, substr]
  have hpath : substrAt (q ++ c :: r) (q.length + 3) ((q ++ c :: r).length - q.length - 3) =
      if r.length < 2 then .error .outOfRange else .ok (r.drop 2) := by
    have hdrop : (q ++ c :: r).drop (q.length + 3) = r.drop 2 := by simp
    rw [substrAt, substr, hdrop, List.take_of_length_le (by simp)]
    simp only [List.length_append, List.length_cons]
    congr 1
    exact propext ⟨fun h => by omega, fun h => by omega⟩
  rw [createStore, findFirstOf_append hq hc]
  simp only [hproto, hpath, bind, Except.bind]
  split_ifs <;> rfl

/-- A path can be told from what comes of it, whether or not it is a directory. -/
theorem simpleDirectoryStore_inj {p p' : Bytes} :
    simpleDirectoryStore isDirectory p = simpleDirectoryStore isDirectory p' ↔ p = p' := by
  constructor
  · unfold simpleDirectoryStore
    split_ifs
    · exact Except.ok.inj
    · exact fun h => absurd h (by simp)
    · exact fun h => absurd h (by simp)
    · intro h
      simpa using h
  · rintro rfl
    rfl

theorem simpleDirectoryStore_ne_unsupported (p what : Bytes) :
    simpleDirectoryStore isDirectory p ≠ .error (.unsupportedStoreUri what) := by
  unfold simpleDirectoryStore
  split_ifs <;> simp

theorem simpleDirectoryStore_ne_invalid (p what : Bytes) :
    simpleDirectoryStore isDirectory p ≠ .error (.invalidStoreUri what) := by
  unfold simpleDirectoryStore
  split_ifs <;> simp

end Created

/-! ## What a URI means -/

/-- The string is treated as a URI of a store. -/
structure FollowsUri (isDirectory : Bytes → Bool) (u : Bytes) : Prop where
  builds : ∀ p, createStore isDirectory u = simpleDirectoryStore isDirectory p ↔
    u = simpleDirectory ++ uriSeparator ++ p
  unsupported : ∀ s p, u = s ++ uriSeparator ++ p → colon ∉ s → s ≠ simpleDirectory →
    ∃ what, createStore isDirectory u = .error (.unsupportedStoreUri what)
  invalid : ¬ uriSeparator <:+: u →
    ∃ what, createStore isDirectory u = .error (.invalidStoreUri what)

theorem simpleDirectory_plain : Plain simpleDirectory := by
  constructor <;> decide +kernel

theorem uriSeparator_infix_append {q l : Bytes} (hq : Plain q) :
    uriSeparator <:+: q ++ l ↔ uriSeparator <:+: l := by
  induction q with
  | nil => rfl
  | cons c q ih =>
    obtain ⟨hcolon, hslash⟩ := hq
    rw [List.mem_cons, not_or] at hcolon hslash
    rw [List.cons_append, List.infix_cons_iff, ih ⟨hcolon.2, hslash.2⟩]
    refine or_iff_right fun hprefix => ?_
    rw [uriSeparator, List.cons_prefix_cons] at hprefix
    exact hcolon.1 hprefix.1

section Cases

variable {isDirectory : Bytes → Bool} {q r : Bytes} {c : UInt8}

theorem followsUri_of_plain {u : Bytes} (h : Plain u) : FollowsUri isDirectory u := by
  have hcolon (s p : Bytes) : u ≠ s ++ uriSeparator ++ p := by
    rintro rfl
    exact h.1 (by simp [uriSeparator])
  have hcreate := createStore_plain isDirectory h
  refine ⟨fun p => ?_, fun s p hu => absurd hu (hcolon s p), fun _ => ⟨_, hcreate⟩⟩
  rw [hcreate]
  exact iff_of_false (simpleDirectoryStore_ne_invalid isDirectory p _).symm (hcolon _ p)

/-- The scheme is another one, or something that is no scheme. -/
theorem followsUri_of_ne (hq : Plain q) (hc : c = colon ∨ c = slash) (hne : q ≠ simpleDirectory) :
    FollowsUri isDirectory (q ++ c :: r) ↔ uriSeparator <:+: q ++ c :: r := by
  have hcreate := createStore_append isDirectory (r := r) hq hc
  rw [if_pos hne] at hcreate
  constructor
  · intro h
    by_contra hinfix
    obtain ⟨what, hwhat⟩ := h.invalid hinfix
    rw [hcreate] at hwhat
    cases hwhat
  · intro hinfix
    refine ⟨fun p => ?_, fun _ _ _ _ _ => ⟨_, hcreate⟩, fun h => absurd hinfix h⟩
    rw [hcreate]
    refine iff_of_false (simpleDirectoryStore_ne_unsupported isDirectory p _).symm fun hu => hne ?_
    rw [uriSeparator, List.append_assoc, List.cons_append] at hu
    exact (split_unique hq simpleDirectory_plain hc (.inl rfl) hu).1

/-- It is the scheme of the stores there are. -/
theorem followsUri_simpleDirectory (hc : c = colon ∨ c = slash) :
    FollowsUri isDirectory (simpleDirectory ++ c :: r) ↔ uriSeparator <+: c :: r := by
  have hcreate := createStore_append isDirectory (r := r) simpleDirectory_plain hc
  rw [if_neg (not_not.mpr rfl)] at hcreate
  constructor
  · intro h
    by_cases hshort : r.length < 2
    · have hinfix : ¬ uriSeparator <:+: simpleDirectory ++ c :: r := by
        rw [uriSeparator_infix_append simpleDirectory_plain]
        intro hinfix
        have hlength := hinfix.length_le
        simp only [uriSeparator, List.length_cons, List.length_nil] at hlength
        omega
      obtain ⟨what, hwhat⟩ := h.invalid hinfix
      rw [hcreate, if_pos hshort] at hwhat
      cases hwhat
    · rw [if_neg hshort] at hcreate
      have hu := (h.builds _).mp hcreate
      rw [List.append_assoc] at hu
      exact ⟨_, (List.append_cancel_left hu).symm⟩
  · rintro ⟨t, ht⟩
    obtain ⟨rfl, rfl⟩ : colon = c ∧ slash :: slash :: t = r := List.cons.inj ht
    rw [if_neg (by simp)] at hcreate
    refine ⟨fun p => ?_, fun s p hu hcolon hne => ?_, fun h => ?_⟩
    · rw [hcreate, simpleDirectoryStore_inj, List.append_assoc, List.append_right_inj]
      simp [uriSeparator]
    · rw [uriSeparator, List.append_assoc, List.cons_append] at hu
      have hfree {q : Bytes} (hq : colon ∉ q) : ∀ c ∈ q, (c == colon) = false :=
        fun c hc => beq_false_of_ne fun h => hq (h ▸ hc)
      have hs := first_unique (· == colon) (hfree simpleDirectory_plain.1) (hfree hcolon)
        (beq_self_eq_true _) (beq_self_eq_true _) hu
      exact absurd hs.1.symm hne
    · refine absurd ?_ h
      exact ⟨simpleDirectory, t, by simp [uriSeparator]⟩

end Cases

/-- **URIs**: a string is treated as a URI exactly if it has no `:` and no `/`, or has `://`, and
right behind `simpledirectory` if that is in front of the first of them. The string is any, and so
is which directories there are. -/
theorem followsUri_iff (isDirectory : Bytes → Bool) (u : Bytes) :
    FollowsUri isDirectory u ↔
      (colon ∉ u ∧ slash ∉ u) ∨
        uriSeparator <:+: u ∧
          (simpleDirectory ++ [colon] <+: u ∨ simpleDirectory ++ [slash] <+: u →
            simpleDirectory ++ uriSeparator <+: u) := by
  rcases plain_or_split u with hplain | ⟨q, c, r, rfl, hq, hc⟩
  · exact iff_of_true (followsUri_of_plain hplain) (.inl hplain)
  · have hnot : ¬ (colon ∉ q ++ c :: r ∧ slash ∉ q ++ c :: r) := by
      rcases hc with rfl | rfl <;> simp
    rw [or_iff_right hnot]
    by_cases hscheme : q = simpleDirectory
    · subst hscheme
      rw [followsUri_simpleDirectory hc, uriSeparator_infix_append hq,
        List.prefix_append_right_inj, List.prefix_append_right_inj, List.prefix_append_right_inj]
      constructor
      · intro hprefix
        refine ⟨?_, fun _ => hprefix⟩
        exact hprefix.isInfix
      · rintro ⟨-, hfollows⟩
        refine hfollows ?_
        rcases hc with rfl | rfl
        · exact .inl ⟨r, rfl⟩
        · exact .inr ⟨r, rfl⟩
    · rw [followsUri_of_ne hq hc hscheme]
      refine (and_iff_left fun hprefix => absurd ?_ hscheme).symm
      rcases hprefix with ⟨t, ht⟩ | ⟨t, ht⟩
      · rw [List.append_assoc] at ht
        exact (split_unique simpleDirectory_plain hq (.inl rfl) hc ht).1.symm
      · rw [List.append_assoc] at ht
        exact (split_unique simpleDirectory_plain hq (.inr rfl) hc ht).1.symm

/-- A colon without slashes behind it is taken for a separator, and the path loses two
characters; a path is not taken for something else than a URI. -/
theorem not_followsUri_colon :
    ¬ FollowsUri (fun _ => true) (str "simpledirectory:/data") ∧
      ¬ FollowsUri (fun _ => true) (str "/var/lib") := by
  constructor
  · intro h
    have hbuilds := (h.builds (str "ata")).mp (by decide +kernel)
    exact absurd hbuilds (by decide +kernel)
  · intro h
    obtain ⟨what, hwhat⟩ := h.invalid (by decide +kernel)
    have hcreate : createStore (fun _ => true) (str "/var/lib") =
        .error (.unsupportedStoreUri (str "store protocol not understood: ")) := by
      decide +kernel
    rw [hcreate] at hwhat
    cases hwhat

end Store

end Zippylog
