import Mathlib.Data.List.Basic
import Mathlib.Order.Lattice

/-!
# Maps in the order of their keys

A map that is gone through from the least key to the greatest, and whose `insert` keeps what is
there, as the maps of the C++ library do. The entries are a list, and that it is sorted is a field
of the map, so no operation has to be shown to keep it twice.

- `OrderedMap` is sorted by construction;
- `find?_insert`: what is found behind an insertion, of the key and of any other;
- `mem_keys_iff`, `values_insert`: what is gone through, in terms of what is found.
-/

/-- The entries of a map from the least key to the greatest. -/
structure OrderedMap (κ ν : Type) [LinearOrder κ] where
  entries : List (κ × ν)
  sorted : entries.Pairwise fun a b => a.1 < b.1

namespace OrderedMap

variable {κ ν : Type} [LinearOrder κ]

/-! ## Entries -/

/-- The first entry for a key. -/
def findEntry (k : κ) : List (κ × ν) → Option ν
  | [] => none
  | e :: es => if e.1 = k then some e.2 else findEntry k es

/-- Entries with one for the key, if there is none. -/
def insertEntry (k : κ) (v : ν) : List (κ × ν) → List (κ × ν)
  | [] => [(k, v)]
  | e :: es =>
    if k < e.1 then (k, v) :: e :: es
    else if e.1 = k then e :: es
    else e :: insertEntry k v es

variable {k k' : κ} {v : ν} {es : List (κ × ν)}

theorem findEntry_append (k : κ) (es es' : List (κ × ν)) :
    findEntry k (es ++ es') = (findEntry k es).or (findEntry k es') := by
  induction es with
  | nil => rfl
  | cons e es ih =>
    rw [List.cons_append, findEntry, findEntry]
    split_ifs
    · rfl
    · exact ih

theorem findEntry_isSome_iff : (findEntry k es).isSome = true ↔ k ∈ es.map Prod.fst := by
  induction es with
  | nil => exact iff_of_false Bool.false_ne_true List.not_mem_nil
  | cons e es ih =>
    rw [findEntry, List.map_cons, List.mem_cons]
    split_ifs with heq
    · exact iff_of_true rfl (.inl heq.symm)
    · rw [ih]
      exact ⟨.inr, fun h => h.resolve_left (Ne.symm heq)⟩

theorem mem_of_findEntry (h : findEntry k es = some v) : v ∈ es.map Prod.snd := by
  induction es with
  | nil => cases h
  | cons e es ih =>
    rw [findEntry] at h
    split_ifs at h
    · obtain rfl := Option.some.inj h
      exact List.mem_cons_self
    · exact List.mem_cons_of_mem _ (ih h)

/-- A key that is less than all. -/
theorem findEntry_eq_none (h : ∀ e ∈ es, k < e.1) : findEntry k es = none := by
  induction es with
  | nil => rfl
  | cons e es ih =>
    obtain ⟨hlt, hes⟩ := List.forall_mem_cons.mp h
    rw [findEntry, if_neg hlt.ne', ih hes]

theorem mem_of_insertEntry {e : κ × ν} (h : e ∈ insertEntry k v es) : e = (k, v) ∨ e ∈ es := by
  induction es with
  | nil => exact .inl (List.mem_singleton.mp h)
  | cons e' es ih =>
    rw [insertEntry] at h
    split_ifs at h
    · exact List.mem_cons.mp h
    · exact .inr h
    · rcases List.mem_cons.mp h with rfl | h
      · exact .inr List.mem_cons_self
      · exact (ih h).imp_right (List.mem_cons_of_mem _)

/-- An entry is put in front of the first one with a greater key. -/
theorem sorted_insertEntry (h : es.Pairwise fun a b => a.1 < b.1) (k : κ) (v : ν) :
    (insertEntry k v es).Pairwise fun a b => a.1 < b.1 := by
  induction es with
  | nil => exact List.pairwise_singleton _ _
  | cons e es ih =>
    obtain ⟨hhead, htail⟩ := List.pairwise_cons.mp h
    rw [insertEntry]
    split_ifs with hlt heq
    · refine List.pairwise_cons.mpr ⟨fun e' he' => ?_, h⟩
      rcases List.mem_cons.mp he' with rfl | he'
      · exact hlt
      · exact hlt.trans (hhead e' he')
    · exact h
    · refine List.pairwise_cons.mpr ⟨fun e' he' => ?_, ih htail⟩
      rcases mem_of_insertEntry he' with rfl | he'
      · exact lt_of_le_of_ne (not_lt.mp hlt) heq
      · exact hhead e' he'

/-- A key that is there keeps its value. -/
theorem findEntry_insertEntry_self (hsorted : es.Pairwise fun a b => a.1 < b.1) :
    findEntry k (insertEntry k v es) = (findEntry k es).or (some v) := by
  induction es with
  | nil => exact if_pos rfl
  | cons e es ih =>
    obtain ⟨hhead, htail⟩ := List.pairwise_cons.mp hsorted
    rw [insertEntry]
    split_ifs with hlt heq
    · have hall : ∀ e' ∈ e :: es, k < e'.1 :=
        List.forall_mem_cons.mpr ⟨hlt, fun e' he' => hlt.trans (hhead e' he')⟩
      rw [findEntry_eq_none hall, findEntry, if_pos rfl]
      rfl
    · rw [findEntry, if_pos heq]
      rfl
    · rw [findEntry, if_neg heq, ih htail, findEntry, if_neg heq]

/-- Other keys find what they found. -/
theorem findEntry_insertEntry_ne (hne : k' ≠ k) (es : List (κ × ν)) :
    findEntry k' (insertEntry k v es) = findEntry k' es := by
  induction es with
  | nil => exact if_neg (Ne.symm hne)
  | cons e es ih =>
    rw [insertEntry]
    split_ifs
    · exact if_neg (Ne.symm hne)
    · rfl
    · rw [findEntry, ih]
      rfl

/-- A new key brings its value to the others. -/
theorem map_snd_insertEntry (h : findEntry k es = none) :
    ((insertEntry k v es).map Prod.snd).Perm (v :: es.map Prod.snd) := by
  induction es with
  | nil => exact .refl _
  | cons e es ih =>
    rw [findEntry] at h
    rw [insertEntry]
    split_ifs at h ⊢ with heq hlt
    · exact .refl _
    · exact ((ih h).cons e.2).trans (.swap v e.2 _)

/-! ## Maps -/

def empty : OrderedMap κ ν := ⟨[], .nil⟩

/-- `find`. -/
def find? (k : κ) (m : OrderedMap κ ν) : Option ν := findEntry k m.entries

/-- `insert`, which keeps the entry that is there. -/
def insert (k : κ) (v : ν) (m : OrderedMap κ ν) : OrderedMap κ ν :=
  ⟨insertEntry k v m.entries, sorted_insertEntry m.sorted k v⟩

def keys (m : OrderedMap κ ν) : List κ := m.entries.map Prod.fst

def values (m : OrderedMap κ ν) : List ν := m.entries.map Prod.snd

theorem keys_sorted (m : OrderedMap κ ν) : m.keys.Pairwise (· < ·) :=
  List.pairwise_map.mpr m.sorted

/-- **What is found behind an insertion.** -/
theorem find?_insert (k k' : κ) (v : ν) (m : OrderedMap κ ν) :
    (m.insert k v).find? k' = if k' = k then (m.find? k).or (some v) else m.find? k' := by
  split_ifs with h
  · subst h
    exact findEntry_insertEntry_self m.sorted
  · exact findEntry_insertEntry_ne h m.entries

theorem mem_keys_iff {m : OrderedMap κ ν} : k ∈ m.keys ↔ (m.find? k).isSome = true :=
  findEntry_isSome_iff.symm

theorem mem_values_of_find? {m : OrderedMap κ ν} (h : m.find? k = some v) : v ∈ m.values :=
  mem_of_findEntry h

/-- A value for a key without one is put among the values. -/
theorem values_insert {m : OrderedMap κ ν} (h : m.find? k = none) :
    (m.insert k v).values.Perm (v :: m.values) := map_snd_insertEntry h

end OrderedMap
