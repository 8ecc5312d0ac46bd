import Zippylog.Wire.Fields

/-!
# Message types

What the generated code of a message type does with its fields: how the value of
one of its members is found among the fields that were read, and which fields it
is written as. A message type is then a list of members with their numbers.

A scalar member takes its last value, a repeated one all of them, in order, and a
packed member may be written either way. Fields that are none of the members are
kept, and written back behind them (`unknownFields`).
-/

namespace Wire

/-! ## Readers: the values of one field number, in order -/

def Field.varint? (num : Nat) (f : Field) : Option UInt64 :=
  if f.num = num then
    match f.value with
    | .scalar (.varint n) => some n
    | _ => none
  else none

def Field.bytes? (num : Nat) (f : Field) : Option Bytes :=
  if f.num = num then
    match f.value with
    | .scalar (.bytes bs) => some bs
    | _ => none
  else none

/-- The elements of a `repeated uint32`, packed or not, that `f` contributes. -/
def Field.uint32s? (num : Nat) (f : Field) : Option (List UInt32) :=
  if f.num = num then
    match f.value with
    | .scalar (.varint n) => some [n.toUInt32]
    | .scalar (.bytes bs) => Parser.parseAll readVarint32 (fun _ => none) bs
    | _ => some []
  else some []

def varints (num : Nat) (fs : List Field) : List UInt64 := fs.filterMap (Field.varint? num)

def byteStrings (num : Nat) (fs : List Field) : List Bytes := fs.filterMap (Field.bytes? num)

/-- `repeated uint32`: packed and unpacked elements may be mixed. -/
def uint32s (num : Nat) : List Field → Option (List UInt32)
  | [] => some []
  | f :: fs => do
    let xs ← f.uint32s? num
    let ys ← uint32s num fs
    return xs ++ ys

/-- An optional field takes its last value. -/
def optUInt64 (num : Nat) (fs : List Field) : Option UInt64 := (varints num fs).getLast?

def optUInt32 (num : Nat) (fs : List Field) : Option UInt32 :=
  (varints num fs).getLast?.map UInt64.toUInt32

def optBool (num : Nat) (fs : List Field) : Option Bool :=
  (varints num fs).getLast?.map fun n => n.toUInt32 != 0

def optBytes (num : Nat) (fs : List Field) : Option Bytes := (byteStrings num fs).getLast?

/-! ## Writers -/

/-- The field numbers a writer may be used at. -/
abbrev FieldNumber (num : Nat) : Prop := 0 < num ∧ num < 2 ^ 29

/-- A field that is not a group. -/
def Field.ofScalar (num : Nat) (v : Scalar) (h : FieldNumber num) : Field where
  num := num
  value := .scalar v
  valid := ⟨h.2, by have := h.1; omega, rfl⟩

def varintFields (num : Nat) (xs : List UInt64) (h : FieldNumber num := by decide) : List Field :=
  xs.map fun n => Field.ofScalar num (.varint n) h

def bytesFields (num : Nat) (xs : List Bytes) (h : FieldNumber num := by decide) : List Field :=
  xs.map fun bs => Field.ofScalar num (.bytes bs) h

def uint64Field (num : Nat) (o : Option UInt64) (h : FieldNumber num := by decide) : List Field :=
  varintFields num o.toList h

def uint32Field (num : Nat) (o : Option UInt32) (h : FieldNumber num := by decide) : List Field :=
  varintFields num (o.toList.map UInt32.toUInt64) h

def boolField (num : Nat) (o : Option Bool) (h : FieldNumber num := by decide) : List Field :=
  varintFields num (o.toList.map fun b => if b then 1 else 0) h

def bytesField (num : Nat) (o : Option Bytes) (h : FieldNumber num := by decide) : List Field :=
  bytesFields num o.toList h

def uint32Fields (num : Nat) (xs : List UInt32) (h : FieldNumber num := by decide) : List Field :=
  varintFields num (xs.map UInt32.toUInt64) h

/-- A packed `repeated uint32` is one field, and none when there are no elements. -/
def packedField (num : Nat) (xs : List UInt32) (h : FieldNumber num := by decide) : List Field :=
  if xs = [] then [] else [Field.ofScalar num (.bytes (xs.map fun x => encodeVarint x.toNat).flatten) h]

section ReadWrite

variable {m n : Nat} {h : FieldNumber m}

@[simp] theorem varints_nil : varints n [] = [] := rfl

@[simp] theorem byteStrings_nil : byteStrings n [] = [] := rfl

@[simp] theorem varints_append (fs gs : List Field) :
    varints n (fs ++ gs) = varints n fs ++ varints n gs :=
  List.filterMap_append

@[simp] theorem byteStrings_append (fs gs : List Field) :
    byteStrings n (fs ++ gs) = byteStrings n fs ++ byteStrings n gs :=
  List.filterMap_append

/-- Members that were written as varints are read back. -/
@[simp] theorem varints_varintFields (xs : List UInt64) :
    varints n (varintFields m xs h) = if m = n then xs else [] := by
  unfold varints varintFields
  rw [List.filterMap_map]
  by_cases hmn : m = n
  · rw [if_pos hmn]
    calc xs.filterMap (Field.varint? n ∘ fun x => Field.ofScalar m (.varint x) h)
        = xs.filterMap some := List.filterMap_congr fun x _ => if_pos hmn
      _ = xs := List.filterMap_some
  · rw [if_neg hmn]
    exact List.filterMap_eq_nil_iff.mpr fun x _ => if_neg hmn

@[simp] theorem varints_bytesFields (xs : List Bytes) : varints n (bytesFields m xs h) = [] := by
  unfold varints bytesFields
  rw [List.filterMap_map]
  refine List.filterMap_eq_nil_iff.mpr fun x _ => ?_
  show (if m = n then _ else _) = _
  split <;> rfl

/-- And as length-delimited ones. -/
@[simp] theorem byteStrings_bytesFields (xs : List Bytes) :
    byteStrings n (bytesFields m xs h) = if m = n then xs else [] := by
  unfold byteStrings bytesFields
  rw [List.filterMap_map]
  by_cases hmn : m = n
  · rw [if_pos hmn]
    calc xs.filterMap (Field.bytes? n ∘ fun x => Field.ofScalar m (.bytes x) h)
        = xs.filterMap some := List.filterMap_congr fun x _ => if_pos hmn
      _ = xs := List.filterMap_some
  · rw [if_neg hmn]
    exact List.filterMap_eq_nil_iff.mpr fun x _ => if_neg hmn

@[simp] theorem byteStrings_varintFields (xs : List UInt64) :
    byteStrings n (varintFields m xs h) = [] := by
  unfold byteStrings varintFields
  rw [List.filterMap_map]
  refine List.filterMap_eq_nil_iff.mpr fun x _ => ?_
  show (if m = n then _ else _) = _
  split <;> rfl

theorem packedField_eq (xs : List UInt32) :
    packedField m xs h =
      bytesFields m (if xs = [] then [] else [(xs.map fun x => encodeVarint x.toNat).flatten]) h := by
  unfold packedField
  split <;> rfl

@[simp] theorem varints_packedField (xs : List UInt32) :
    varints n (packedField m xs h) = [] := by
  rw [packedField_eq, varints_bytesFields]

@[simp] theorem byteStrings_packedField (hmn : m ≠ n) (xs : List UInt32) :
    byteStrings n (packedField m xs h) = [] := by
  rw [packedField_eq, byteStrings_bytesFields, if_neg hmn]

@[simp] theorem uint32s_append (fs gs : List Field) :
    uint32s n (fs ++ gs) = (do return (← uint32s n fs) ++ (← uint32s n gs)) := by
  induction fs with
  | nil => cases h : uint32s n gs <;> simp [uint32s, h]
  | cons f fs ih =>
    rw [List.cons_append, uint32s, uint32s, ih]
    cases f.uint32s? n <;> cases uint32s n fs <;> cases uint32s n gs <;> simp

theorem uint32s?_varint (x : UInt64) :
    (Field.ofScalar m (.varint x) h).uint32s? m = some [x.toUInt32] :=
  if_pos rfl

theorem uint32s?_bytes (bs : Bytes) :
    (Field.ofScalar m (.bytes bs) h).uint32s? m = Parser.parseAll readVarint32 (fun _ => none) bs :=
  if_pos rfl

/-- The elements are read unless some field has a packed list that ends inside one. -/
theorem uint32s_isSome {fs : List Field} :
    (uint32s n fs).isSome ↔ ∀ f ∈ fs, (f.uint32s? n).isSome := by
  induction fs with
  | nil => simp [uint32s]
  | cons f fs ih =>
    rw [List.forall_mem_cons, ← ih, uint32s]
    cases f.uint32s? n <;> cases uint32s n fs <;> simp

theorem uint32s_of_forall_ne {fs : List Field} (hf : ∀ f ∈ fs, f.num ≠ n) :
    uint32s n fs = some [] := by
  induction fs with
  | nil => rfl
  | cons f fs ih =>
    have h1 : f.uint32s? n = some [] := if_neg (hf f List.mem_cons_self)
    rw [uint32s, h1, ih fun g hg => hf g (List.mem_cons_of_mem _ hg)]
    rfl

@[simp] theorem uint32s_varintFields_ne (hmn : m ≠ n) (xs : List UInt64) :
    uint32s n (varintFields m xs h) = some [] := by
  refine uint32s_of_forall_ne fun f hf => ?_
  obtain ⟨x, -, rfl⟩ := List.mem_map.mp hf
  exact hmn

@[simp] theorem uint32s_bytesFields_ne (hmn : m ≠ n) (xs : List Bytes) :
    uint32s n (bytesFields m xs h) = some [] := by
  refine uint32s_of_forall_ne fun f hf => ?_
  obtain ⟨x, -, rfl⟩ := List.mem_map.mp hf
  exact hmn

@[simp] theorem uint32s_packedField_ne (hmn : m ≠ n) (xs : List UInt32) :
    uint32s n (packedField m xs h) = some [] := by
  rw [packedField_eq, uint32s_bytesFields_ne hmn]

@[simp] theorem uint32s_varintFields (xs : List UInt32) :
    uint32s m (varintFields m (xs.map UInt32.toUInt64) h) = some xs := by
  unfold varintFields
  induction xs with
  | nil => rfl
  | cons x xs ih =>
    rw [List.map_cons, List.map_cons, uint32s, ih]
    rw [uint32s?_varint, UInt32.toUInt32_toUInt64]
    rfl

theorem items_readVarint32 (xs : List UInt32) :
    Items readVarint32 (xs.map fun x => encodeVarint x.toNat) xs := by
  induction xs with
  | nil => exact .nil
  | cons x xs ih =>
    refine .cons ?_ ih
    have hx := item_readVarint32 (Nat.lt_trans x.toNat_lt (by decide : 2 ^ 32 < 2 ^ 64))
    rwa [UInt32.ofNat_toNat] at hx

/-- And packed. -/
@[simp] theorem uint32s_packedField (xs : List UInt32) :
    uint32s m (packedField m xs h) = some xs := by
  unfold packedField
  split
  · rename_i hx
    rw [hx]
    rfl
  · have h1 : (Field.ofScalar m (.bytes (xs.map fun x => encodeVarint x.toNat).flatten) h).uint32s?
        m = some xs := by
      rw [uint32s?_bytes]
      exact (items_readVarint32 xs).parseAll streaming_readVarint32 progress_readVarint32
    rw [uint32s, h1]
    show some (xs ++ []) = some xs
    rw [List.append_nil]

end ReadWrite

/-! ## Unknown fields

A message keeps the fields it does not know. `known` decides, from the number
and the wire type, which those are. Groups are never known. In a message that is
`depth` messages deep, they are nested less deep. -/

abbrev UnknownField (depth : Nat) (known : Nat → Nat → Bool) : Type :=
  { f : Field // known f.num f.value.wireType = false ∧ f.Within depth }

def unknownFields (depth : Nat) (known : Nat → Nat → Bool) (fs : List Field) :
    List (UnknownField depth known) :=
  fs.filterMap fun f =>
    if h : known f.num f.value.wireType = false ∧ f.Within depth then some ⟨f, h⟩ else none

/-- Unknown fields are written back as they were read. -/
def UnknownField.toFields {depth : Nat} {known : Nat → Nat → Bool}
    (us : List (UnknownField depth known)) : List Field :=
  us.map Subtype.val

section Unknown

variable {depth : Nat} {known : Nat → Nat → Bool} {m n : Nat} {h : FieldNumber m}

@[simp] theorem unknownFields_append (fs gs : List Field) :
    unknownFields depth known (fs ++ gs) =
      unknownFields depth known fs ++ unknownFields depth known gs :=
  List.filterMap_append

@[simp] theorem unknownFields_nil : unknownFields depth known [] = [] := rfl

@[simp] theorem unknownFields_toFields (us : List (UnknownField depth known)) :
    unknownFields depth known (UnknownField.toFields us) = us := by
  unfold unknownFields UnknownField.toFields
  rw [List.filterMap_map]
  calc us.filterMap _ = us.filterMap some := List.filterMap_congr fun u _ => dif_pos u.property
    _ = us := List.filterMap_some

theorem unknownFields_eq_nil {fs : List Field}
    (hf : ∀ f ∈ fs, known f.num f.value.wireType = true) : unknownFields depth known fs = [] := by
  refine List.filterMap_eq_nil_iff.mpr fun f hm => ?_
  rw [dif_neg]
  rw [hf f hm]
  exact fun h => Bool.noConfusion h.1

@[simp] theorem unknownFields_varintFields (hk : known m 0 = true) (xs : List UInt64) :
    unknownFields depth known (varintFields m xs h) = [] := by
  refine unknownFields_eq_nil fun f hf => ?_
  obtain ⟨x, -, rfl⟩ := List.mem_map.mp hf
  exact hk

@[simp] theorem unknownFields_bytesFields (hk : known m 2 = true) (xs : List Bytes) :
    unknownFields depth known (bytesFields m xs h) = [] := by
  refine unknownFields_eq_nil fun f hf => ?_
  obtain ⟨x, -, rfl⟩ := List.mem_map.mp hf
  exact hk

@[simp] theorem unknownFields_packedField (hk : known m 2 = true) (xs : List UInt32) :
    unknownFields depth known (packedField m xs h) = [] := by
  rw [packedField_eq, unknownFields_bytesFields hk]

/-- An unknown field of a known number has another wire type. -/
theorem UnknownField.wireType_ne {wt : Nat} (u : UnknownField depth known)
    (hn : u.val.num = n) (hk : known n wt = true) : u.val.value.wireType ≠ wt := by
  rintro rfl
  have := u.property.1
  rw [hn, hk] at this
  cases this

/-- An unknown field is no value of a known varint member. -/
theorem UnknownField.varint?_eq_none (hk : known n 0 = true) (u : UnknownField depth known) :
    u.val.varint? n = none := by
  unfold Field.varint?
  split
  · rename_i hn
    have hwt := UnknownField.wireType_ne u hn hk
    split
    · rename_i x hx
      rw [hx] at hwt
      exact absurd rfl hwt
    · rfl
  · rfl

/-- Nor of a known length-delimited one. -/
theorem UnknownField.bytes?_eq_none (hk : known n 2 = true) (u : UnknownField depth known) :
    u.val.bytes? n = none := by
  unfold Field.bytes?
  split
  · rename_i hn
    have hwt := UnknownField.wireType_ne u hn hk
    split
    · rename_i x hx
      rw [hx] at hwt
      exact absurd rfl hwt
    · rfl
  · rfl

/-- Nor of a repeated one, packed or not. -/
theorem UnknownField.uint32s?_eq_nil (h0 : known n 0 = true) (h2 : known n 2 = true)
    (u : UnknownField depth known) : u.val.uint32s? n = some [] := by
  unfold Field.uint32s?
  split
  · rename_i hn
    have hwt0 := UnknownField.wireType_ne u hn h0
    have hwt2 := UnknownField.wireType_ne u hn h2
    split
    · rename_i x hx
      rw [hx] at hwt0
      exact absurd rfl hwt0
    · rename_i x hx
      rw [hx] at hwt2
      exact absurd rfl hwt2
    · rfl
  · rfl

@[simp] theorem varints_unknown (hk : known n 0 = true) (us : List (UnknownField depth known)) :
    varints n (UnknownField.toFields us) = [] := by
  refine List.filterMap_eq_nil_iff.mpr fun f hf => ?_
  obtain ⟨u, -, rfl⟩ := List.mem_map.mp hf
  exact UnknownField.varint?_eq_none hk u

@[simp] theorem byteStrings_unknown (hk : known n 2 = true)
    (us : List (UnknownField depth known)) : byteStrings n (UnknownField.toFields us) = [] := by
  refine List.filterMap_eq_nil_iff.mpr fun f hf => ?_
  obtain ⟨u, -, rfl⟩ := List.mem_map.mp hf
  exact UnknownField.bytes?_eq_none hk u

@[simp] theorem uint32s_unknown (h0 : known n 0 = true) (h2 : known n 2 = true)
    (us : List (UnknownField depth known)) : uint32s n (UnknownField.toFields us) = some [] := by
  induction us with
  | nil => rfl
  | cons u us ih =>
    show uint32s n (u.val :: UnknownField.toFields us) = some []
    rw [uint32s, UnknownField.uint32s?_eq_nil h0 h2 u, ih]
    rfl

end Unknown

/-! ## Depth

Only groups are nested, so what the writers above write may stand in any message. -/

section Depth

variable {depth : Nat} {known : Nat → Nat → Bool} {m : Nat} {h : FieldNumber m}

@[simp] theorem allWithin_append {fs gs : List Field} :
    AllWithin depth (fs ++ gs) ↔ AllWithin depth fs ∧ AllWithin depth gs :=
  List.forall_mem_append

@[simp] theorem allWithin_varintFields (xs : List UInt64) :
    AllWithin depth (varintFields m xs h) := by
  intro f hf
  obtain ⟨x, -, rfl⟩ := List.mem_map.mp hf
  rfl

@[simp] theorem allWithin_bytesFields (xs : List Bytes) :
    AllWithin depth (bytesFields m xs h) := by
  intro f hf
  obtain ⟨x, -, rfl⟩ := List.mem_map.mp hf
  rfl

@[simp] theorem allWithin_unknown (us : List (UnknownField depth known)) :
    AllWithin depth (UnknownField.toFields us) := by
  intro f hf
  obtain ⟨u, -, rfl⟩ := List.mem_map.mp hf
  exact u.property.2

end Depth

@[simp] theorem getLast?_toList {α : Type} (o : Option α) : o.toList.getLast? = o := by
  cases o <;> rfl

@[simp] theorem map_toUInt32_toUInt64 (o : Option UInt32) :
    o.map (UInt64.toUInt32 ∘ UInt32.toUInt64) = o := by
  cases o <;> simp

@[simp] theorem map_toBool_ofBool (o : Option Bool) :
    o.map ((fun n : UInt64 => n.toUInt32 != 0) ∘ fun b => if b = true then 1 else 0) = o := by
  cases o with
  | none => rfl
  | some b => cases b <;> rfl

@[simp] theorem getLast?_map_toList {α β : Type} (f : α → β) (o : Option α) :
    (o.toList.map f).getLast? = o.map f := by
  cases o <;> rfl

end Wire
