import Zippylog.Wire.Varint

/-!
# Protocol Buffers wire format

A message on the wire is a sequence of fields: a tag (field number and wire
type) and a value. This module reads and writes such sequences, as the generated
C++ code of the 2.4 library does.

- `decodeFields_encodeFields`: the round trip;
- `decodeFields_boundary`, `decodeFields_inside`: what a field sequence that is
  cut short decodes to.

Three habits of that code are more liberal than the format and are kept here.
Lengths and tags are truncated to 32 bits (`readTag`, `readLength`). Groups, the
deprecated wire types 3 and 4, are unknown fields of every message: they are
skipped, with whatever they hold, as long as each ends with its own number and
they are not nested too deep (`readGroup`). And a packed field or an embedded
message may claim to be longer than what is left of its message: it then takes
what is left (`readCut`). Strings, byte strings and unknown fields may not.

The size of one message is not bounded here. The library stops at 64 MiB when it
parses a buffer, so a longer one is to be read as one that does not parse.
-/

namespace Wire

/-- The value of a field that is not a group. -/
inductive Scalar where
  | varint (n : UInt64)
  | fixed64 (bs : { bs : Bytes // bs.length = 8 })
  | bytes (bs : Bytes)
  | fixed32 (bs : { bs : Bytes // bs.length = 4 })
  deriving DecidableEq

namespace Scalar

/-- The three low bits of the tag. -/
def wireType : Scalar → Nat
  | varint _ => 0
  | fixed64 _ => 1
  | bytes _ => 2
  | fixed32 _ => 5

def encode : Scalar → Bytes
  | varint n => encodeVarint n.toNat
  | fixed64 bs => bs.val
  | bytes bs => encodeLength bs.length ++ bs
  | fixed32 bs => bs.val

end Scalar

/-- What a group is made of: the tags that open a group inside it, fields, and the
tags that close a group. -/
inductive GroupToken where
  | start (num : Nat)
  | field (num : Nat) (value : Scalar)
  | stop (num : Nat)
  deriving DecidableEq

def GroupToken.encode : GroupToken → Bytes
  | start num => encodeVarint (num * 8 + 3)
  | field num value => encodeVarint (num * 8 + value.wireType) ++ value.encode
  | stop num => encodeVarint (num * 8 + 4)

def encodeTokens (ts : List GroupToken) : Bytes := (ts.map GroupToken.encode).flatten

/-- `ts` is what follows in the groups `nums`, the innermost first, up to the tag
that closes the outermost. No group is deeper than `limit`. -/
def closes (limit : Nat) : List Nat → List GroupToken → Bool
  | [], ts => ts.isEmpty
  | _ :: _, [] => false
  | num :: nums, .stop n :: ts => decide (n = num ∧ n < 2 ^ 29) && closes limit nums ts
  | num :: nums, .start n :: ts =>
    decide (n < 2 ^ 29 ∧ nums.length + 2 ≤ limit) && closes limit (n :: num :: nums) ts
  | num :: nums, .field n v :: ts =>
    decide (n < 2 ^ 29 ∧ 0 < n * 8 + v.wireType) && closes limit (num :: nums) ts

/-- The value of a field. A group is everything between the tag that opens it and
the one that closes it, which is its last token. -/
inductive WireValue where
  | scalar (v : Scalar)
  | group (ts : List GroupToken)
  deriving DecidableEq

namespace WireValue

def wireType : WireValue → Nat
  | scalar v => v.wireType
  | group _ => 3

def encode : WireValue → Bytes
  | scalar v => v.encode
  | group ts => encodeTokens ts

/-- A group is closed by its own number, and its groups are nested at most `limit`
deep, itself included. -/
def nests (limit num : Nat) : WireValue → Bool
  | scalar _ => true
  | group ts => decide (0 < limit) && closes limit [num] ts

end WireValue

/-- `kDefaultRecursionLimit`: how deep messages and groups may be nested. -/
def recursionLimit : Nat := 64

/-- A tag carries the number and the value, and the library's reader takes both.
Zero is no tag, but it is a field number that unknown fields may have. -/
abbrev ValidField (num : Nat) (value : WireValue) : Prop :=
  num < 2 ^ 29 ∧ 0 < num * 8 + value.wireType ∧ value.nests recursionLimit num = true

/-- A field. -/
structure Field where
  num : Nat
  value : WireValue
  valid : ValidField num value := by decide
  deriving DecidableEq

/-- The tag of a field. -/
def Field.tag (f : Field) : Nat := f.num * 8 + f.value.wireType

/-- A field on the wire. -/
def Field.encode (f : Field) : Bytes := encodeVarint f.tag ++ f.value.encode

/-- The field may stand in a message that is itself `depth` messages deep. -/
def Field.Within (depth : Nat) (f : Field) : Prop :=
  f.value.nests (recursionLimit - depth) f.num = true

instance (depth : Nat) : DecidablePred (Field.Within depth) :=
  fun f => inferInstanceAs (Decidable (f.value.nests (recursionLimit - depth) f.num = true))

/-- All the fields may stand in a message that is `depth` messages deep. -/
def AllWithin (depth : Nat) (fs : List Field) : Prop := ∀ f ∈ fs, f.Within depth

/-! ## Readers of the library -/

/-- `CodedInputStream::ReadTag`: at most ten bytes, truncated to 32 bits. Zero is
what it returns at the end of a message, and is refused elsewhere. -/
def readTag : Parser UInt8 Nat :=
  (decodeVarint.within 10).filterMap fun n =>
    if 0 < n % 2 ^ 32 then some (n % 2 ^ 32) else none

def readVarintValue : Parser UInt8 Scalar := readVarint64.filterMap fun n => some (.varint n)

def readFixed64 : Parser UInt8 Scalar :=
  (Parser.take 8).filterMap fun bs =>
    if h : bs.length = 8 then some (.fixed64 ⟨bs, h⟩) else none

def readFixed32 : Parser UInt8 Scalar :=
  (Parser.take 4).filterMap fun bs =>
    if h : bs.length = 4 then some (.fixed32 ⟨bs, h⟩) else none

/-- `ReadBytes`: the length, then `ReadString`. -/
def readBytes : Parser UInt8 Scalar :=
  readLength.bind fun n => (Parser.take n).filterMap fun bs => some (.bytes bs)

/-- The value after a tag of wire type `wt`, which opens no group. -/
def readScalar (wt : Nat) : Parser UInt8 Scalar :=
  if wt = 0 then readVarintValue
  else if wt = 1 then readFixed64
  else if wt = 2 then readBytes
  else if wt = 5 then readFixed32
  else fun _ => none

/-- `SkipMessage` in the groups `nums`, the innermost first, up to the tag that
closes the outermost. The first argument after the limit bounds the number of tags. -/
def readGroup (limit : Nat) : Nat → List Nat → Parser UInt8 (List GroupToken)
  | _, [] => fun bs => some ([], bs)
  | 0, _ :: _ => fun _ => none
  | fuel + 1, num :: nums => readTag.bind fun tag =>
    if tag % 8 = 4 then
      if tag / 8 = num then (readGroup limit fuel nums).filterMap fun ts => some (.stop num :: ts)
      else fun _ => none
    else if tag % 8 = 3 then
      -- `IncrementRecursionDepth`
      if nums.length + 2 ≤ limit then
        (readGroup limit fuel (tag / 8 :: num :: nums)).filterMap fun ts =>
          some (.start (tag / 8) :: ts)
      else fun _ => none
    else (readScalar (tag % 8)).bind fun v =>
      (readGroup limit fuel (num :: nums)).filterMap fun ts => some (.field (tag / 8) v :: ts)

/-- The value after the tag of field `num` with wire type `wt`. A closing tag
outside a group ends the message too early, which its reader refuses. -/
def readValue (limit num wt : Nat) : Parser UInt8 WireValue :=
  if wt = 3 then
    if 0 < limit then
      (Parser.fueled fun fuel => readGroup limit fuel [num]).filterMap fun ts => some (.group ts)
    else fun _ => none
  else (readScalar wt).filterMap fun v => some (.scalar v)

/-- The field at the front of a message that is `depth` messages deep. What is read
is a valid field (`validField_of_readValue`). -/
def readField (depth : Nat) : Parser UInt8 Field :=
  readTag.bind fun tag =>
    (readValue (recursionLimit - depth) (tag / 8) (tag % 8)).filterMap fun v =>
      if h : ValidField (tag / 8) v then some ⟨tag / 8, v, h⟩ else none

/-- A field whose length runs past the end of its message. `PushLimit` keeps to the
limit of the enclosing message, so a packed field or an embedded message ends where
that ends. `limited` are the numbers of such fields. -/
def readCut (limited : List Nat) (bs : Bytes) : Option Field :=
  (readTag bs).bind fun tr =>
    if tr.1 % 8 = 2 ∧ tr.1 / 8 ∈ limited then
      (readVarint32 tr.2).bind fun nr =>
        if h : nr.2.length < nr.1.toNat ∧ ValidField (tr.1 / 8) (.scalar (.bytes nr.2)) then
          some ⟨tr.1 / 8, .scalar (.bytes nr.2), h.2⟩
        else none
    else none

def encodeFields (fs : List Field) : Bytes := (fs.map Field.encode).flatten

/-- The fields of a message that is `depth` messages deep and whose packed fields
and embedded messages have the numbers `limited`. -/
def decodeFields (depth : Nat) (limited : List Nat) (bs : Bytes) : Option (List Field) :=
  Parser.parseAll (readField depth) (readCut limited) bs

/-! ## Values that are no groups -/

theorem streaming_readTag : Streaming readTag :=
  (streaming_decodeVarint.within 10).filterMap _

theorem streaming_readVarintValue : Streaming readVarintValue :=
  streaming_readVarint64.filterMap _

theorem streaming_readFixed64 : Streaming readFixed64 := (streaming_take 8).filterMap _

theorem streaming_readFixed32 : Streaming readFixed32 := (streaming_take 4).filterMap _

theorem streaming_readBytes : Streaming readBytes :=
  streaming_readLength.bind fun n => (streaming_take n).filterMap _

/-- A scalar does not look behind itself. -/
theorem streaming_readScalar (wt : Nat) : Streaming (readScalar wt) := by
  unfold readScalar
  split
  · exact streaming_readVarintValue
  · split
    · exact streaming_readFixed64
    · split
      · exact streaming_readBytes
      · split
        · exact streaming_readFixed32
        · exact streaming_none

theorem progress_readTag : Progress readTag := rfl

theorem item_readTag {tag : Nat} (h0 : 0 < tag) (h : tag < 2 ^ 32) :
    Item readTag (encodeVarint tag) tag := by
  have hlen := encodeVarint_length_le_ten (Nat.lt_trans h (by decide))
  refine ((item_encodeVarint tag).within hlen).filterMap ?_
  rw [Nat.mod_eq_of_lt h, if_pos h0]

/-- A tag fits 32 bits, and is not zero. -/
theorem tag_of_readTag {bs rest : Bytes} {tag : Nat} (h : readTag bs = some (tag, rest)) :
    0 < tag ∧ tag < 2 ^ 32 := by
  obtain ⟨n, -, hn⟩ := Parser.filterMap_eq_some_iff.mp h
  split at hn
  · rename_i h0
    cases hn
    exact ⟨h0, Nat.mod_lt _ (by decide)⟩
  · cases hn

theorem item_readVarintValue (n : UInt64) :
    Item readVarintValue (encodeVarint n.toNat) (.varint n) := by
  have h := item_readVarint64 n.toNat_lt
  rw [UInt64.ofNat_toNat] at h
  exact h.filterMap rfl

theorem item_readFixed64 (bs : { bs : Bytes // bs.length = 8 }) :
    Item readFixed64 bs.val (.fixed64 bs) := by
  have h := item_take_self bs.val
  rw [bs.property] at h
  refine h.filterMap ?_
  rw [dif_pos bs.property]

theorem item_readFixed32 (bs : { bs : Bytes // bs.length = 4 }) :
    Item readFixed32 bs.val (.fixed32 bs) := by
  have h := item_take_self bs.val
  rw [bs.property] at h
  refine h.filterMap ?_
  rw [dif_pos bs.property]

theorem item_readBytes (bs : Bytes) :
    Item readBytes (encodeLength bs.length ++ bs) (.bytes bs) := by
  have h : Item ((Parser.take bs.length).filterMap fun bs => some (Scalar.bytes bs)) bs
      (.bytes bs) := (item_take_self bs).filterMap rfl
  exact (item_readLength bs.length).bind h

theorem item_readScalar (v : Scalar) : Item (readScalar v.wireType) v.encode v := by
  cases v with
  | varint n => exact item_readVarintValue n
  | fixed64 bs => exact item_readFixed64 bs
  | bytes bs => exact item_readBytes bs
  | fixed32 bs => exact item_readFixed32 bs

theorem Scalar.wireType_lt (v : Scalar) : v.wireType < 8 := by
  cases v <;> simp [Scalar.wireType]

theorem Scalar.wireType_ne (v : Scalar) : v.wireType ≠ 3 ∧ v.wireType ≠ 4 := by
  cases v <;> simp [Scalar.wireType]

theorem Scalar.encode_length_pos (v : Scalar) : 0 < v.encode.length := by
  cases v with
  | varint n => exact encodeVarint_length_pos _
  | fixed64 bs => exact bs.property ▸ (by decide : 0 < 8)
  | bytes bs =>
    have := encodeLength_length_pos bs.length
    rw [Scalar.encode, List.length_append]
    omega
  | fixed32 bs => exact bs.property ▸ (by decide : 0 < 4)

/-- The value that is read has the wire type that was asked for. -/
theorem wireType_of_readScalar {wt : Nat} {bs rest : Bytes} {v : Scalar}
    (h : readScalar wt bs = some (v, rest)) : v.wireType = wt := by
  unfold readScalar at h
  split at h
  · rename_i hwt
    obtain ⟨_, -, he⟩ := Parser.filterMap_eq_some_iff.mp h
    cases he
    exact hwt.symm
  split at h
  · rename_i hwt
    obtain ⟨_, -, he⟩ := Parser.filterMap_eq_some_iff.mp h
    split at he
    · cases he
      exact hwt.symm
    · cases he
  split at h
  · rename_i hwt
    obtain ⟨_, _, -, he⟩ := Parser.bind_eq_some_iff.mp h
    obtain ⟨_, -, he⟩ := Parser.filterMap_eq_some_iff.mp he
    cases he
    exact hwt.symm
  split at h
  · rename_i hwt
    obtain ⟨_, -, he⟩ := Parser.filterMap_eq_some_iff.mp h
    split at he
    · cases he
      exact hwt.symm
    · cases he
  · cases h

/-! ## Groups -/

/-- Nor does a group: its end is the tag of its innermost open number. The induction is on the fuel.
-/
theorem streaming_readGroup (limit : Nat) :
    ∀ (fuel : Nat) (nums : List Nat), Streaming (readGroup limit fuel nums)
  | _, [] => by
    intro xs ts r h
    rw [readGroup] at h
    cases h
    exact ⟨[], rfl, fun t => by rw [readGroup, List.nil_append]⟩
  | 0, _ :: _ => streaming_none
  | fuel + 1, num :: nums => by
    refine streaming_readTag.bind fun tag => ?_
    split
    · split
      · exact (streaming_readGroup limit fuel nums).filterMap _
      · exact streaming_none
    split
    · split
      · exact (streaming_readGroup limit fuel _).filterMap _
      · exact streaming_none
    · exact (streaming_readScalar _).bind fun v => (streaming_readGroup limit fuel _).filterMap _

/-- What `readGroup` does with the tag at the front of its input. -/
theorem readGroup_succ_iff {limit n num : Nat} {nums : List Nat} {bs rest : Bytes}
    {ts : List GroupToken} : readGroup limit (n + 1) (num :: nums) bs = some (ts, rest) ↔
    ∃ tag bs', readTag bs = some (tag, bs') ∧
      (tag % 8 = 4 ∧ tag / 8 = num ∧
          (∃ us, readGroup limit n nums bs' = some (us, rest) ∧ .stop num :: us = ts) ∨
        tag % 8 = 3 ∧ nums.length + 2 ≤ limit ∧
          (∃ us, readGroup limit n (tag / 8 :: num :: nums) bs' = some (us, rest) ∧
            .start (tag / 8) :: us = ts) ∨
        tag % 8 ≠ 4 ∧ tag % 8 ≠ 3 ∧
          ∃ v bs'' us, readScalar (tag % 8) bs' = some (v, bs'') ∧
            readGroup limit n (num :: nums) bs'' = some (us, rest) ∧
            .field (tag / 8) v :: us = ts) := by
  rw [readGroup, Parser.bind_eq_some_iff]
  refine exists_congr fun tag => exists_congr fun bs' => and_congr_right fun _ => ?_
  by_cases h4 : tag % 8 = 4
  · by_cases hnum : tag / 8 = num
    · simp [h4, hnum, Parser.filterMap_eq_some_iff]
    · simp [h4, hnum]
  by_cases h3 : tag % 8 = 3
  · by_cases hlimit : nums.length + 2 ≤ limit
    · simp [h3, hlimit, Parser.filterMap_eq_some_iff]
    · simp [h3, hlimit]
  · simp [h4, h3, Parser.bind_eq_some_iff, Parser.filterMap_eq_some_iff]

/-- One byte of a group is enough fuel for one tag. -/
theorem readGroup_fuel {limit : Nat} : ∀ {n m : Nat} {nums : List Nat} {bs rest : Bytes}
    {ts : List GroupToken}, readGroup limit n nums bs = some (ts, rest) →
    bs.length ≤ rest.length + m → readGroup limit m nums bs = some (ts, rest)
  | _, m, [], bs, rest, ts, h, _ => by
    rw [readGroup] at h
    rw [readGroup, h]
  | 0, _, _ :: _, _, _, _, h, _ => by
    rw [readGroup] at h
    cases h
  | n + 1, m, num :: nums, bs, rest, ts, h, hm => by
    obtain ⟨tag, bs', htag, h⟩ := readGroup_succ_iff.mp h
    have hlt := streaming_readTag.length_lt progress_readTag htag
    have hle : rest.length ≤ bs'.length := by
      obtain ⟨-, -, us, hus, -⟩ | ⟨-, -, us, hus, -⟩ | ⟨-, -, v, bs'', us, hv, hus, -⟩ := h
      · exact (streaming_readGroup limit n _).length_le hus
      · exact (streaming_readGroup limit n _).length_le hus
      · exact Nat.le_trans ((streaming_readGroup limit n _).length_le hus)
          ((streaming_readScalar _).length_le hv)
    obtain ⟨m, rfl⟩ : ∃ k, m = k + 1 := ⟨m - 1, by omega⟩
    refine readGroup_succ_iff.mpr ⟨tag, bs', htag, ?_⟩
    obtain ⟨h4, hnum, us, hus, rfl⟩ | ⟨h3, hlimit, us, hus, rfl⟩ |
      ⟨h4, h3, v, bs'', us, hv, hus, rfl⟩ := h
    · exact .inl ⟨h4, hnum, us, readGroup_fuel hus (by omega), rfl⟩
    · exact .inr (.inl ⟨h3, hlimit, us, readGroup_fuel hus (by omega), rfl⟩)
    · have := (streaming_readScalar _).length_le hv
      exact .inr (.inr ⟨h4, h3, v, bs'', us, hv, readGroup_fuel hus (by omega), rfl⟩)

/-- What is read closes the groups it was read in. -/
theorem closes_of_readGroup {limit : Nat} : ∀ {n : Nat} {nums : List Nat} {bs rest : Bytes}
    {ts : List GroupToken}, readGroup limit n nums bs = some (ts, rest) →
    closes limit nums ts = true
  | _, [], bs, rest, ts, h => by
    rw [readGroup] at h
    cases h
    rfl
  | 0, _ :: _, _, _, _, h => by
    rw [readGroup] at h
    cases h
  | n + 1, num :: nums, bs, rest, ts, h => by
    obtain ⟨tag, bs', htag, h⟩ := readGroup_succ_iff.mp h
    obtain ⟨h0, hlt⟩ := tag_of_readTag htag
    obtain ⟨h4, hnum, us, hus, rfl⟩ | ⟨h3, hlimit, us, hus, rfl⟩ |
      ⟨h4, h3, v, bs'', us, hv, hus, rfl⟩ := h
    · rw [closes, closes_of_readGroup hus, Bool.and_true, decide_eq_true_eq]
      exact ⟨rfl, by omega⟩
    · rw [closes, closes_of_readGroup hus, Bool.and_true, decide_eq_true_eq]
      exact ⟨by omega, hlimit⟩
    · have hwt := wireType_of_readScalar hv
      rw [closes, closes_of_readGroup hus, Bool.and_true, decide_eq_true_eq]
      exact ⟨by omega, by omega⟩

/-- What closes the groups is read back, with one unit of fuel for each token. -/
theorem item_readGroup {limit : Nat} : ∀ {n : Nat} {nums : List Nat} {ts : List GroupToken},
    closes limit nums ts = true → ts.length ≤ n →
    Item (readGroup limit n nums) (encodeTokens ts) ts
  | n, [], ts, h, _ => by
    rw [closes, List.isEmpty_iff] at h
    subst h
    intro t
    rw [readGroup]
    rfl
  | 0, _ :: _, [], h, _ => by
    rw [closes] at h
    cases h
  -- the innermost group ends
  | n + 1, num :: nums, .stop k :: ts, h, hn => by
    rw [closes, Bool.and_eq_true, decide_eq_true_eq] at h
    obtain ⟨⟨rfl, hk⟩, h⟩ := h
    rw [List.length_cons] at hn
    intro t
    refine readGroup_succ_iff.mpr ⟨k * 8 + 4, encodeTokens ts ++ t, ?_, .inl ⟨by omega, by omega,
      ts, item_readGroup h (by omega) t, rfl⟩⟩
    rw [encodeTokens, List.map_cons, List.flatten_cons, List.append_assoc]
    exact item_readTag (by omega) (by omega) _
  -- another group begins inside
  | n + 1, num :: nums, .start k :: ts, h, hn => by
    rw [closes, Bool.and_eq_true, decide_eq_true_eq] at h
    obtain ⟨⟨hk, hlimit⟩, h⟩ := h
    rw [List.length_cons] at hn
    intro t
    have hdiv : (k * 8 + 3) / 8 = k := by omega
    refine readGroup_succ_iff.mpr ⟨k * 8 + 3, encodeTokens ts ++ t, ?_,
      .inr (.inl ⟨by omega, hlimit, ts, ?_, by rw [hdiv]⟩)⟩
    · rw [encodeTokens, List.map_cons, List.flatten_cons, List.append_assoc]
      exact item_readTag (by omega) (by omega) _
    · rw [hdiv]
      exact item_readGroup h (by omega) t
  | n + 1, num :: nums, .field k v :: ts, h, hn => by
    rw [closes, Bool.and_eq_true, decide_eq_true_eq] at h
    obtain ⟨⟨hk, hpos⟩, h⟩ := h
    rw [List.length_cons] at hn
    have hwt := v.wireType_lt
    obtain ⟨hne3, hne4⟩ := v.wireType_ne
    have hmod : (k * 8 + v.wireType) % 8 = v.wireType := by omega
    have hdiv : (k * 8 + v.wireType) / 8 = k := by omega
    intro t
    refine readGroup_succ_iff.mpr ⟨k * 8 + v.wireType, v.encode ++ (encodeTokens ts ++ t), ?_,
      .inr (.inr ⟨by omega, by omega, v, encodeTokens ts ++ t, ts, ?_,
        item_readGroup h (by omega) t, by rw [hdiv]⟩)⟩
    · rw [encodeTokens, List.map_cons, List.flatten_cons, GroupToken.encode, List.append_assoc,
        List.append_assoc]
      exact item_readTag (by omega) (by omega) _
    · rw [hmod]
      exact item_readScalar v _

/-- Every token takes a byte, so there is fuel enough for a group in what is left of the text. -/
theorem length_le_encodeTokens : ∀ ts : List GroupToken, ts.length ≤ (encodeTokens ts).length
  | [] => Nat.le_refl 0
  | t :: ts => by
    have ht : 0 < t.encode.length := by
      cases t with
      | start num => exact encodeVarint_length_pos _
      | field num v =>
        have := encodeVarint_length_pos (num * 8 + v.wireType)
        rw [GroupToken.encode, List.length_append]
        omega
      | stop num => exact encodeVarint_length_pos _
    have := length_le_encodeTokens ts
    rw [encodeTokens, List.map_cons, List.flatten_cons, List.length_append, List.length_cons]
    rw [encodeTokens] at this
    omega

/-- What a shallower limit allows, a deeper one allows. -/
theorem closes_mono {limit limit' : Nat} (hle : limit ≤ limit') :
    ∀ {nums : List Nat} {ts : List GroupToken}, closes limit nums ts = true →
      closes limit' nums ts = true
  | [], ts, h => by
    rw [closes] at h ⊢
    exact h
  | _ :: _, [], h => by
    rw [closes] at h
    cases h
  | num :: nums, .stop k :: ts, h => by
    rw [closes, Bool.and_eq_true] at h ⊢
    exact ⟨h.1, closes_mono hle h.2⟩
  | num :: nums, .start k :: ts, h => by
    rw [closes, Bool.and_eq_true, decide_eq_true_eq] at h ⊢
    exact ⟨⟨h.1.1, Nat.le_trans h.1.2 hle⟩, closes_mono hle h.2⟩
  | num :: nums, .field k v :: ts, h => by
    rw [closes, Bool.and_eq_true] at h ⊢
    exact ⟨h.1, closes_mono hle h.2⟩

theorem WireValue.nests_mono {limit limit' num : Nat} (hle : limit ≤ limit') {v : WireValue}
    (h : v.nests limit num = true) : v.nests limit' num = true := by
  cases v with
  | scalar v => rfl
  | group ts =>
    rw [WireValue.nests, Bool.and_eq_true, decide_eq_true_eq] at h ⊢
    exact ⟨by omega, closes_mono hle h.2⟩

/-! ## One field -/

/-- The rest of a field behind its tag. -/
theorem streaming_readValue (limit num wt : Nat) : Streaming (readValue limit num wt) := by
  unfold readValue
  split
  · split
    · refine Streaming.filterMap (Streaming.fueled (fun n => streaming_readGroup limit n _) ?_) _
      intro n us ts hus m hm t
      refine readGroup_fuel (hus t) ?_
      rw [List.length_append]
      omega
    · exact streaming_none
  · exact (streaming_readScalar wt).filterMap _

theorem streaming_readField (depth : Nat) : Streaming (readField depth) :=
  streaming_readTag.bind fun _ => (streaming_readValue _ _ _).filterMap _

theorem progress_readField (depth : Nat) : Progress (readField depth) := rfl

/-- The value that is read fits its tag. -/
theorem nests_of_readValue {limit num wt : Nat} {bs rest : Bytes} {v : WireValue}
    (h : readValue limit num wt bs = some (v, rest)) :
    v.wireType = wt ∧ v.nests limit num = true := by
  unfold readValue at h
  split at h
  · rename_i hwt
    split at h
    · rename_i hlimit
      obtain ⟨ts, hts, he⟩ := Parser.filterMap_eq_some_iff.mp h
      cases he
      refine ⟨hwt.symm, ?_⟩
      rw [WireValue.nests, closes_of_readGroup hts, Bool.and_true, decide_eq_true_eq]
      exact hlimit
    · cases h
  · obtain ⟨v, hv, he⟩ := Parser.filterMap_eq_some_iff.mp h
    cases he
    exact ⟨wireType_of_readScalar hv, rfl⟩

/-- A tag and the value after it are a field. -/
theorem validField_of_readValue {depth tag : Nat} {bs bs' rest : Bytes} {v : WireValue}
    (htag : readTag bs = some (tag, bs'))
    (h : readValue (recursionLimit - depth) (tag / 8) (tag % 8) bs' = some (v, rest)) :
    ValidField (tag / 8) v := by
  obtain ⟨h0, hlt⟩ := tag_of_readTag htag
  obtain ⟨hwt, hnests⟩ := nests_of_readValue h
  exact ⟨by omega, by omega, WireValue.nests_mono (Nat.sub_le _ _) hnests⟩

/-- A field that is read in a message may stand in that message. -/
theorem within_of_readField {depth : Nat} {bs rest : Bytes} {f : Field}
    (h : readField depth bs = some (f, rest)) : f.Within depth := by
  obtain ⟨tag, bs', -, h⟩ := Parser.bind_eq_some_iff.mp h
  obtain ⟨v, hv, hf⟩ := Parser.filterMap_eq_some_iff.mp h
  split at hf
  · cases hf
    exact (nests_of_readValue hv).2
  · cases hf

/-- A value is read back from what it is written as, whatever follows. -/
theorem item_readValue {limit num : Nat} {v : WireValue} (h : v.nests limit num = true) :
    Item (readValue limit num v.wireType) v.encode v := by
  cases v with
  | scalar v =>
    have hne := v.wireType_ne.1
    rw [show (WireValue.scalar v).wireType = v.wireType from rfl, readValue, if_neg hne]
    exact (item_readScalar v).filterMap rfl
  | group ts =>
    rw [WireValue.nests, Bool.and_eq_true, decide_eq_true_eq] at h
    rw [show (WireValue.group ts).wireType = 3 from rfl, readValue, if_pos rfl, if_pos h.1]
    refine Item.filterMap (Item.fueled fun n hn => ?_) rfl
    exact item_readGroup h.2 (Nat.le_trans (length_le_encodeTokens ts) hn)

theorem WireValue.wireType_lt (v : WireValue) : v.wireType < 8 := by
  cases v with
  | scalar v => exact v.wireType_lt
  | group ts => exact (by decide : 3 < 8)

/-- And a field, of any number but zero. -/
theorem item_readField {depth : Nat} {f : Field} (h : f.Within depth) :
    Item (readField depth) f.encode f := by
  obtain ⟨num, v, hvalid⟩ := f
  have hwt := v.wireType_lt
  have hmod : (num * 8 + v.wireType) % 8 = v.wireType := by omega
  have hdiv : (num * 8 + v.wireType) / 8 = num := by omega
  have hnum := hvalid.1
  refine (item_readTag hvalid.2.1 (by omega)).bind (Item.filterMap (a := v) ?_ ?_)
  · rw [hmod, hdiv]
    exact item_readValue h
  · simp only [hdiv]
    rw [dif_pos hvalid]

/-! ## Sequences of fields -/

/-- At the top, any field may stand. -/
theorem Field.within_zero (f : Field) : f.Within 0 := f.valid.2.2

theorem items_encode {depth : Nat} {fs : List Field} (h : AllWithin depth fs) :
    Items (readField depth) (fs.map Field.encode) fs := by
  induction fs with
  | nil => exact .nil
  | cons f fs ih =>
    exact .cons (item_readField (h f List.mem_cons_self))
      (ih fun g hg => h g (List.mem_cons_of_mem _ hg))

/-- A field takes at least two bytes: its tag and its value are not empty. -/
theorem two_le_length_encode (f : Field) : 2 ≤ f.encode.length := by
  have htag := encodeVarint_length_pos f.tag
  have hvalue : 0 < f.value.encode.length := by
    obtain ⟨num, v, -, -, hnests⟩ := f
    cases v with
    | scalar v => exact v.encode_length_pos
    | group ts =>
      have hne : ts ≠ [] := by
        rintro rfl
        rw [WireValue.nests, closes, Bool.and_false] at hnests
        cases hnests
      exact Nat.lt_of_lt_of_le (List.length_pos_iff.mpr hne) (length_le_encodeTokens ts)
  rw [Field.encode, List.length_append]
  omega

theorem two_le_length_encodeFields {fs : List Field} (h : fs ≠ []) :
    2 ≤ (encodeFields fs).length := by
  cases fs with
  | nil => exact absurd rfl h
  | cons f fs =>
    have := two_le_length_encode f
    rw [encodeFields, List.map_cons, List.flatten_cons, List.length_append]
    omega

/-- A field that is cut short is one of the limited ones, and a byte string. -/
theorem readCut_eq_some {limited : List Nat} {bs : Bytes} {f : Field}
    (h : readCut limited bs = some f) :
    f.num ∈ limited ∧ ∃ rest, f.value = .scalar (.bytes rest) := by
  obtain ⟨tr, -, h⟩ := Option.bind_eq_some_iff.mp h
  split at h
  · rename_i htag
    obtain ⟨nr, -, h⟩ := Option.bind_eq_some_iff.mp h
    split at h
    · cases h
      exact ⟨htag.2, nr.2, rfl⟩
    · cases h
  · cases h

/-- The front of a field has the number of the field. -/
theorem num_of_readCut_take {limited : List Nat} {f g : Field} {m : Nat}
    (h : readCut limited (f.encode.take m) = some g) : f.num ∈ limited := by
  obtain ⟨⟨tag, rest⟩, htag, h⟩ := Option.bind_eq_some_iff.mp h
  split at h
  · rename_i hlimited
    obtain ⟨us, hus, hitem⟩ := streaming_readTag htag
    have hfield : Item readTag (encodeVarint f.tag) f.tag := by
      have hwt := f.value.wireType_lt
      have hnum := f.valid.1
      exact item_readTag f.valid.2.1 (by unfold Field.tag; omega)
    have hencode : us ++ (rest ++ f.encode.drop m) = encodeVarint f.tag ++ f.value.encode := by
      rw [← List.append_assoc, ← hus, List.take_append_drop, Field.encode]
    obtain ⟨-, rfl, -⟩ := hitem.unique hfield hencode
    have hwt := f.value.wireType_lt
    have hdiv : f.tag / 8 = f.num := by
      unfold Field.tag
      omega
    exact hdiv ▸ hlimited.2
  · cases h

section Decode

variable {depth : Nat} {limited : List Nat}

/-- Decoding inverts encoding. -/
theorem decodeFields_encodeFields {fs : List Field} (h : AllWithin depth fs) :
    decodeFields depth limited (encodeFields fs) = some fs :=
  (items_encode h).parseAll (streaming_readField depth) (progress_readField depth)

@[simp] theorem decodeFields_zero_encodeFields (fs : List Field) :
    decodeFields 0 limited (encodeFields fs) = some fs :=
  decodeFields_encodeFields fun f _ => f.within_zero

@[simp] theorem encodeFields_nil : encodeFields [] = [] := rfl

@[simp] theorem decodeFields_nil : decodeFields depth limited [] = some [] := rfl

variable {uss : List Bytes} {fs : List Field}

/-- Between two fields, the fields before the cut decode. -/
theorem decodeFields_boundary (h : Items (readField depth) uss fs) (j : Nat) :
    decodeFields depth limited (uss.take j).flatten = some (fs.take j) :=
  h.parseAll_boundary (streaming_readField depth) (progress_readField depth) j

/-- **Truncation**: inside a field, the fields before it decode, and a field that
may be cut short. -/
theorem decodeFields_inside (h : Items (readField depth) uss fs) {k j m : Nat} {us : Bytes}
    (hk : Inside uss k j us m) :
    decodeFields depth limited (uss.flatten.take k) =
      (readCut limited (us.take m)).map fun f => fs.take j ++ [f] :=
  h.parseAll_inside (streaming_readField depth) (progress_readField depth) hk

end Decode

end Wire
