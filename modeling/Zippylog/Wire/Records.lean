import Zippylog.Wire.Varint

/-!
# Length-delimited records

A record is the length of its body as a varint, then the body, and a log is a
concatenation of records. The lengths here are those that fit 32 bits, which is
what the readers of a log ask `readVarint32` for. Nothing is said of what a body is: that is the
reader's, who pushes the length as a limit and parses up to there.

- `record_length`, `records_append`: where the records of a log start;
- `item_length`: the length in front of a body is read back, whatever follows;
- `readVarint32_take_record`: a record cut inside its length is noticed. (A cut inside the body is
  not, as far as the length goes.)
-/

namespace Wire

/-- A record on the wire. -/
def record (body : Bytes) : Bytes := encodeVarint body.length ++ body

/-- Records one after the other. -/
def records (bodies : List Bytes) : Bytes := (bodies.map record).flatten

theorem record_length (body : Bytes) :
    (record body).length = (encodeVarint body.length).length + body.length :=
  List.length_append

theorem record_length_pos (body : Bytes) : 0 < (record body).length := by
  have := encodeVarint_length_pos body.length
  rw [record_length]
  omega

@[simp] theorem records_nil : records [] = [] := rfl

@[simp] theorem records_cons (body : Bytes) (bodies : List Bytes) :
    records (body :: bodies) = record body ++ records bodies := rfl

@[simp] theorem records_append (bodies bodies' : List Bytes) :
    records (bodies ++ bodies') = records bodies ++ records bodies' := by
  simp [records]

theorem records_take_length_le (bodies : List Bytes) (n : Nat) :
    (records (bodies.take n)).length ≤ (records bodies).length := by
  conv_rhs => rw [← List.take_append_drop n bodies, records_append, List.length_append]
  exact Nat.le_add_right _ _

/-! ## Lengths that fit 32 bits -/

theorem item_length {body : Bytes} (h : body.length < 2 ^ 32) :
    Item readVarint32 (encodeVarint body.length) (UInt32.ofNat body.length) :=
  item_readVarint32 (Nat.lt_trans h (by decide))

/-- A record cut inside its length has no length. -/
theorem readVarint32_take_record {body : Bytes} (h : body.length < 2 ^ 32) {k : Nat}
    (hk : k < (encodeVarint body.length).length) :
    readVarint32 ((record body).take k) = none := by
  rw [record, List.take_append_of_le_length (Nat.le_of_lt hk)]
  exact streaming_readVarint32.item_take (item_length h) hk

end Wire
