import Zippylog.Envelope
import Zippylog.Wire.Records

/-!
# Streams

`stream.cpp`: reading and writing the files zippylog stores envelopes in. A
stream file is a version byte and then one record for each envelope.

The library streams below the two classes are part of the model:

- `CodedInputStream` is a position in the file and a limit on the bytes read
  through one object, which is what `RebuildCodedInputStream` is there for;
- `FileOutputStream` keeps what it was given in a buffer and may write out any
  part of it on its own (`FileOutputStream.spill`), so a file can end inside a
  record while its stream is open.

A file does not change while an `InputStream` is open on it.
-/

namespace Zippylog

open Wire

/-- `INT_MAX`. -/
def intMax : Nat := 2 ^ 31 - 1

/-! ## `CodedInputStream` -/

/-- The unread rest of the file, the number of bytes read through this object,
and its total byte limit: 64 MiB unless `SetTotalBytesLimit` changed it. -/
structure CodedInputStream where
  rest : Bytes
  position : Nat := 0
  totalBytesLimit : Nat := 64 * 2 ^ 20

namespace CodedInputStream

/-- Read past `k` bytes, or to the end of the file. -/
def skip (c : CodedInputStream) (k : Nat) : CodedInputStream :=
  { c with rest := c.rest.drop k, position := c.position + min k c.rest.length }

/-- What can be read before the total byte limit. -/
def window (c : CodedInputStream) : Bytes := c.rest.take (c.totalBytesLimit - c.position)

/-- `ReadVarint32`. -/
def readVarint32 (c : CodedInputStream) : Option (UInt32 × CodedInputStream) :=
  (Wire.readVarint32 c.window).map fun nr => (nr.1, c.skip (c.window.length - nr.2.length))

/-- `ReadRaw` of one byte. -/
def readByte (c : CodedInputStream) : Option (UInt8 × CodedInputStream) :=
  c.window.head?.map fun b => (b, c.skip 1)

/-- Where `PushLimit(size)` puts the limit: a size that does not fit an `int`
above the current position counts as no limit. -/
def messageLimit (c : CodedInputStream) (size : UInt32) : Nat :=
  if size.toNat ≤ intMax - c.position then c.position + size.toNat else intMax

/-- `ParseFromCodedStream` and `ConsumedEntireMessage` under `PushLimit(size)`.
The pushed limit and the end of the file are legitimate ends of a message
between two fields; the total byte limit is one only where the two limits
coincide. A packed list that reaches `INT_MAX` is refused here, where the library
takes this limit for none and its elements for fields. After a failure the position
is that of the limit, which is the furthest the parser can have read. -/
def parseEnvelope (c : CodedInputStream) (size : UInt32) : Option Envelope × CodedInputStream :=
  let limit := c.messageLimit size
  let after := c.skip (limit - c.position)
  if c.totalBytesLimit < limit ∧ c.totalBytesLimit ≤ c.position + c.rest.length then
    (none, after)
  else (Envelope.parseSized size.toNat (c.rest.take (limit - c.position)), after)

end CodedInputStream

/-! ## `InputStream` and `FileInputStream` -/

structure InputStream where
  file : Bytes
  cis : CodedInputStream
  /-- `coded_input_stream_read_bytes`, an `int32` -/
  codedInputStreamReadBytes : Int := 0
  version : UInt8 := 0
  haveNextSize : Bool := false
  /-- `next_envelope_size` -/
  nextSize : UInt32 := 0
  offset : Int := -1

namespace InputStream

/-- `NextEnvelopeSize`: zero when no size can be read. -/
def nextEnvelopeSize (s : InputStream) : UInt32 × InputStream :=
  if s.haveNextSize then (s.nextSize, s)
  else match s.cis.readVarint32 with
    | none => (0, s)
    | some (n, cis) => (n, { s with cis := cis, nextSize := n, haveNextSize := true })

/-- `ReadVersion`. -/
def readVersion (s : InputStream) : Bool × InputStream :=
  match s.cis.readByte with
  | none => (false, { s with codedInputStreamReadBytes := s.codedInputStreamReadBytes + 1 })
  | some (v, cis) => (v = 1, { s with cis := cis, version := v, offset := 1 })

/-- `RebuildCodedInputStream`: a new coded stream where the old one stood. -/
def rebuildCodedInputStream (s : InputStream) : InputStream :=
  { s with
    cis := { rest := s.cis.rest, totalBytesLimit := intMax }
    codedInputStreamReadBytes := 0 }

/-- `ReadEnvelope` rebuilds the coded stream once it has read half its limit. -/
def rebuildIfHalfRead (s : InputStream) : InputStream :=
  if (intMax / 2 : Int) < s.codedInputStreamReadBytes then s.rebuildCodedInputStream else s

/-- The `bytes_read` of a record of the given size. -/
def bytesRead (size : UInt32) : UInt32 :=
  if size ≤ 0x7f then size + 1
  else if size ≤ 0x3fff then size + 2
  else if size ≤ 0x1fffff then size + 3
  else size + 4

/-- `ReadEnvelope`: the envelope when it returns true, and `bytes_read`. -/
def readEnvelope (s : InputStream) : Option Envelope × UInt32 × InputStream :=
  let (size, s) := s.nextEnvelopeSize
  if size = 0 then (none, 0, s)
  else
    let s := s.rebuildIfHalfRead
    match s.cis.parseEnvelope size with
    | (none, cis) => (none, 0, { s with cis := cis, haveNextSize := false })
    | (some e, cis) =>
      (some e, bytesRead size, { s with
        cis := cis
        haveNextSize := false
        offset := s.offset + (bytesRead size).toNat
        codedInputStreamReadBytes :=
          (s.codedInputStreamReadBytes + (bytesRead size).toNat).bmod (2 ^ 32) })

/-- `SetAbsoluteOffset`. The new coded stream has the default byte limit, and a
size that was read ahead is kept. -/
def setAbsoluteOffset (s : InputStream) (offset : Int) : Except Exn InputStream :=
  if offset < 0 then .error (.generic "could not seek to requested stream offset")
  else .ok { s with cis := { rest := s.file.drop offset.toNat }, offset := offset }

/-- `FileInputStream(path, start_offset)` on the content of the file, if there
is one. -/
def ofFile (file : Option Bytes) (startOffset : Int) : Except Exn InputStream :=
  match file with
  | none => .error (.generic "could not open file input stream")
  | some file =>
    let s : InputStream := { file := file, cis := { rest := file } }
    match s.rebuildCodedInputStream.readVersion with
    | (false, _) =>
      .error (.generic "could not read stream version or stream version not supported")
    | (true, s) => if 0 < startOffset then s.setAbsoluteOffset startOffset else .ok s

end InputStream

/-- Calling `ReadEnvelope` until it returns false: the envelopes and their
`bytes_read`, and the stream after that. -/
inductive ReadsAll : InputStream → List (Envelope × UInt32) → InputStream → Prop where
  | done {s s' : InputStream} {n : UInt32} (h : s.readEnvelope = (none, n, s')) :
      ReadsAll s [] s'
  | read {s s' s'' : InputStream} {e : Envelope} {n : UInt32} {ens : List (Envelope × UInt32)}
      (h : s.readEnvelope = (some e, n, s')) (hs : ReadsAll s' ens s'') :
      ReadsAll s ((e, n) :: ens) s''

/-! ## `OutputStream` and `FileOutputStream` -/

/-- An open `FileOutputStream`: the file, and what was written to the stream
but not yet to the file. The file is open for appending. -/
structure FileOutputStream where
  file : Bytes
  buffer : Bytes := []

namespace FileOutputStream

/-- `WriteRaw`, `WriteVarint32`: into the buffer. -/
def writeRaw (s : FileOutputStream) (data : Bytes) : FileOutputStream :=
  { s with buffer := s.buffer ++ data }

/-- `WriteEnvelope(data, length)`. -/
def writeData (s : FileOutputStream) (data : Bytes) : FileOutputStream :=
  (s.writeRaw (encodeVarint (UInt32.ofNat data.length).toNat)).writeRaw data

/-- `WriteEnvelope(e)`. -/
def writeEnvelope (s : FileOutputStream) (e : Envelope) : FileOutputStream :=
  (s.writeRaw (encodeVarint (UInt32.ofNat e.serializedByteSize).toNat)).writeRaw e.serialize

/-- `Flush`: the coded stream gives its buffer back, and the buffer goes to the
file. -/
def flush (s : FileOutputStream) : FileOutputStream := ⟨s.file ++ s.buffer, []⟩

/-- The library writes out a part of the buffer. -/
def spill (s : FileOutputStream) (n : Nat) : FileOutputStream :=
  ⟨s.file ++ s.buffer.take n, s.buffer.drop n⟩

/-- `WriteStreamHeader`. -/
def writeStreamHeader (s : FileOutputStream) : FileOutputStream := (s.writeRaw [1]).flush

/-- The constructor: a file without content is given its version byte. Opening
an absent file creates it. -/
def ofFile (file : Option Bytes) : FileOutputStream :=
  let s : FileOutputStream := { file := file.getD [] }
  if s.file.length = 0 then s.writeStreamHeader else s

/-- The destructor closes the library stream, which writes out the buffer. -/
def destroy (s : FileOutputStream) : Bytes := s.flush.file

end FileOutputStream

/-- What can happen while a `FileOutputStream` is open. -/
inductive WriteOp where
  | writeEnvelope (e : Envelope)
  | writeData (data : Bytes)
  | flush
  | spill (n : Nat)

namespace WriteOp

def run (s : FileOutputStream) : WriteOp → FileOutputStream
  | writeEnvelope e => s.writeEnvelope e
  | writeData data => s.writeData data
  | flush => s.flush
  | spill n => s.spill n

/-- The body of the record an operation writes. -/
def body? : WriteOp → Option Bytes
  | writeEnvelope e => some e.serialize
  | writeData data => some data
  | flush | spill _ => none

end WriteOp

/-- A session opens the stream, performs its operations and destroys it. -/
def runSession (file : Option Bytes) (ops : List WriteOp) : Bytes :=
  (ops.foldl WriteOp.run (FileOutputStream.ofFile file)).destroy

/-- Sessions one after the other: `none` is an absent file. -/
def runSessions (file : Option Bytes) (sessions : List (List WriteOp)) : Option Bytes :=
  sessions.foldl (fun file ops => some (runSession file ops)) file

end Zippylog
