import Zippylog.Protocol.OtherMessages

/-!
# Protocol messages

The messages of `proto/zippylog/protocol*.proto` and `message.proto`, with their
field numbers and zippylog enumerations, and `message::Envelope`, which carries
them.

- Required fields are plain fields: `ParseFromString` refuses a message without
  one, so a parsed message always has it, and the `has_path()` style checks of
  the request handlers never fire.
- `MessageType` has every type that `register_known_messages` registers. The
  types whose members no modelled function looks into are in `OtherMessages`.
- A message keeps the fields it does not know and writes them back. The modelled
  code does so with envelopes and the actors inside them, so these have their
  unknown fields (`Envelope.unknown`, `ActorInfo.unknown`). It never serialises
  another message it has parsed, and there they are dropped.
- An embedded message is read one level deeper than the message around it, which
  matters for the groups among its unknown fields.

`Message.parse_serialize` and `Envelope.parse_serialize` are the round trips.
-/

namespace Zippylog

open Wire

/-- A string literal as the bytes of a `std::string`. -/
def str (s : String) : Bytes := s.toList.map fun c => UInt8.ofNat c.toNat

/-- `zippylog::message_namespace`. -/
def messageNamespace : UInt32 := 1

/-! ## Message types -/

/-- The registered message types. -/
inductive MessageType where
  | pingV1 | getFeaturesV1 | getStoreInfoV1 | getBucketInfoV1 | getStreamSetInfoV1
  | getStreamInfoV1 | getStreamSegmentV1 | writeEnvelopeV1 | writeEnvelopeFromMessagesV1
  | subscribeStoreChangesV1 | subscribeEnvelopesV1 | subscribeKeepaliveV1 | subscribeCancelV1
  | registerPluginV1 | unregisterPluginV1 | getPluginStatusV1
  | pongV1 | featureSpecificationV1 | storeInfoV1 | bucketInfoV1 | streamSetInfoV1 | streamInfoV1
  | streamSegmentStartV1 | streamSegmentEndV1 | subscriptionAcceptAckV1 | subscriptionStartV1
  | writeAckV1 | error
  | storeChangeBucketAddedV1 | storeChangeBucketDeletedV1
  | storeChangeStreamSetAddedV1 | storeChangeStreamSetDeletedV1
  | storeChangeStreamAddedV1 | storeChangeStreamDeletedV1 | storeChangeStreamAppendedV1
  | subscriptionRecord
  | other (t : OtherMessageType)
  deriving DecidableEq

namespace MessageType

/-- `zippylog_enumeration` of each type. -/
def enumeration : MessageType → UInt32
  | pingV1 => 91
  | getFeaturesV1 => 72
  | getStoreInfoV1 => 73
  | getBucketInfoV1 => 74
  | getStreamSetInfoV1 => 75
  | getStreamInfoV1 => 76
  | getStreamSegmentV1 => 92
  | writeEnvelopeV1 => 78
  | writeEnvelopeFromMessagesV1 => 79
  | subscribeStoreChangesV1 => 80
  | subscribeEnvelopesV1 => 81
  | subscribeKeepaliveV1 => 82
  | subscribeCancelV1 => 83
  | registerPluginV1 => 111
  | unregisterPluginV1 => 112
  | getPluginStatusV1 => 116
  | pongV1 => 70
  | featureSpecificationV1 => 71
  | storeInfoV1 => 96
  | bucketInfoV1 => 95
  | streamSetInfoV1 => 94
  | streamInfoV1 => 93
  | streamSegmentStartV1 => 104
  | streamSegmentEndV1 => 105
  | subscriptionAcceptAckV1 => 109
  | subscriptionStartV1 => 107
  | writeAckV1 => 108
  | error => 69
  | storeChangeBucketAddedV1 => 100
  | storeChangeBucketDeletedV1 => 101
  | storeChangeStreamSetAddedV1 => 102
  | storeChangeStreamSetDeletedV1 => 103
  | storeChangeStreamAddedV1 => 97
  | storeChangeStreamDeletedV1 => 98
  | storeChangeStreamAppendedV1 => 99
  | subscriptionRecord => 119
  | other t => t.enumeration

def all : List MessageType :=
  [pingV1, getFeaturesV1, getStoreInfoV1, getBucketInfoV1, getStreamSetInfoV1, getStreamInfoV1,
    getStreamSegmentV1, writeEnvelopeV1, writeEnvelopeFromMessagesV1, subscribeStoreChangesV1,
    subscribeEnvelopesV1, subscribeKeepaliveV1, subscribeCancelV1, registerPluginV1,
    unregisterPluginV1, getPluginStatusV1, pongV1, featureSpecificationV1, storeInfoV1,
    bucketInfoV1, streamSetInfoV1, streamInfoV1, streamSegmentStartV1, streamSegmentEndV1,
    subscriptionAcceptAckV1, subscriptionStartV1, writeAckV1, error, storeChangeBucketAddedV1,
    storeChangeBucketDeletedV1, storeChangeStreamSetAddedV1, storeChangeStreamSetDeletedV1,
    storeChangeStreamAddedV1, storeChangeStreamDeletedV1, storeChangeStreamAppendedV1,
    subscriptionRecord] ++ OtherMessageType.all.map other

/-- The type with a given enumeration. -/
def ofEnumeration? (e : UInt32) : Option MessageType := all.find? fun t => t.enumeration == e

/-- No two types share an enumeration. -/
@[simp] theorem ofEnumeration?_enumeration (t : MessageType) :
    ofEnumeration? t.enumeration = some t := by
  cases t with
  | other t => cases t <;> decide
  | _ => decide

theorem enumeration_injective : Function.Injective enumeration := by
  intro t t' h
  have ht := ofEnumeration?_enumeration t
  rw [h, ofEnumeration?_enumeration] at ht
  exact (Option.some.inj ht).symm

theorem enumeration_of_ofEnumeration? {e : UInt32} {t : MessageType}
    (h : ofEnumeration? e = some t) : t.enumeration = e := by
  have := List.find?_some h
  exact beq_iff_eq.mp this

end MessageType

/-! ## Message contents -/

/-- `protocol.response.ErrorCode`. -/
inductive ErrorCode where
  | envelopeParseFailure | invalidMessageNamespace | unknownRequestType | emptyEnvelope
  | missingEnumerations | requestNotImplemented | emptyField | fieldLengthsDifferent
  | invalidStreamOffset | invalidOffset | pathNotFound | limitExceeded
  | unknownMessageFormatVersion | invalidPath | unsupportedOperationMessageVersion | emptyMessage
  | protocolNoEnvelope | generalErrorProcessing | luaError | subscriptionRejected
  deriving DecidableEq

namespace ErrorCode

def all : List ErrorCode :=
  [envelopeParseFailure, invalidMessageNamespace, unknownRequestType, emptyEnvelope,
    missingEnumerations, requestNotImplemented, emptyField, fieldLengthsDifferent,
    invalidStreamOffset, invalidOffset, pathNotFound, limitExceeded, unknownMessageFormatVersion,
    invalidPath, unsupportedOperationMessageVersion, emptyMessage, protocolNoEnvelope,
    generalErrorProcessing, luaError, subscriptionRejected]

/-- The enumerators are numbered from 1 in declaration order. -/
def value (c : ErrorCode) : UInt64 := UInt64.ofNat (all.idxOf c + 1)

/-- The enumerator read from a varint, of which `ReadVarint32` keeps 32 bits. -/
def ofValue? (n : UInt64) : Option ErrorCode :=
  all.find? fun c => c.value == n.toUInt32.toUInt64

@[simp] theorem ofValue?_value (c : ErrorCode) : ofValue? c.value = some c := by
  cases c <;> decide

end ErrorCode

/-- `device.server.SubscriptionType`. -/
inductive SubscriptionRecordType where
  | envelope | storeChange
  deriving DecidableEq

namespace SubscriptionRecordType

def value : SubscriptionRecordType → UInt64
  | envelope => 1
  | storeChange => 2

/-- The enumerator read from a varint, of which `ReadVarint32` keeps 32 bits. -/
def ofValue? (n : UInt64) : Option SubscriptionRecordType :=
  if n.toUInt32 = 1 then some envelope else if n.toUInt32 = 2 then some storeChange else none

@[simp] theorem ofValue?_value (t : SubscriptionRecordType) : ofValue? t.value = some t := by
  cases t <;> decide

end SubscriptionRecordType

structure GetStreamSegmentV1 where
  path : Bytes
  startOffset : UInt64
  maxResponseBytes : Option UInt32
  maxResponseEnvelopes : Option UInt32
  deriving DecidableEq

/-- `acknowledge` defaults to true and `synchronous` to false when unset. -/
structure WriteEnvelopeV1 where
  path : Bytes
  envelope : List Bytes
  acknowledge : Option Bool
  synchronous : Option Bool
  deriving DecidableEq

structure SubscribeEnvelopesV1 where
  path : List Bytes
  filterNamespace : List UInt32
  filterEnumerationNamespace : List UInt32
  filterEnumerationType : List UInt32
  luaCode : Option Bytes
  deriving DecidableEq

structure FeatureSpecificationV1 where
  supportedMessageFormats : List UInt32
  supportedRequestTypes : List UInt32
  supportedRequestNames : List Bytes
  maxStreamSegmentBytes : Option UInt32
  maxStreamSegmentEnvelopes : Option UInt32
  deriving DecidableEq

structure StreamInfoV1 where
  path : Bytes
  length : Option UInt64
  deriving DecidableEq

structure StreamSetInfoV1 where
  path : Bytes
  stream : List StreamInfoV1
  deriving DecidableEq

structure BucketInfoV1 where
  path : Bytes
  streamSet : List StreamSetInfoV1
  deriving DecidableEq

structure StoreInfoV1 where
  bucket : List BucketInfoV1
  deriving DecidableEq

structure StreamSegmentStartV1 where
  path : Bytes
  offset : UInt64
  deriving DecidableEq

structure StreamSegmentEndV1 where
  offset : UInt64
  bytesSent : UInt32
  envelopesSent : UInt32
  deriving DecidableEq

structure SubscriptionAcceptAckV1 where
  id : Bytes
  ttl : UInt32
  deriving DecidableEq

/-- `StoreChangeStreamAddedV1`, `...DeletedV1` and `...AppendedV1`. -/
structure StoreChangeStreamV1 where
  bucket : Bytes
  streamSet : Bytes
  stream : Bytes
  length : Option UInt64
  deriving DecidableEq

/-- `StoreChangeStreamSetAddedV1` and `...DeletedV1`. -/
structure StoreChangeStreamSetV1 where
  bucket : Bytes
  streamSet : Bytes
  deriving DecidableEq

/-- `device.server.SubscriptionRecord`. -/
structure SubscriptionRecord where
  id : Bytes
  type : SubscriptionRecordType
  path : List Bytes
  luaCode : Option Bytes
  socketIdentifier : List Bytes
  envelopeFilterNamespace : List UInt32
  envelopeFilterEnumerationNamespace : List UInt32
  envelopeFilterEnumerationType : List UInt32
  deriving DecidableEq

/-- A message of one of the types above. -/
inductive Message where
  | pingV1
  | getFeaturesV1
  | getStoreInfoV1
  | getBucketInfoV1 (path : Bytes)
  | getStreamSetInfoV1 (path : Bytes)
  | getStreamInfoV1 (path : Bytes)
  | getStreamSegmentV1 (m : GetStreamSegmentV1)
  | writeEnvelopeV1 (m : WriteEnvelopeV1)
  | writeEnvelopeFromMessagesV1 (path : Bytes) (message : List Bytes)
      (messageNamespace messageType : List UInt32)
  | subscribeStoreChangesV1 (path : List Bytes)
  | subscribeEnvelopesV1 (m : SubscribeEnvelopesV1)
  | subscribeKeepaliveV1 (id : List Bytes)
  | subscribeCancelV1 (id : Bytes)
  | registerPluginV1 (name luaCode : Bytes)
  | unregisterPluginV1 (name : Bytes)
  | getPluginStatusV1 (name : List Bytes)
  | pongV1
  | featureSpecificationV1 (m : FeatureSpecificationV1)
  | storeInfoV1 (m : StoreInfoV1)
  | bucketInfoV1 (m : BucketInfoV1)
  | streamSetInfoV1 (m : StreamSetInfoV1)
  | streamInfoV1 (m : StreamInfoV1)
  | streamSegmentStartV1 (m : StreamSegmentStartV1)
  | streamSegmentEndV1 (m : StreamSegmentEndV1)
  | subscriptionAcceptAckV1 (m : SubscriptionAcceptAckV1)
  | subscriptionStartV1 (id : Bytes)
  | writeAckV1 (envelopesWritten : UInt32)
  | error (code : Option ErrorCode) (msg : Option Bytes)
  | storeChangeBucketAddedV1 (bucket : Bytes)
  | storeChangeBucketDeletedV1 (bucket : Bytes)
  | storeChangeStreamSetAddedV1 (m : StoreChangeStreamSetV1)
  | storeChangeStreamSetDeletedV1 (m : StoreChangeStreamSetV1)
  | storeChangeStreamAddedV1 (m : StoreChangeStreamV1)
  | storeChangeStreamDeletedV1 (m : StoreChangeStreamV1)
  | storeChangeStreamAppendedV1 (m : StoreChangeStreamV1)
  | subscriptionRecord (m : SubscriptionRecord)
  | other (m : OtherMessage)
  deriving DecidableEq

def Message.type : Message → MessageType
  | pingV1 => .pingV1
  | getFeaturesV1 => .getFeaturesV1
  | getStoreInfoV1 => .getStoreInfoV1
  | getBucketInfoV1 _ => .getBucketInfoV1
  | getStreamSetInfoV1 _ => .getStreamSetInfoV1
  | getStreamInfoV1 _ => .getStreamInfoV1
  | getStreamSegmentV1 _ => .getStreamSegmentV1
  | writeEnvelopeV1 _ => .writeEnvelopeV1
  | writeEnvelopeFromMessagesV1 .. => .writeEnvelopeFromMessagesV1
  | subscribeStoreChangesV1 _ => .subscribeStoreChangesV1
  | subscribeEnvelopesV1 _ => .subscribeEnvelopesV1
  | subscribeKeepaliveV1 _ => .subscribeKeepaliveV1
  | subscribeCancelV1 _ => .subscribeCancelV1
  | registerPluginV1 .. => .registerPluginV1
  | unregisterPluginV1 _ => .unregisterPluginV1
  | getPluginStatusV1 _ => .getPluginStatusV1
  | pongV1 => .pongV1
  | featureSpecificationV1 _ => .featureSpecificationV1
  | storeInfoV1 _ => .storeInfoV1
  | bucketInfoV1 _ => .bucketInfoV1
  | streamSetInfoV1 _ => .streamSetInfoV1
  | streamInfoV1 _ => .streamInfoV1
  | streamSegmentStartV1 _ => .streamSegmentStartV1
  | streamSegmentEndV1 _ => .streamSegmentEndV1
  | subscriptionAcceptAckV1 _ => .subscriptionAcceptAckV1
  | subscriptionStartV1 _ => .subscriptionStartV1
  | writeAckV1 _ => .writeAckV1
  | error .. => .error
  | storeChangeBucketAddedV1 _ => .storeChangeBucketAddedV1
  | storeChangeBucketDeletedV1 _ => .storeChangeBucketDeletedV1
  | storeChangeStreamSetAddedV1 _ => .storeChangeStreamSetAddedV1
  | storeChangeStreamSetDeletedV1 _ => .storeChangeStreamSetDeletedV1
  | storeChangeStreamAddedV1 _ => .storeChangeStreamAddedV1
  | storeChangeStreamDeletedV1 _ => .storeChangeStreamDeletedV1
  | storeChangeStreamAppendedV1 _ => .storeChangeStreamAppendedV1
  | subscriptionRecord _ => .subscriptionRecord
  | other m => .other m.type

/-! ## Serialisation -/

namespace StreamInfoV1

def toFields (m : StreamInfoV1) : List Field :=
  bytesField 1 (some m.path) ++ uint64Field 2 m.length

def ofFields (fs : List Field) : Option StreamInfoV1 := do
  return { path := ← optBytes 1 fs, length := optUInt64 2 fs }

def serialize (m : StreamInfoV1) : Bytes := encodeFields m.toFields

def parse (depth : Nat) (bs : Bytes) : Option StreamInfoV1 :=
  (decodeFields depth [] bs).bind ofFields

@[simp] theorem ofFields_toFields (m : StreamInfoV1) : ofFields m.toFields = some m := by
  simp [ofFields, toFields, optBytes, optUInt64, bytesField, uint64Field]

@[simp] theorem parse_serialize (depth : Nat) (m : StreamInfoV1) :
    parse depth m.serialize = some m := by
  have hdepth : AllWithin depth m.toFields := by simp [toFields, bytesField, uint64Field]
  simp [parse, serialize, decodeFields_encodeFields hdepth]

end StreamInfoV1

@[simp] theorem mapM_map_some {α β : Type} {f : α → β} {g : β → Option α}
    (h : ∀ a, g (f a) = some a) (as : List α) : (as.map f).mapM g = some as := by
  induction as with
  | nil => rfl
  | cons a as ih =>
    rw [List.map_cons, List.mapM_cons, h, ih]
    rfl

namespace StreamSetInfoV1

def toFields (m : StreamSetInfoV1) : List Field :=
  bytesField 1 (some m.path) ++ bytesFields 2 (m.stream.map StreamInfoV1.serialize)

def ofFields (depth : Nat) (fs : List Field) : Option StreamSetInfoV1 := do
  return {
    path := ← optBytes 1 fs
    stream := ← (byteStrings 2 fs).mapM (StreamInfoV1.parse (depth + 1)) }

def serialize (m : StreamSetInfoV1) : Bytes := encodeFields m.toFields

def parse (depth : Nat) (bs : Bytes) : Option StreamSetInfoV1 :=
  (decodeFields depth [2] bs).bind (ofFields depth)

@[simp] theorem ofFields_toFields (depth : Nat) (m : StreamSetInfoV1) :
    ofFields depth m.toFields = some m := by
  simp [ofFields, toFields, optBytes, bytesField,
    mapM_map_some (StreamInfoV1.parse_serialize (depth + 1))]

@[simp] theorem parse_serialize (depth : Nat) (m : StreamSetInfoV1) :
    parse depth m.serialize = some m := by
  have hdepth : AllWithin depth m.toFields := by simp [toFields, bytesField]
  simp [parse, serialize, decodeFields_encodeFields hdepth]

end StreamSetInfoV1

namespace BucketInfoV1

def toFields (m : BucketInfoV1) : List Field :=
  bytesField 1 (some m.path) ++ bytesFields 2 (m.streamSet.map StreamSetInfoV1.serialize)

def ofFields (depth : Nat) (fs : List Field) : Option BucketInfoV1 := do
  return {
    path := ← optBytes 1 fs
    streamSet := ← (byteStrings 2 fs).mapM (StreamSetInfoV1.parse (depth + 1)) }

def serialize (m : BucketInfoV1) : Bytes := encodeFields m.toFields

def parse (depth : Nat) (bs : Bytes) : Option BucketInfoV1 :=
  (decodeFields depth [2] bs).bind (ofFields depth)

@[simp] theorem ofFields_toFields (depth : Nat) (m : BucketInfoV1) :
    ofFields depth m.toFields = some m := by
  simp [ofFields, toFields, optBytes, bytesField,
    mapM_map_some (StreamSetInfoV1.parse_serialize (depth + 1))]

@[simp] theorem parse_serialize (depth : Nat) (m : BucketInfoV1) :
    parse depth m.serialize = some m := by
  have hdepth : AllWithin depth m.toFields := by simp [toFields, bytesField]
  simp [parse, serialize, decodeFields_encodeFields hdepth]

end BucketInfoV1

namespace StoreInfoV1

def toFields (m : StoreInfoV1) : List Field :=
  bytesFields 1 (m.bucket.map BucketInfoV1.serialize)

def ofFields (fs : List Field) : Option StoreInfoV1 := do
  return { bucket := ← (byteStrings 1 fs).mapM (BucketInfoV1.parse 1) }

@[simp] theorem ofFields_toFields (m : StoreInfoV1) : ofFields m.toFields = some m := by
  simp [ofFields, toFields, mapM_map_some (BucketInfoV1.parse_serialize 1)]

end StoreInfoV1

namespace StoreChangeStreamV1

def toFields (m : StoreChangeStreamV1) : List Field :=
  bytesField 1 (some m.bucket) ++ bytesField 2 (some m.streamSet) ++
    bytesField 3 (some m.stream) ++ uint64Field 4 m.length

def ofFields (fs : List Field) : Option StoreChangeStreamV1 := do
  return {
    bucket := ← optBytes 1 fs
    streamSet := ← optBytes 2 fs
    stream := ← optBytes 3 fs
    length := optUInt64 4 fs }

@[simp] theorem ofFields_toFields (m : StoreChangeStreamV1) : ofFields m.toFields = some m := by
  simp [ofFields, toFields, optBytes, optUInt64, bytesField, uint64Field]

end StoreChangeStreamV1

namespace StoreChangeStreamSetV1

def toFields (m : StoreChangeStreamSetV1) : List Field :=
  bytesField 1 (some m.bucket) ++ bytesField 2 (some m.streamSet)

def ofFields (fs : List Field) : Option StoreChangeStreamSetV1 := do
  return { bucket := ← optBytes 1 fs, streamSet := ← optBytes 2 fs }

@[simp] theorem ofFields_toFields (m : StoreChangeStreamSetV1) :
    ofFields m.toFields = some m := by
  simp [ofFields, toFields, optBytes, bytesField]

end StoreChangeStreamSetV1

namespace SubscriptionRecord

def toFields (m : SubscriptionRecord) : List Field :=
  bytesField 1 (some m.id) ++ uint64Field 2 (some m.type.value) ++ bytesFields 3 m.path ++
    bytesField 4 m.luaCode ++ bytesFields 5 m.socketIdentifier ++
    uint32Fields 6 m.envelopeFilterNamespace ++
    uint32Fields 7 m.envelopeFilterEnumerationNamespace ++
    uint32Fields 8 m.envelopeFilterEnumerationType

def ofFields (fs : List Field) : Option SubscriptionRecord := do
  return {
    id := ← optBytes 1 fs
    -- an enumerator the library does not know is kept as an unknown field
    type := ← ((varints 2 fs).filterMap SubscriptionRecordType.ofValue?).getLast?
    path := byteStrings 3 fs
    luaCode := optBytes 4 fs
    socketIdentifier := byteStrings 5 fs
    envelopeFilterNamespace := ← uint32s 6 fs
    envelopeFilterEnumerationNamespace := ← uint32s 7 fs
    envelopeFilterEnumerationType := ← uint32s 8 fs }

@[simp] theorem ofFields_toFields (m : SubscriptionRecord) : ofFields m.toFields = some m := by
  simp [ofFields, toFields, optBytes, bytesField, uint64Field, uint32Fields]

end SubscriptionRecord

namespace Message

/-- The fields of a message, in the order `SerializeToString` writes them. -/
def toFields : Message → List Field
  | pingV1 | getFeaturesV1 | getStoreInfoV1 | pongV1 => []
  | getBucketInfoV1 path | getStreamSetInfoV1 path | getStreamInfoV1 path =>
    bytesField 1 (some path)
  | getStreamSegmentV1 m =>
    bytesField 1 (some m.path) ++ uint64Field 2 (some m.startOffset) ++
      uint32Field 3 m.maxResponseBytes ++ uint32Field 4 m.maxResponseEnvelopes
  | writeEnvelopeV1 m =>
    bytesField 1 (some m.path) ++ bytesFields 2 m.envelope ++ boolField 3 m.acknowledge ++
      boolField 4 m.synchronous
  | writeEnvelopeFromMessagesV1 path message messageNamespace messageType =>
    bytesField 1 (some path) ++ bytesFields 2 message ++ packedField 3 messageNamespace ++
      packedField 4 messageType
  | subscribeStoreChangesV1 path => bytesFields 1 path
  | subscribeEnvelopesV1 m =>
    bytesFields 1 m.path ++ packedField 2 m.filterNamespace ++
      packedField 3 m.filterEnumerationNamespace ++ packedField 4 m.filterEnumerationType ++
      bytesField 5 m.luaCode
  | subscribeKeepaliveV1 id => bytesFields 1 id
  | subscribeCancelV1 id => bytesField 1 (some id)
  | registerPluginV1 name luaCode => bytesField 1 (some name) ++ bytesField 2 (some luaCode)
  | unregisterPluginV1 name => bytesField 1 (some name)
  | getPluginStatusV1 name => bytesFields 1 name
  | featureSpecificationV1 m =>
    uint32Fields 1 m.supportedMessageFormats ++ uint32Fields 2 m.supportedRequestTypes ++
      bytesFields 3 m.supportedRequestNames ++ uint32Field 4 m.maxStreamSegmentBytes ++
      uint32Field 5 m.maxStreamSegmentEnvelopes
  | storeInfoV1 m => m.toFields
  | bucketInfoV1 m => m.toFields
  | streamSetInfoV1 m => m.toFields
  | streamInfoV1 m => m.toFields
  | streamSegmentStartV1 m => bytesField 1 (some m.path) ++ uint64Field 2 (some m.offset)
  | streamSegmentEndV1 m =>
    uint64Field 1 (some m.offset) ++ uint32Field 2 (some m.bytesSent) ++
      uint32Field 3 (some m.envelopesSent)
  | subscriptionAcceptAckV1 m => bytesField 1 (some m.id) ++ uint32Field 2 (some m.ttl)
  | subscriptionStartV1 id => bytesField 1 (some id)
  | writeAckV1 envelopesWritten => uint32Field 1 (some envelopesWritten)
  | error code msg => uint64Field 1 (code.map ErrorCode.value) ++ bytesField 2 msg
  | storeChangeBucketAddedV1 bucket => bytesField 1 (some bucket)
  -- the one store change whose bucket is field 2
  | storeChangeBucketDeletedV1 bucket => bytesField 2 (some bucket)
  | storeChangeStreamSetAddedV1 m | storeChangeStreamSetDeletedV1 m => m.toFields
  | storeChangeStreamAddedV1 m | storeChangeStreamDeletedV1 m
  | storeChangeStreamAppendedV1 m => m.toFields
  | subscriptionRecord m => m.toFields
  | other m => m.fields

/-- A message of type `t` from its fields; `none` when a required field is
missing or an embedded value does not parse. -/
def ofFields (t : MessageType) (fs : List Field) : Option Message :=
  match t with
  | .pingV1 => some pingV1
  | .getFeaturesV1 => some getFeaturesV1
  | .getStoreInfoV1 => some getStoreInfoV1
  | .getBucketInfoV1 => (optBytes 1 fs).map getBucketInfoV1
  | .getStreamSetInfoV1 => (optBytes 1 fs).map getStreamSetInfoV1
  | .getStreamInfoV1 => (optBytes 1 fs).map getStreamInfoV1
  | .getStreamSegmentV1 => do
    return getStreamSegmentV1 {
      path := ← optBytes 1 fs
      startOffset := ← optUInt64 2 fs
      maxResponseBytes := optUInt32 3 fs
      maxResponseEnvelopes := optUInt32 4 fs }
  | .writeEnvelopeV1 => do
    return writeEnvelopeV1 {
      path := ← optBytes 1 fs
      envelope := byteStrings 2 fs
      acknowledge := optBool 3 fs
      synchronous := optBool 4 fs }
  | .writeEnvelopeFromMessagesV1 => do
    return writeEnvelopeFromMessagesV1 (← optBytes 1 fs) (byteStrings 2 fs) (← uint32s 3 fs)
      (← uint32s 4 fs)
  | .subscribeStoreChangesV1 => some (subscribeStoreChangesV1 (byteStrings 1 fs))
  | .subscribeEnvelopesV1 => do
    return subscribeEnvelopesV1 {
      path := byteStrings 1 fs
      filterNamespace := ← uint32s 2 fs
      filterEnumerationNamespace := ← uint32s 3 fs
      filterEnumerationType := ← uint32s 4 fs
      luaCode := optBytes 5 fs }
  | .subscribeKeepaliveV1 => some (subscribeKeepaliveV1 (byteStrings 1 fs))
  | .subscribeCancelV1 => (optBytes 1 fs).map subscribeCancelV1
  | .registerPluginV1 => do return registerPluginV1 (← optBytes 1 fs) (← optBytes 2 fs)
  | .unregisterPluginV1 => (optBytes 1 fs).map unregisterPluginV1
  | .getPluginStatusV1 => some (getPluginStatusV1 (byteStrings 1 fs))
  | .pongV1 => some pongV1
  | .featureSpecificationV1 => do
    return featureSpecificationV1 {
      supportedMessageFormats := ← uint32s 1 fs
      supportedRequestTypes := ← uint32s 2 fs
      supportedRequestNames := byteStrings 3 fs
      maxStreamSegmentBytes := optUInt32 4 fs
      maxStreamSegmentEnvelopes := optUInt32 5 fs }
  | .storeInfoV1 => (StoreInfoV1.ofFields fs).map storeInfoV1
  | .bucketInfoV1 => (BucketInfoV1.ofFields 0 fs).map bucketInfoV1
  | .streamSetInfoV1 => (StreamSetInfoV1.ofFields 0 fs).map streamSetInfoV1
  | .streamInfoV1 => (StreamInfoV1.ofFields fs).map streamInfoV1
  | .streamSegmentStartV1 => do
    return streamSegmentStartV1 { path := ← optBytes 1 fs, offset := ← optUInt64 2 fs }
  | .streamSegmentEndV1 => do
    return streamSegmentEndV1 {
      offset := ← optUInt64 1 fs
      bytesSent := ← optUInt32 2 fs
      envelopesSent := ← optUInt32 3 fs }
  | .subscriptionAcceptAckV1 => do
    return subscriptionAcceptAckV1 { id := ← optBytes 1 fs, ttl := ← optUInt32 2 fs }
  | .subscriptionStartV1 => (optBytes 1 fs).map subscriptionStartV1
  | .writeAckV1 => (optUInt32 1 fs).map writeAckV1
  -- an enumerator the library does not know is kept as an unknown field
  | .error => some (error ((varints 1 fs).filterMap ErrorCode.ofValue?).getLast? (optBytes 2 fs))
  | .storeChangeBucketAddedV1 => (optBytes 1 fs).map storeChangeBucketAddedV1
  | .storeChangeBucketDeletedV1 => (optBytes 2 fs).map storeChangeBucketDeletedV1
  | .storeChangeStreamSetAddedV1 =>
    (StoreChangeStreamSetV1.ofFields fs).map storeChangeStreamSetAddedV1
  | .storeChangeStreamSetDeletedV1 =>
    (StoreChangeStreamSetV1.ofFields fs).map storeChangeStreamSetDeletedV1
  | .storeChangeStreamAddedV1 => (StoreChangeStreamV1.ofFields fs).map storeChangeStreamAddedV1
  | .storeChangeStreamDeletedV1 =>
    (StoreChangeStreamV1.ofFields fs).map storeChangeStreamDeletedV1
  | .storeChangeStreamAppendedV1 =>
    (StoreChangeStreamV1.ofFields fs).map storeChangeStreamAppendedV1
  | .subscriptionRecord => (SubscriptionRecord.ofFields fs).map subscriptionRecord
  | .other t => if h : t.accepts fs = true then some (other ⟨t, fs, h⟩) else none

/-- The numbers of the packed fields and the embedded messages of a type. -/
def limited : MessageType → List Nat
  | .writeEnvelopeFromMessagesV1 => [3, 4]
  | .subscribeEnvelopesV1 => [2, 3, 4]
  | .featureSpecificationV1 => [1, 2]
  | .storeInfoV1 => [1]
  | .bucketInfoV1 | .streamSetInfoV1 => [2]
  | .subscriptionRecord => [6, 7, 8]
  | .other t => t.limited
  | _ => []

/-- `SerializeToString`. -/
def serialize (m : Message) : Bytes := encodeFields m.toFields

/-- `ParseFromString` into a new message of type `t`. -/
def parse (t : MessageType) (bs : Bytes) : Option Message :=
  (decodeFields 0 (limited t) bs).bind (ofFields t)

/-- Parsing as `t` gives a message of type `t`. -/
theorem ofFields_type {t : MessageType} {fs : List Field} {m : Message}
    (h : ofFields t fs = some m) : m.type = t := by
  cases t <;>
    simp only [ofFields, Option.map_eq_some_iff, Option.bind_eq_bind, Option.pure_def,
      Option.bind_eq_some_iff, Option.some.injEq] at h <;> grind [Message.type]

theorem parse_type {t : MessageType} {bs : Bytes} {m : Message} (h : parse t bs = some m) :
    m.type = t := by
  obtain ⟨fs, -, hfs⟩ := Option.bind_eq_some_iff.mp h
  exact ofFields_type hfs

theorem filterMap_ofValue?_map_value (o : Option ErrorCode) :
    (o.map ErrorCode.value).toList.filterMap ErrorCode.ofValue? = o.toList := by
  cases o <;> simp

theorem ofFields_toFields (m : Message) : ofFields m.type m.toFields = some m := by
  cases m with
  | other m => exact dif_pos m.accepted
  | _ =>
    simp [ofFields, toFields, Message.type, optBytes, optUInt64, optUInt32, optBool, bytesField,
      uint64Field, uint32Field, boolField, uint32Fields, filterMap_ofValue?_map_value]

@[simp] theorem parse_serialize (m : Message) : parse m.type m.serialize = some m := by
  rw [parse, serialize, decodeFields_zero_encodeFields]
  exact ofFields_toFields m

end Message

/-- `MessageRegistrar::GetMessage`: the registered type of an enumeration. -/
def MessageRegistrar.getMessage (ns enumeration : UInt32) : Option MessageType :=
  if ns = messageNamespace then MessageType.ofEnumeration? enumeration else none

@[simp] theorem MessageRegistrar.getMessage_type (t : MessageType) :
    MessageRegistrar.getMessage messageNamespace t.enumeration = some t := by
  rw [MessageRegistrar.getMessage, if_pos rfl, MessageType.ofEnumeration?_enumeration]

/-- Only the zippylog namespace has registered types. -/
theorem MessageRegistrar.eq_of_getMessage {ns enumeration : UInt32} {t : MessageType}
    (h : MessageRegistrar.getMessage ns enumeration = some t) :
    ns = messageNamespace ∧ enumeration = t.enumeration := by
  unfold MessageRegistrar.getMessage at h
  split at h
  · rename_i hns
    exact ⟨hns, (MessageType.enumeration_of_ofEnumeration? h).symm⟩
  · cases h

/-! ## `message::Envelope` -/

/-- The members of an actor: number and wire type. -/
def ActorInfo.known : Nat → Nat → Bool
  | 1, 0 | 2, 0 | 3, 2 | 4, 2 | 5, 2 | 6, 2 => true
  | _, _ => false

/-- Metadata of an actor that touched an envelope. -/
structure ActorInfo where
  touchTime : Option UInt64 := none
  sequenceId : Option UInt64 := none
  hostname : Option Bytes := none
  hostId : Option Bytes := none
  actorId : Option Bytes := none
  appId : Option Bytes := none
  unknown : List (UnknownField 1 ActorInfo.known) := []
  deriving DecidableEq

namespace ActorInfo

/-- `SerializeWithCachedSizes`: fields in number order, then the unknown ones. -/
def toFields (a : ActorInfo) : List Field :=
  uint64Field 1 a.touchTime ++ uint64Field 2 a.sequenceId ++ bytesField 3 a.hostname ++
    bytesField 4 a.hostId ++ bytesField 5 a.actorId ++ bytesField 6 a.appId ++
    UnknownField.toFields a.unknown

def ofFields (fs : List Field) : ActorInfo where
  touchTime := optUInt64 1 fs
  sequenceId := optUInt64 2 fs
  hostname := optBytes 3 fs
  hostId := optBytes 4 fs
  actorId := optBytes 5 fs
  appId := optBytes 6 fs
  unknown := unknownFields 1 known fs

def serialize (a : ActorInfo) : Bytes := encodeFields a.toFields

/-- An actor is embedded in an envelope. -/
def parse (bs : Bytes) : Option ActorInfo := (decodeFields 1 [] bs).map ofFields

theorem ofFields_toFields (a : ActorInfo) : ofFields a.toFields = a := by
  have h1 : known 1 0 = true := rfl
  have h2 : known 2 0 = true := rfl
  have h3 : known 3 2 = true := rfl
  have h4 : known 4 2 = true := rfl
  have h5 : known 5 2 = true := rfl
  have h6 : known 6 2 = true := rfl
  simp [ofFields, toFields, optUInt64, optBytes, uint64Field, bytesField, h1, h2, h3, h4, h5, h6]

@[simp] theorem parse_serialize (a : ActorInfo) : parse a.serialize = some a := by
  have hdepth : AllWithin 1 a.toFields := by simp [toFields, bytesField, uint64Field]
  rw [parse, serialize, decodeFields_encodeFields hdepth, Option.map_some, ofFields_toFields]

end ActorInfo

namespace Envelope

/-- The members of an envelope: number and wire type. -/
def known : Nat → Nat → Bool
  | 1, 0 | 2, 2 | 3, 0 | 3, 2 | 4, 0 | 4, 2 | 5, 0 | 6, 2 | 7, 2 | 8, 0 | 9, 2 => true
  | _, _ => false

end Envelope

/-- An envelope. -/
structure Envelope where
  version : Option UInt32 := none
  message : List Bytes := []
  messageNamespace : List UInt32 := []
  messageType : List UInt32 := []
  createTime : Option UInt64 := none
  tag : List Bytes := []
  actor : List ActorInfo := []
  numericValue : Option UInt64 := none
  stringValue : Option Bytes := none
  unknown : List (UnknownField 0 Envelope.known) := []
  deriving DecidableEq

namespace Envelope

/-- `SerializeWithCachedSizes`: fields in number order, then the unknown ones. -/
def toFields (e : Envelope) : List Field :=
  uint32Field 1 e.version ++ bytesFields 2 e.message ++ packedField 3 e.messageNamespace ++
    packedField 4 e.messageType ++ uint64Field 5 e.createTime ++ bytesFields 6 e.tag ++
    bytesFields 7 (e.actor.map ActorInfo.serialize) ++ uint64Field 8 e.numericValue ++
    bytesField 9 e.stringValue ++ UnknownField.toFields e.unknown

/-- `MergePartialFromCodedStream` on a cleared envelope. -/
def ofFields (fs : List Field) : Option Envelope := do
  return {
    version := optUInt32 1 fs
    message := byteStrings 2 fs
    messageNamespace := ← uint32s 3 fs
    messageType := ← uint32s 4 fs
    createTime := optUInt64 5 fs
    tag := byteStrings 6 fs
    actor := ← (byteStrings 7 fs).mapM ActorInfo.parse
    numericValue := optUInt64 8 fs
    stringValue := optBytes 9 fs
    unknown := unknownFields 0 known fs }

/-- `Serialize`, `AppendToString`. -/
def serialize (e : Envelope) : Bytes := encodeFields e.toFields

/-- `ParseFromArray`: every byte has to belong to a field. -/
def parse (bs : Bytes) : Option Envelope := (decodeFields 0 [3, 4, 7] bs).bind ofFields

/-- `ParseFromCodedStream` where the input ends before the limit that was pushed for
the envelope. Then the limit of a packed field is not cut, and its reader goes on to
the end of the input. An actor still ends with the input. -/
def parseTorn (bs : Bytes) : Option Envelope := (decodeFields 0 [7] bs).bind ofFields

/-- What is parsed of an envelope of `size` bytes when `bs` can be read of it. -/
def parseSized (size : Nat) (bs : Bytes) : Option Envelope :=
  if bs.length < size then parseTorn bs else parse bs

/-- `SerializedByteSize`. -/
def serializedByteSize (e : Envelope) : Nat := e.serialize.length

end Envelope

end Zippylog
