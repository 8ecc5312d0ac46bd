import Zippylog.Wire.Members

/-!
# The messages nothing here looks into

`register_known_messages` (`messages.cpp`) registers 82 message types. Those whose
members some modelled function reads or writes are in `Messages`; this module has
the other ones: the log messages of the request processor, the server and the
store watcher, the plugin messages and the requests nobody serves. They can still
stand in an envelope, and the code then asks whether they parse: a response with a second message
that does not parse is refused by the client, whatever the type is.

- A message is its type and its fields, in the order they were read.
- `accepts`: the required members are there and the embedded messages parse. Every member of the log
  messages of the request processor is optional; those of the server and the store watcher ask for
  the id of their sender.
-/

namespace Zippylog

open Wire

inductive OtherMessageType where
  | requestProcessorCreate | requestProcessorDestroy | requestProcessorRunStart
  | requestProcessorRunStop | requestProcessorFailReceiveMessage
  | requestProcessorReceiveEmptyMessage | requestProcessorUnknownMessageVersion
  | requestProcessorUnknownRequestType | requestProcessorEnvelopeParseFailure
  | requestProcessorEmptyEnvelope | requestProcessorInvalidMessageEnumeration
  | requestProcessorEnvelopeEmbeddedMessageParseFailure | requestProcessorBeginProcessStoreInfo
  | requestProcessorEndProcessStoreInfo | requestProcessorReceiveInvalidGet
  | requestProcessorGetInvalidStream | requestProcessorGetInvalidOffset
  | requestProcessorBeginProcessGetStream | requestProcessorEndProcessGetStream
  | requestProcessorSendErrorResponse | requestProcessorForwardSubscribeKeepalive
  | requestProcessorBeginProcessBucketInfo | requestProcessorEndProcessBucketInfo
  | requestProcessorBeginProcessStreamSetInfo | requestProcessorEndProcessStreamSetInfo
  | requestProcessorBeginProcessStreamInfo | requestProcessorEndProcessStreamInfo
  | requestProcessorBeginProcessWriteEnvelope | requestProcessorEndProcessWriteEnvelope
  | subscriptionKeepaliveAckV1 | pluginStateV1 | pluginRegisterAckV1 | pluginStatusV1
  | pluginUnregisterAckV1 | serverCreate | serverDestroy | serverRunStart | serverRunFinish
  | serverFlushOutputStreams | serverReceiveClientMessage | serverSendClientMessage
  | storeWatcherCreate | storeWatcherDestroy | storeWatcherRunStart | storeWatcherRunFinish
  | writeEnvelopeFromStringV1
  deriving DecidableEq

namespace OtherMessageType

/-- `zippylog_enumeration` of each type. -/
def enumeration : OtherMessageType → UInt32
  | requestProcessorCreate => 1
  | requestProcessorDestroy => 2
  | requestProcessorRunStart => 3
  | requestProcessorRunStop => 4
  | requestProcessorFailReceiveMessage => 5
  | requestProcessorReceiveEmptyMessage => 6
  | requestProcessorUnknownMessageVersion => 7
  | requestProcessorUnknownRequestType => 8
  | requestProcessorEnvelopeParseFailure => 9
  | requestProcessorEmptyEnvelope => 10
  | requestProcessorInvalidMessageEnumeration => 11
  | requestProcessorEnvelopeEmbeddedMessageParseFailure => 12
  | requestProcessorBeginProcessStoreInfo => 13
  | requestProcessorEndProcessStoreInfo => 14
  | requestProcessorReceiveInvalidGet => 15
  | requestProcessorGetInvalidStream => 16
  | requestProcessorGetInvalidOffset => 17
  | requestProcessorBeginProcessGetStream => 18
  | requestProcessorEndProcessGetStream => 19
  | requestProcessorSendErrorResponse => 20
  | requestProcessorForwardSubscribeKeepalive => 21
  | requestProcessorBeginProcessBucketInfo => 22
  | requestProcessorEndProcessBucketInfo => 23
  | requestProcessorBeginProcessStreamSetInfo => 24
  | requestProcessorEndProcessStreamSetInfo => 25
  | requestProcessorBeginProcessStreamInfo => 26
  | requestProcessorEndProcessStreamInfo => 27
  | requestProcessorBeginProcessWriteEnvelope => 28
  | requestProcessorEndProcessWriteEnvelope => 29
  | subscriptionKeepaliveAckV1 => 110
  | pluginStateV1 => 113
  | pluginRegisterAckV1 => 114
  | pluginStatusV1 => 115
  | pluginUnregisterAckV1 => 117
  | serverCreate => 120
  | serverDestroy => 121
  | serverRunStart => 122
  | serverRunFinish => 123
  | serverFlushOutputStreams => 124
  | serverReceiveClientMessage => 125
  | serverSendClientMessage => 126
  | storeWatcherCreate => 127
  | storeWatcherDestroy => 128
  | storeWatcherRunStart => 129
  | storeWatcherRunFinish => 130
  | writeEnvelopeFromStringV1 => 131

def all : List OtherMessageType :=
  [requestProcessorCreate, requestProcessorDestroy, requestProcessorRunStart,
    requestProcessorRunStop, requestProcessorFailReceiveMessage,
    requestProcessorReceiveEmptyMessage, requestProcessorUnknownMessageVersion,
    requestProcessorUnknownRequestType, requestProcessorEnvelopeParseFailure,
    requestProcessorEmptyEnvelope, requestProcessorInvalidMessageEnumeration,
    requestProcessorEnvelopeEmbeddedMessageParseFailure, requestProcessorBeginProcessStoreInfo,
    requestProcessorEndProcessStoreInfo, requestProcessorReceiveInvalidGet,
    requestProcessorGetInvalidStream, requestProcessorGetInvalidOffset,
    requestProcessorBeginProcessGetStream, requestProcessorEndProcessGetStream,
    requestProcessorSendErrorResponse, requestProcessorForwardSubscribeKeepalive,
    requestProcessorBeginProcessBucketInfo, requestProcessorEndProcessBucketInfo,
    requestProcessorBeginProcessStreamSetInfo, requestProcessorEndProcessStreamSetInfo,
    requestProcessorBeginProcessStreamInfo, requestProcessorEndProcessStreamInfo,
    requestProcessorBeginProcessWriteEnvelope, requestProcessorEndProcessWriteEnvelope,
    subscriptionKeepaliveAckV1, pluginStateV1, pluginRegisterAckV1, pluginStatusV1,
    pluginUnregisterAckV1, serverCreate, serverDestroy, serverRunStart, serverRunFinish,
    serverFlushOutputStreams, serverReceiveClientMessage, serverSendClientMessage,
    storeWatcherCreate, storeWatcherDestroy, storeWatcherRunStart, storeWatcherRunFinish,
    writeEnvelopeFromStringV1]

/-- The enumerators of `PluginRunState`. -/
def isPluginRunState (n : UInt64) : Bool := n.toUInt32 == 1 || n.toUInt32 == 2

/-- The required members of `PluginStateV1`; a `state` that is no enumerator is kept
as an unknown field. -/
def acceptsPluginState (fs : List Field) : Bool :=
  (optBytes 1 fs).isSome && (varints 2 fs).any isPluginRunState && (optUInt32 5 fs).isSome &&
    (optUInt32 6 fs).isSome

/-- The required members are among the fields, and the embedded messages parse. -/
def accepts (t : OtherMessageType) (fs : List Field) : Bool :=
  match t with
  | pluginStateV1 => acceptsPluginState fs
  | pluginStatusV1 =>
    (byteStrings 1 fs).all fun bs => (decodeFields 1 [] bs).any acceptsPluginState
  | subscriptionKeepaliveAckV1 | pluginRegisterAckV1 | pluginUnregisterAckV1 | serverCreate
  | serverDestroy | serverRunStart | serverRunFinish | serverFlushOutputStreams
  | serverReceiveClientMessage | serverSendClientMessage | storeWatcherCreate
  | storeWatcherDestroy | storeWatcherRunStart | storeWatcherRunFinish
  | writeEnvelopeFromStringV1 => (optBytes 1 fs).isSome
  -- every member of the log messages of the request processor is optional
  | _ => true

/-- The numbers of the embedded messages. -/
def limited : OtherMessageType → List Nat
  | pluginStatusV1 => [1]
  | _ => []

end OtherMessageType

/-- A message of one of these types: its fields, in the order they were read. -/
structure OtherMessage where
  type : OtherMessageType
  fields : List Field
  accepted : type.accepts fields = true
  deriving DecidableEq

end Zippylog
