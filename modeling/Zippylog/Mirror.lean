import Zippylog.Client
import Zippylog.RequestProcessor

/-!
# Mirroring

`Client::GetStream` and `Client::Mirror`, against a request processor. Both are loops of
synchronous calls: one over the segments of a stream, the other over what a store is said to have.

- A synchronous call sends its request and pumps until the response is there. `Network` says which
  processor, over which store, answers which request, so that the store can change between any two
  of them.
- `StreamSegment` has no initial values. A `GetStreamSegment` that returns without its callback
  having run leaves the segment undefined.
- The callback of the user is recorded in `fetched`.
- Fuel stands for the rounds of the loop of `GetStream`; a call that runs out of it has not
  returned.
-/

namespace Zippylog

open Wire

namespace RequestProcessor

/-- The messages that arrive for a client whose frames reach the processor behind
its identities: at most one, in order. -/
def deliver (p : RequestProcessor) (identities : List Bytes) (frames : List Frame) :
    List (List Bytes) :=
  match ZeroMQ.receiveMessage (identities.map (⟨·, true⟩) ++ frames) with
  | none => []
  | some (container, _) =>
    match p.pump container with
    | .error _ => []
    | .ok response =>
      -- the identities are taken off on the way back
      match ZeroMQ.receiveMessage (response.drop identities.length) with
      | none => []
      | some (container, _) => [container.messages]

end RequestProcessor

/-- What a client is connected to: the processor that answers the `n`-th request,
with the store of that moment, and the UUID and the clock of that request. -/
structure Network where
  server : Nat → RequestProcessor
  uuid : Nat → Bytes
  clock : Nat → UInt64
  identities : List Bytes
  identities_ne_nil : ∀ identity ∈ identities, identity ≠ []

/-- A client, the number of requests it has sent, and the segments that the
callback of the user was given. -/
structure Session where
  client : Client := {}
  requests : Nat := 0
  fetched : List (Bytes × StreamSegment) := []

namespace Session

/-- `callback(this, path, start_offset, segment, data)`. -/
def callback (s : Session) (path : Bytes) (segment : StreamSegment) : Session :=
  { s with fetched := s.fetched ++ [(path, segment)] }

/-- The envelopes of all segments of a stream, in the order of the callbacks. -/
def envelopes (s : Session) (path : Bytes) : List Envelope :=
  (s.fetched.filter (·.1 = path)).flatMap (·.2.envelopes)

end Session

namespace Client

/-- What a call does to the session. -/
abbrev Synchronous (α : Type) := Outcome α × Session

/-- What follows a call that returned. -/
def Synchronous.andThen {α β : Type} (r : Synchronous α) (k : α → Session → Synchronous β) :
    Synchronous β :=
  match r with
  | (.returns a, s) => k a s
  | (.throws f, s) => (.throws f, s)
  | (.waits, s) => (.waits, s)

/-- The session behind a request that ended so, with the calls of callbacks made
while it waited. -/
def settle (s : Session) : Outcome Unit × Client → Synchronous (List Call)
  | (.returns (), c) =>
    (.returns (c.calls.drop s.client.calls.length),
      { s with client := c, requests := s.requests + 1 })
  | (.throws f, c) => (.throws f, { s with client := c, requests := s.requests + 1 })
  | (.waits, c) => (.waits, { s with client := c, requests := s.requests + 1 })

/-- The callbacks of the synchronous forms, which copy to `data`. -/
def callbackStoreInfo : Pointer := some 1
def callbackStreamInfo : Pointer := some 2
def callbackStreamSegment : Pointer := some 3

def storeInfo? : Call → Option StoreInfoV1
  | .storeInfo _ info _ => some info
  | _ => none

def streamInfo? : Call → Option StreamInfoV1
  | .streamInfo _ info _ => some info
  | _ => none

def streamSegment? : Call → Option StreamSegment
  | .streamSegment _ _ _ segment _ => some segment
  | _ => none

end Client

namespace Network

open Client

/-- `SendAndProcessSynchronousRequest` without a timeout. -/
def sendAndProcess (net : Network) (e : Envelope) (req : OutstandingRequest) (s : Session) :
    Synchronous (List Call) :=
  let id := net.uuid s.requests
  let (frames, c) := s.client.sendRequest id e req
  settle s (awaitResponse id ((net.server s.requests).deliver net.identities frames) c)

/-- A synchronous form: what the asynchronous one sends, with a callback of the
class. -/
def synchronous (net : Network) (request : Except Exn (Envelope × OutstandingRequest))
    (s : Session) : Synchronous (List Call) :=
  match request with
  | .error e => (.throws (.exception e), s)
  | .ok (e, req) => net.sendAndProcess e req s

/-- `GetStoreInfo(info, -1)`. -/
def getStoreInfo (net : Network) (s : Session) : Synchronous StoreInfoV1 :=
  (net.synchronous (Client.getStoreInfo (net.clock s.requests) callbackStoreInfo (some 0)) s).andThen
    fun calls s => (.returns ((calls.findSome? storeInfo?).getD ⟨[]⟩), s)

/-- `GetStreamInfo(path, info, -1)`. -/
def getStreamInfo (net : Network) (path : Bytes) (s : Session) : Synchronous StreamInfoV1 :=
  (net.synchronous
    (Client.getStreamInfo (net.clock s.requests) path true callbackStreamInfo (some 0)) s).andThen
    fun calls s => (.returns ((calls.findSome? streamInfo?).getD ⟨[], none⟩), s)

/-- `GetStreamSegment(path, start_offset, segment, -1)`. -/
def getStreamSegment (net : Network) (path : Bytes) (startOffset : UInt64) (s : Session) :
    Synchronous StreamSegment :=
  (net.synchronous (Client.getStreamSegment (net.clock s.requests) path startOffset none
    callbackStreamSegment (some 0)) s).andThen fun calls s =>
    match calls.findSome? streamSegment? with
    | some segment => (.returns segment, s)
    | none => (.throws .undefinedBehavior, s)

/-- The loop of `GetStream`: what it leaves in `start_offset`. -/
def fetchStream (net : Network) (path : Bytes) (endOffset : UInt64) :
    Nat → UInt64 → Session → Synchronous UInt64
  | 0, _, s => (.waits, s)
  | fuel + 1, startOffset, s =>
    (net.getStreamSegment path startOffset s).andThen fun segment s =>
      if segment.bytesSent = 0 then (.returns startOffset, s)
      else
        let s := s.callback path segment
        if endOffset ≤ segment.endOffset then (.returns segment.endOffset, s)
        else fetchStream net path endOffset fuel segment.endOffset s

/-- `GetStream`, given and returning `state.end_offset`. -/
def getStream (net : Network) (fuel : Nat) (path : Bytes) (state endOffset : UInt64)
    (s : Session) : Synchronous UInt64 :=
  let length : Synchronous UInt64 :=
    if endOffset = 0 then
      (net.getStreamInfo path s).andThen fun si s => (.returns (si.length.getD 0), s)
    else (.returns endOffset, s)
  length.andThen fun endOffset s =>
    if endOffset ≤ state then (.returns state, s)
    else net.fetchStream path endOffset fuel state s

end Network

/-- `StoreMirrorState`: the end offset of each stream. -/
abbrev StoreMirrorState := AList fun _ : Bytes => UInt64

namespace Client

/-- The streams of the three loops of `Mirror`, with their paths and lengths. -/
def listed (info : StoreInfoV1) : List (Bytes × UInt64) :=
  info.bucket.flatMap fun bi => bi.streamSet.flatMap fun ssi => ssi.stream.map fun si =>
    (Store.streamPath bi.path ssi.path si.path, si.length.getD 0)

end Client

namespace Network

open Client

/-- The body of the loops of `Mirror`, for all the streams. -/
def mirrorStreams (net : Network) (fuel : Nat) :
    List (Bytes × UInt64) → StoreMirrorState → Session → Synchronous StoreMirrorState
  | [], state, s => (.returns state, s)
  | (path, length) :: streams, state, s =>
    let state := if path ∈ state then state else state.insert path 0
    (net.getStream fuel path ((state.lookup path).getD 0) length s).andThen fun endOffset s =>
      mirrorStreams net fuel streams (state.insert path endOffset) s

/-- `Mirror`. -/
def mirror (net : Network) (fuel : Nat) (state : StoreMirrorState) (s : Session) :
    Synchronous StoreMirrorState :=
  (net.getStoreInfo s).andThen fun info s => net.mirrorStreams fuel (listed info) state s

/-- A number of `Mirror` calls that share one state, from a new client on. -/
def mirrors (net : Network) (fuel : Nat) : Nat → Synchronous StoreMirrorState
  | 0 => (.returns ∅, {})
  | calls + 1 => (net.mirrors fuel calls).andThen (net.mirror fuel)

end Network

end Zippylog
