import Zippylog.Client
import Zippylog.Replies

/-!
# Responses at the client

A client keeps each request it has sent in a map, with the callback that the method stored for it,
and takes a response to the request whose identifier its first envelope carries. This module
follows the response of a `RequestProcessor` through the frames that `Pump` sends and through
`ProcessResponseMessage`, for every request that the methods of a client send.

Two things are lost on the way, whatever the request. Most kinds of messages are not among those
that `ProcessResponseMessage` passes on, so their requests stay outstanding for ever; and of a
stream segment the loop over the payload stops one envelope early.

- `segment_codec`: the payload of a stream segment always loses its last envelope.
- `HasSlot`: the callback that each method stores with its request.
- `Invokes`: the call of a callback that is for a response, with what was sent in it.
- `agrees_iff`: which responses end the request and reach that callback.
-/

namespace Zippylog

open Wire

namespace Client

/-- The frames of a response behind the delimiter. -/
def frames (es : List Envelope) : List Bytes := es.map Envelope.toProtocolZmqMessage

@[simp] theorem frames_nil : frames [] = [] := rfl

@[simp] theorem frames_cons (e : Envelope) (es : List Envelope) :
    frames (e :: es) = e.toProtocolZmqMessage :: frames es := rfl

@[simp] theorem frames_append (es es' : List Envelope) :
    frames (es ++ es') = frames es ++ frames es' :=
  List.map_append

@[simp] theorem length_frames (es : List Envelope) : (frames es).length = es.length :=
  List.length_map _

theorem serialize_ne_nil_of_getMessage {e : Envelope} {m : Message}
    (h : e.getMessage 0 = some m) : e.serialize ≠ [] := by
  obtain ⟨b, bs, -, -, hb, -, -, -⟩ := Envelope.getMessage_zero_eq_some h
  refine Envelope.serialize_ne_nil ?_
  rw [hb]
  exact List.cons_ne_nil _ _

/-! ## Segments -/

theorem toNat_payloadEnd {n : Nat} (h2 : 2 ≤ n) (hn : n < 2 ^ 64) :
    (payloadEnd n).toNat = n - 2 := by
  have hsize : (UInt64.ofNat n).toNat = n := UInt64.toNat_ofNat_of_lt' hn
  have hle : (2 : UInt64) ≤ UInt64.ofNat n := by
    rw [UInt64.le_iff_toNat_le, hsize]
    exact h2
  rw [payloadEnd, UInt64.toNat_sub_of_le _ _ hle, hsize]
  rfl

/-- The index arithmetic wraps for one message only. -/
theorem payloadEnd_add_two_iff {n : Nat} (h1 : 1 ≤ n) (hn : n < 2 ^ 64) :
    (payloadEnd n).toNat + 2 = n ↔ n ≠ 1 := by
  constructor
  · rintro h rfl
    exact absurd h (by decide)
  · intro hne
    rw [toNat_payloadEnd (by omega) hn]
    omega

/-- The payload loop reads the next `n` envelopes, unless one of them serialises to
nothing. -/
theorem payload_eq (rest : List Bytes) :
    ∀ {n : Nat} {es : List Envelope}, n ≤ es.length →
      payload n (frames es ++ rest) =
        if ∀ e ∈ es.take n, e.serialize ≠ [] then .ok (es.take n)
        else .error (.exception (.invalidArgument "specified offset is larger than message")) := by
  intro n
  induction n with
  | zero =>
    intro es _
    rw [List.take_zero, if_pos nofun]
    rfl
  | succ n ih =>
    rintro (_ | ⟨e, es⟩) hn
    · cases hn
    rw [frames_cons, List.cons_append, payload]
    by_cases he : e.serialize = []
    · rw [Envelope.ofZmqMessage_of_serialize_eq_nil he, if_neg]
      exact fun h => h e List.mem_cons_self he
    · rw [Envelope.ofZmqMessage_toProtocolZmqMessage he]
      simp only
      rw [ih (Nat.le_of_succ_le_succ hn), List.take_succ_cons]
      by_cases hes : ∀ e ∈ es.take n, e.serialize ≠ []
      · have hall : ∀ e' ∈ e :: es.take n, e'.serialize ≠ [] := List.forall_mem_cons.mpr ⟨he, hes⟩
        rw [if_pos hes, if_pos hall]
        rfl
      · rw [if_neg hes, if_neg fun h => hes (List.forall_mem_cons.mp h).2]
        rfl

/-- The segment between a start and an end, with these envelopes. -/
def decoded (start : StreamSegmentStartV1) (stop : StreamSegmentEndV1) (envelopes : List Envelope) :
    StreamSegment where
  path := start.path
  startOffset := start.offset
  endOffset := stop.offset
  bytesSent := stop.bytesSent
  envelopesSent := stop.envelopesSent
  envelopes := envelopes

/-- The decoder stops before the last envelope of the payload. -/
theorem parseSegment_eq (start : StreamSegmentStartV1) (e : Envelope) (payload : List Envelope)
    {last : Envelope} {stop : StreamSegmentEndV1}
    (hlast : last.getMessage 0 = some (.streamSegmentEndV1 stop))
    (hsize : payload.length + 2 < 2 ^ 64) :
    parseSegment start (frames (e :: payload ++ [last])) =
      if ∀ e ∈ payload.dropLast, e.serialize ≠ [] then .ok (decoded start stop payload.dropLast)
      else .error (.exception (.invalidArgument "specified offset is larger than message")) := by
  have hfooter := Envelope.ofZmqMessage_toProtocolZmqMessage (serialize_ne_nil_of_getMessage hlast)
  have hrounds : (payloadEnd (frames (e :: payload ++ [last])).length).toNat - 1 =
      payload.length - 1 := by
    rw [length_frames, List.length_append, List.length_cons, List.length_singleton,
      toNat_payloadEnd (by omega) hsize]
    rfl
  have hlastFrame : (frames (e :: payload ++ [last])).getLast? =
      some last.toProtocolZmqMessage := by
    rw [frames_append]
    exact List.getLast?_concat
  rw [parseSegment, hlastFrame]
  simp only [hfooter, hlast]
  rw [hrounds, show (frames (e :: payload ++ [last])).tail = frames payload ++ frames [last] from
      frames_append payload [last],
    payload_eq _ (Nat.sub_le _ _), ← List.dropLast_eq_take]
  split_ifs
  · rfl
  · rfl

/-- The entry of `outstanding` for the first tag is removed, whatever follows. -/
theorem handleRequestResponse_eq {c : Client} {e : Envelope} {id : Bytes} {req : OutstandingRequest}
    (htag : e.tag.head? = some id) (hreq : c.outstanding.lookup id = some req) (type : MessageType)
    (messages : List Bytes) :
    c.handleRequestResponse e type messages =
      handleMessage { c with outstanding := c.outstanding.erase id } req e type messages := by
  obtain ⟨tags, htags⟩ := List.head?_eq_some_iff.mp htag
  rw [handleRequestResponse, htags]
  simp only [hreq]

theorem handleMessage_pong {c : Client} {req : OutstandingRequest} {callback : Nat}
    (hcallback : req.cbPing = some callback) (e : Envelope) (messages : List Bytes) :
    handleMessage c req e .pongV1 messages = (.ok true, c.call (.ping callback req.data)) := by
  unfold handleMessage
  simp only [hcallback]
  rfl

theorem handleMessage_storeInfo {c : Client} {req : OutstandingRequest} {callback : Nat}
    (hcallback : req.cbStoreInfo = some callback) {e : Envelope} {info : StoreInfoV1}
    (hinfo : e.getMessage 0 = some (.storeInfoV1 info)) (messages : List Bytes) :
    handleMessage c req e .storeInfoV1 messages =
      (.ok true, c.call (.storeInfo callback info req.data)) := by
  unfold handleMessage
  rw [hinfo]
  simp only [hcallback]
  rfl

/-- A segment goes to the callback for segments, when it parses. -/
theorem handleMessage_segment {c : Client} {req : OutstandingRequest} {callback : Nat}
    (hcallback : req.cbStreamSegment = some callback) {e : Envelope} {start : StreamSegmentStartV1}
    (hstart : e.getMessage 0 = some (.streamSegmentStartV1 start)) (messages : List Bytes) :
    handleMessage c req e .streamSegmentStartV1 messages =
      match parseSegment start messages with
      | .error f => (.error f, c)
      | .ok segment =>
        (.ok true, c.call (.streamSegment callback start.path start.offset segment req.data)) := by
  unfold handleMessage
  rw [hstart]
  simp only [hcallback]
  rfl

/-- The subscription is stored before its callback is looked for. -/
theorem handleMessage_ack {c : Client} {req : OutstandingRequest} {e : Envelope}
    {ack : SubscriptionAcceptAckV1}
    (hack : e.getMessage 0 = some (.subscriptionAcceptAckV1 ack)) (messages : List Bytes) :
    handleMessage c req e .subscriptionAcceptAckV1 messages =
      if ack.ttl * 1000 < c.subscriptionRenewalOffset then
        (.error (.exception (.generic "subscription TTL less than configured time offset")), c)
      else ({ c with subscriptions := c.subscriptions.insert ack.id {
          id := ack.id
          expirationTimer := ack.ttl * 1000 - c.subscriptionRenewalOffset
          cb := req.callbacks
          data := req.data } } : Client).callAsserted req.cbSubscription fun cb =>
            .subscription cb ack req.data := by
  unfold handleMessage
  rw [hack]

/-- Of the messages of a response the client makes a segment with the given
payload, and calls back with it. -/
def Decodes (c : Client) (e : Envelope) (messages : List Bytes) (start : StreamSegmentStartV1)
    (stop : StreamSegmentEndV1) (payload : List Envelope) : Prop :=
  ∃ c' callback data,
    c.handleRequestResponse e .streamSegmentStartV1 messages = (.ok true, c') ∧
    c'.calls = c.calls ++ [.streamSegment callback start.path start.offset
      (decoded start stop payload) data]

/-- **Stream segments**: no payload is decoded as it was sent. The last envelope is missing, for
every number of envelopes there can be, while the fields of the segment are those of its start and
end. The index arithmetic wraps exactly when there is one message, which has no payload behind it.
-/
theorem segment_codec {c : Client} {e last : Envelope} {id : Bytes} {req : OutstandingRequest}
    {callback : Nat} {start : StreamSegmentStartV1} {stop : StreamSegmentEndV1}
    {payload : List Envelope} (htag : e.tag.head? = some id)
    (hreq : c.outstanding.lookup id = some req) (hcallback : req.cbStreamSegment = some callback)
    (hstart : e.getMessage 0 = some (.streamSegmentStartV1 start))
    (hstop : last.getMessage 0 = some (.streamSegmentEndV1 stop)) (hpayload : payload ≠ [])
    (hsize : payload.length + 2 < 2 ^ 64) :
    ¬ c.Decodes e (frames (e :: payload ++ [last])) start stop payload ∧
    ((∀ e ∈ payload.dropLast, e.serialize ≠ []) →
      c.Decodes e (frames (e :: payload ++ [last])) start stop payload.dropLast) ∧
    ∀ n, 1 ≤ n → n < 2 ^ 64 → ((payloadEnd n).toNat + 2 = n ↔ n ≠ 1) := by
  have hhandle := handleRequestResponse_eq htag hreq .streamSegmentStartV1
    (frames (e :: payload ++ [last]))
  rw [handleMessage_segment hcallback hstart, parseSegment_eq start e payload hstop hsize]
    at hhandle
  refine ⟨?_, ?_, fun n => payloadEnd_add_two_iff⟩
  · rintro ⟨c', callback', data, hok, hcalls⟩
    rw [hhandle] at hok
    split_ifs at hok
    · cases hok
      have hcall := List.append_cancel_left hcalls
      simp only [List.cons.injEq, Call.streamSegment.injEq, decoded, StreamSegment.mk.injEq] at hcall
      have hlength := congrArg List.length hcall.1.2.2.2.1.2.2.2.2.2
      have hpos := List.length_pos_iff.mpr hpayload
      rw [List.length_dropLast] at hlength
      omega
    · cases hok
  · intro hes
    rw [if_pos hes] at hhandle
    exact ⟨_, callback, req.data, hhandle, rfl⟩

/-- A client that waits for a segment. -/
def fetching : Client where
  outstanding := (∅ : AList fun _ : Bytes => OutstandingRequest).insert [9]
    { id := [9], cbStreamSegment := some 1 }

/-- The first and the last envelope of a segment for it. -/
def fetchedStart : Envelope :=
  (Envelope.ofMessage 0 (.streamSegmentStartV1 ⟨str "/bucket/set/stream", 0⟩)).addTag [9]

def fetchedEnd : Envelope := Envelope.ofMessage 0 (.streamSegmentEndV1 ⟨4, 3, 1⟩)

/-- Of a segment with one envelope nothing is left. -/
theorem segment_codec_single :
    ¬ fetching.Decodes fetchedStart (frames (fetchedStart :: [Envelope.new 5] ++ [fetchedEnd]))
      ⟨str "/bucket/set/stream", 0⟩ ⟨4, 3, 1⟩ [Envelope.new 5] ∧
    fetching.Decodes fetchedStart (frames (fetchedStart :: [Envelope.new 5] ++ [fetchedEnd]))
      ⟨str "/bucket/set/stream", 0⟩ ⟨4, 3, 1⟩ [] := by
  obtain ⟨h1, h2, -⟩ := segment_codec (show fetchedStart.tag.head? = some [9] from rfl)
    (show fetching.outstanding.lookup [9] =
      some { id := [9], cbStreamSegment := some 1 } by decide) rfl
    (show fetchedStart.getMessage 0 =
      some (.streamSegmentStartV1 ⟨str "/bucket/set/stream", 0⟩) by decide +kernel)
    (show fetchedEnd.getMessage 0 = some (.streamSegmentEndV1 ⟨4, 3, 1⟩) by decide +kernel)
    (List.cons_ne_nil (Envelope.new 5) []) (by decide)
  exact ⟨h1, h2 (by decide)⟩

/-- The number of envelopes passed to a callback. -/
def envelopesOf : Call → Nat
  | .streamSegment _ _ _ segment _ => segment.envelopes.length
  | _ => 0

/-- The segment the client makes of it has no envelope. -/
theorem not_decodes_single :
    ¬ fetching.Decodes fetchedStart (frames (fetchedStart :: [Envelope.new 5] ++ [fetchedEnd]))
      ⟨str "/bucket/set/stream", 0⟩ ⟨4, 3, 1⟩ [Envelope.new 5] := by
  rintro ⟨c', callback, data, hok, hcalls⟩
  obtain rfl := congrArg Prod.snd hok
  have hlengths := congrArg (List.map envelopesOf) hcalls
  rw [show List.map envelopesOf (fetching.handleRequestResponse fetchedStart .streamSegmentStartV1
      (frames (fetchedStart :: [Envelope.new 5] ++ [fetchedEnd]))).2.calls = [0] by
    decide +kernel] at hlengths
  cases hlengths

/-! ## Dispatch -/

/-- The types that `ProcessResponseMessage` takes for the answer to a request. -/
def routed : List MessageType :=
  [.pongV1, .storeInfoV1, .streamSegmentStartV1, .subscriptionAcceptAckV1]

/-- **Spec of `ProcessResponseMessage`** where the first frame has a message. -/
theorem processResponseMessage_eq (c : Client) {e : Envelope} {m : Message}
    (h : e.getMessage 0 = some m) (rest : List Bytes) :
    c.processResponseMessage (e.toProtocolZmqMessage :: rest) =
      match m.type with
      | .subscriptionStartV1 =>
        match e.getMessage 0 with
        | some (.subscriptionStartV1 id) =>
          match c.subscriptions.lookup id with
          | none => (.ok false, c)
          | some sub => c.handleSubscriptionResponse e id sub rest
        | _ => (.error .undefinedBehavior, c)
      | .pongV1 => c.handleRequestResponse e .pongV1 (e.toProtocolZmqMessage :: rest)
      | .storeInfoV1 => c.handleRequestResponse e .storeInfoV1 (e.toProtocolZmqMessage :: rest)
      | .streamSegmentStartV1 =>
        c.handleRequestResponse e .streamSegmentStartV1 (e.toProtocolZmqMessage :: rest)
      | .subscriptionAcceptAckV1 =>
        c.handleRequestResponse e .subscriptionAcceptAckV1 (e.toProtocolZmqMessage :: rest)
      | _ => (.ok false, c) := by
  obtain ⟨b, bs, nss, types, hb, hns, htypes, -⟩ := Envelope.getMessage_zero_eq_some h
  have hcount : ¬ e.messageCount < 1 := by
    rw [Envelope.messageCount, hb, List.length_cons]
    omega
  rw [processResponseMessage,
    Envelope.ofZmqMessage_toProtocolZmqMessage (serialize_ne_nil_of_getMessage h)]
  simp only [if_neg hcount, hns, htypes, MessageType.ofEnumeration?_enumeration]
  rw [if_neg (by decide)]
  cases m.type <;> rfl

/-- The types that are routed come to the handler of responses. -/
theorem processResponseMessage_routed (c : Client) {e : Envelope} {m : Message}
    (h : e.getMessage 0 = some m) (hrouted : m.type ∈ routed) (rest : List Bytes) :
    c.processResponseMessage (e.toProtocolZmqMessage :: rest) =
      c.handleRequestResponse e m.type (e.toProtocolZmqMessage :: rest) := by
  rw [processResponseMessage_eq c h]
  cases htype : m.type with
  | pongV1 => rfl
  | storeInfoV1 => rfl
  | streamSegmentStartV1 => rfl
  | subscriptionAcceptAckV1 => rfl
  | _ =>
    rw [htype] at hrouted
    exact absurd hrouted (by simp [routed])

/-- A response to a subscription goes to the handler of those. -/
theorem processResponseMessage_subscriptionStart {c : Client} {e : Envelope} {id : Bytes}
    (h : e.getMessage 0 = some (.subscriptionStartV1 id)) {sub : Subscription}
    (hsub : c.subscriptions.lookup id = some sub) (rest : List Bytes) :
    c.processResponseMessage (e.toProtocolZmqMessage :: rest) =
      c.handleSubscriptionResponse e id sub rest := by
  rw [processResponseMessage_eq c h]
  simp only [Message.type, h, hsub]

/-- Anything else is ignored, unless it belongs to a subscription. -/
theorem processResponseMessage_ignored (c : Client) {e : Envelope} {m : Message}
    (h : e.getMessage 0 = some m) (hrouted : m.type ∉ routed) (hstart : m.type ≠ .subscriptionStartV1)
    (rest : List Bytes) :
    c.processResponseMessage (e.toProtocolZmqMessage :: rest) = (.ok false, c) := by
  rw [processResponseMessage_eq c h]
  cases htype : m.type with
  | subscriptionStartV1 => exact absurd htype hstart
  | pongV1 | storeInfoV1 | streamSegmentStartV1 | subscriptionAcceptAckV1 =>
    rw [htype] at hrouted
    exact absurd (by decide) hrouted
  | _ => rfl

/-! ## Agreement -/

/-- The callback that a method stores for the answer to its request. -/
def HasSlot (req : OutstandingRequest) : Message → Prop
  | .pingV1 => req.cbPing ≠ none
  | .getFeaturesV1 => req.cbFeatures ≠ none
  | .getStoreInfoV1 => req.cbStoreInfo ≠ none
  | .getBucketInfoV1 _ => req.cbBucketInfo ≠ none
  | .getStreamSetInfoV1 _ => req.cbStreamSetInfo ≠ none
  | .getStreamInfoV1 _ => req.cbStreamInfo ≠ none
  | .getStreamSegmentV1 _ => req.cbStreamSegment ≠ none
  | .subscribeStoreChangesV1 _ => req.cbSubscription ≠ none
  -- `SubscribeEnvelopes` has none to store
  | .subscribeEnvelopesV1 _ => req.cbSubscription = none
  | _ => False

/-- What the public methods send. -/
theorem Method.request_eq {now : UInt64} {method : Method} {e : Envelope}
    {req : OutstandingRequest} (h : method.request now = .ok (e, req)) :
    ∃ m, e = Envelope.ofMessage now m ∧ RequestProcessor.HasReply m ∧ HasSlot req m := by
  have hcallback : ∀ {callback : Pointer} {what : String}
      {request : Except Exn (Envelope × OutstandingRequest)},
      withCallback callback what request = .ok (e, req) →
        callback ≠ none ∧ request = .ok (e, req) := by
    intro callback what request hok
    rw [withCallback] at hok
    split_ifs at hok with hnone
    exact ⟨hnone, hok⟩
  cases method with
  | ping callback data =>
    obtain ⟨hnone, hok⟩ := hcallback h
    cases hok
    exact ⟨_, rfl, trivial, hnone⟩
  | getFeatures callback data =>
    obtain ⟨hnone, hok⟩ := hcallback h
    cases hok
    exact ⟨_, rfl, trivial, hnone⟩
  | getStoreInfo callback data =>
    obtain ⟨hnone, hok⟩ := hcallback h
    cases hok
    exact ⟨_, rfl, trivial, hnone⟩
  | getBucketInfo path callback data =>
    obtain ⟨hnone, hok⟩ := hcallback h
    split_ifs at hok
    cases hok
    exact ⟨_, rfl, trivial, hnone⟩
  | getStreamSetInfo path callback data =>
    obtain ⟨hnone, hok⟩ := hcallback h
    split_ifs at hok
    cases hok
    exact ⟨_, rfl, trivial, hnone⟩
  | getStreamInfo path synchronous callback data =>
    obtain ⟨hnone, hok⟩ := hcallback h
    split_ifs at hok
    cases hok
    exact ⟨_, rfl, trivial, hnone⟩
  | getStreamSegment path startOffset maxResponseBytes callback data =>
    obtain ⟨hnone, hok⟩ := hcallback h
    cases hok
    exact ⟨_, rfl, trivial, hnone⟩
  | subscribeStoreChanges paths callbacks callback result =>
    obtain ⟨hnone, hok⟩ := hcallback h
    split_ifs at hok
    cases hok
    exact ⟨_, rfl, trivial, hnone⟩
  -- no callback is looked for here
  | subscribeEnvelopes path lua cb data =>
    cases h
    exact ⟨_, rfl, trivial, rfl⟩

/-- The message of the first envelope of a response. -/
def answer (response : List Envelope) : Option Message :=
  response.head?.bind fun e => e.getMessage 0

/-- The call of the callback stored for a request, with the response: the message of
its first envelope or, where that starts a stream segment, the segment that reaches
from it to the last envelope, with all envelopes between the two. -/
inductive Invokes (req : OutstandingRequest) : List Envelope → Call → Prop where
  | pong {cb : Nat} (h : req.cbPing = some cb) {response : List Envelope}
      (hm : answer response = some .pongV1) : Invokes req response (.ping cb req.data)
  | storeInfo {cb : Nat} (h : req.cbStoreInfo = some cb) {response : List Envelope}
      {info : StoreInfoV1} (hm : answer response = some (.storeInfoV1 info)) :
      Invokes req response (.storeInfo cb info req.data)
  | bucketInfo {cb : Nat} (h : req.cbBucketInfo = some cb) {response : List Envelope}
      {info : BucketInfoV1} (hm : answer response = some (.bucketInfoV1 info)) :
      Invokes req response (.bucketInfo cb info req.data)
  | streamSetInfo {cb : Nat} (h : req.cbStreamSetInfo = some cb) {response : List Envelope}
      {info : StreamSetInfoV1} (hm : answer response = some (.streamSetInfoV1 info)) :
      Invokes req response (.streamSetInfo cb info req.data)
  | streamInfo {cb : Nat} (h : req.cbStreamInfo = some cb) {response : List Envelope}
      {info : StreamInfoV1} (hm : answer response = some (.streamInfoV1 info)) :
      Invokes req response (.streamInfo cb info req.data)
  | streamSegment {cb : Nat} (h : req.cbStreamSegment = some cb) {start last : Envelope}
      {s : StreamSegmentStartV1} {stop : StreamSegmentEndV1}
      (hstart : start.getMessage 0 = some (.streamSegmentStartV1 s)) (payload : List Envelope)
      (hstop : last.getMessage 0 = some (.streamSegmentEndV1 stop)) :
      Invokes req (start :: payload ++ [last])
        (.streamSegment cb s.path s.offset (decoded s stop payload) req.data)
  | subscription {cb : Nat} (h : req.cbSubscription = some cb) {response : List Envelope}
      {ack : SubscriptionAcceptAckV1} (hm : answer response = some (.subscriptionAcceptAckV1 ack)) :
      Invokes req response (.subscription cb ack req.data)

/-- The client and the server agree on a response: it ends the request whose id is
its first tag, a success is passed to the callback of the request exactly once,
and a synchronous call that waits for it returns. -/
structure Agrees (c : Client) (id : Bytes) (req : OutstandingRequest) (response : List Envelope) :
    Prop where
  tagged : (response.head?.bind fun e => e.tag.head?) = some id
  removed : (c.processResponseMessage (frames (RequestProcessor.sent response))).2.outstanding.lookup
    id = none
  called (m : Message) (hm : answer response = some m) (hsuccess : m.type ≠ .error) :
    ∃ call, Invokes req response call ∧
      (c.processResponseMessage (frames (RequestProcessor.sent response))).2.calls =
        c.calls ++ [call]
  returns : (awaitResponse id [frames (RequestProcessor.sent response)] c).1 = .returns ()

/-- The responses that the client understands: some successes, and of those the
ones without an obstacle. A segment is among them only when each envelope of its payload
is a copy of the segment's own start, so that the doubled start is taken for it. -/
def Understood (c : Client) (request : Message) (response : List Envelope) : Prop :=
  match answer response with
  | some .pongV1 | some (.storeInfoV1 _) => True
  -- the first frame comes twice, and the envelope in front of the end is not read
  | some (.streamSegmentStartV1 _) => ∀ e ∈ response.dropLast, response.head? = some e
  | some (.subscriptionAcceptAckV1 ack) =>
    request.type = .subscribeStoreChangesV1 ∧ c.subscriptionRenewalOffset ≤ ack.ttl * 1000
  | _ => False

/-- A call is over once its request is removed. -/
theorem awaitResponse_done {c c' : Client} {id : Bytes} {messages : List Bytes} {b : Bool}
    (hok : c.processResponseMessage messages = (.ok b, c'))
    (hremoved : c'.outstanding.lookup id = none) :
    awaitResponse id [messages] c = (.returns (), c') := by
  rw [awaitResponse, hok]
  simp only [haveOutstandingRequest, hremoved, Option.isSome_none]
  rfl

/-- A request whose response is ignored is waited for. -/
theorem awaitResponse_ignored (type : MessageType) {c : Client} {id : Bytes}
    {req : OutstandingRequest} {e : Envelope} {m : Message}
    (hreq : c.outstanding.lookup id = some req) (hm : e.getMessage 0 = some m) (htype : m.type = type)
    (hrouted : type ∉ routed) (hstart : type ≠ .subscriptionStartV1) :
    awaitResponse id [frames (RequestProcessor.sent [e])] c = (.waits, c) := by
  subst htype
  have hwaits : c.haveOutstandingRequest id = true := by
    rw [haveOutstandingRequest, hreq]
    rfl
  rw [awaitResponse, show frames (RequestProcessor.sent [e]) = e.toProtocolZmqMessage :: frames []
    from rfl, processResponseMessage_ignored c hm hrouted hstart]
  simp only [hwaits, if_true]
  rw [awaitResponse, if_pos hwaits]

/-- What is enough for a response to be agreed on: it is handled, its request is not outstanding
behind it, and the one call is that of the callback. -/
theorem Agrees.of_ok {c c' : Client} {id : Bytes} {req : OutstandingRequest}
    {response : List Envelope} {b : Bool} {call : Call}
    (htag : (response.head?.bind fun e => e.tag.head?) = some id)
    (hok : c.processResponseMessage (frames (RequestProcessor.sent response)) = (.ok b, c'))
    (hremoved : c'.outstanding.lookup id = none) (hinvokes : Invokes req response call)
    (hcalls : c'.calls = c.calls ++ [call]) : Agrees c id req response where
  tagged := htag
  removed := by
    rw [hok]
    exact hremoved
  called _ _ _ := by
    rw [hok]
    exact ⟨call, hinvokes, hcalls⟩
  returns := by rw [awaitResponse_done hok hremoved]

theorem not_agrees_of_fault {c c' : Client} {id : Bytes} {req : OutstandingRequest}
    {response : List Envelope} {f : Fault}
    (h : c.processResponseMessage (frames (RequestProcessor.sent response)) = (.error f, c')) :
    ¬ Agrees c id req response := by
  intro hagrees
  have hreturns := hagrees.returns
  rw [awaitResponse, h] at hreturns
  cases hreturns

/-- A response that is ignored leaves the request waiting. -/
theorem not_agrees_of_ignored {c : Client} {id : Bytes} {req : OutstandingRequest}
    {e : Envelope} {m : Message} (hreq : c.outstanding.lookup id = some req)
    (hm : e.getMessage 0 = some m) (hrouted : m.type ∉ routed)
    (hstart : m.type ≠ .subscriptionStartV1) : ¬ Agrees c id req [e] := by
  intro hagrees
  have hremoved := hagrees.removed
  rw [show frames (RequestProcessor.sent [e]) = e.toProtocolZmqMessage :: frames [] from rfl,
    processResponseMessage_ignored c hm hrouted hstart, hreq] at hremoved
  cases hremoved

theorem not_understood_of_ignored {c : Client} {request m : Message} {e : Envelope}
    (hm : e.getMessage 0 = some m) (hrouted : m.type ∉ routed) : ¬ Understood c request [e] := by
  rw [Understood, show answer [e] = some m from hm]
  cases m with
  | pongV1 | storeInfoV1 | streamSegmentStartV1 | subscriptionAcceptAckV1 =>
    exact absurd (by simp [Message.type, routed]) hrouted
  | _ => exact not_false

theorem agrees_iff_of_ignored (type : MessageType) {c : Client} {id : Bytes}
    {req : OutstandingRequest} {e : Envelope} {request m : Message}
    (hreq : c.outstanding.lookup id = some req) (hm : e.getMessage 0 = some m) (htype : m.type = type)
    (hrouted : type ∉ routed) (hstart : type ≠ .subscriptionStartV1) :
    Agrees c id req [e] ↔ Understood c request [e] := by
  subst htype
  exact iff_of_false (not_agrees_of_ignored hreq hm hrouted hstart)
    (not_understood_of_ignored hm hrouted)

/-- A response of one envelope with the tag of the request goes to its entry. -/
theorem processResponseMessage_single {c : Client} {id : Bytes} {req : OutstandingRequest}
    {e : Envelope} {m : Message} (hreq : c.outstanding.lookup id = some req)
    (htag : e.tag.head? = some id) (hm : e.getMessage 0 = some m) (hrouted : m.type ∈ routed) :
    c.processResponseMessage (frames (RequestProcessor.sent [e])) =
      handleMessage { c with outstanding := c.outstanding.erase id } req e m.type (frames [e]) := by
  rw [show frames (RequestProcessor.sent [e]) = e.toProtocolZmqMessage :: frames [] from rfl,
    processResponseMessage_routed c hm hrouted, handleRequestResponse_eq htag hreq]
  rfl

/-- The segment of a response as `Pump` sends it begins with its start envelope. -/
theorem processResponseMessage_segment {c : Client} {id : Bytes} {req : OutstandingRequest}
    {callback : Nat} {start last : Envelope} {s : StreamSegmentStartV1} {stop : StreamSegmentEndV1}
    (payload : List Envelope) (hreq : c.outstanding.lookup id = some req)
    (hcallback : req.cbStreamSegment = some callback) (htag : start.tag.head? = some id)
    (hstart : start.getMessage 0 = some (.streamSegmentStartV1 s))
    (hstop : last.getMessage 0 = some (.streamSegmentEndV1 stop))
    (hsize : payload.length + 3 < 2 ^ 64) :
    c.processResponseMessage (frames (RequestProcessor.sent (start :: payload ++ [last]))) =
      if ∀ e ∈ (start :: payload).dropLast, e.serialize ≠ [] then
        (.ok true, { c with
          outstanding := c.outstanding.erase id
          calls := c.calls ++ [.streamSegment callback s.path s.offset
            (decoded s stop (start :: payload).dropLast) req.data] })
      else (.error (.exception (.invalidArgument "specified offset is larger than message")),
        { c with outstanding := c.outstanding.erase id }) := by
  have hsent : RequestProcessor.sent (start :: payload ++ [last]) =
      start :: (start :: payload) ++ [last] := by
    cases payload <;> rfl
  have hparse := parseSegment_eq s start (start :: payload) hstop
    (by rw [List.length_cons]; omega)
  have hroute := processResponseMessage_routed c hstart
    (show MessageType.streamSegmentStartV1 ∈ routed by decide)
    (frames (start :: payload ++ [last]))
  rw [hsent, List.cons_append, frames_cons, hroute, handleRequestResponse_eq htag hreq]
  rw [show (Message.streamSegmentStartV1 _).type = .streamSegmentStartV1 from rfl,
    handleMessage_segment hcallback hstart, ← frames_cons, ← List.cons_append, hparse]
  split_ifs
  · rfl
  · rfl

/-- A list is left as it is by an element in front and the loss of the last one exactly
when it has no other element. -/
theorem dropLast_cons_eq_iff {α : Type*} (a : α) (l : List α) :
    (a :: l).dropLast = l ↔ ∀ b ∈ a :: l, b = a := by
  induction l generalizing a with
  | nil => simp
  | cons b l ih =>
    rw [List.dropLast_cons_cons, List.cons.injEq, ih]
    constructor
    · rintro ⟨rfl, h⟩
      exact List.forall_mem_cons.mpr ⟨rfl, h⟩
    · intro h
      obtain rfl := h b (List.mem_cons_of_mem _ List.mem_cons_self)
      exact ⟨rfl, (List.forall_mem_cons.mp h).2⟩

/-- The call that a segment is owed is the one with its own payload. -/
theorem Invokes.segment_eq {req : OutstandingRequest} {start last : Envelope}
    {s : StreamSegmentStartV1} {stop : StreamSegmentEndV1} {payload payload' : List Envelope}
    {callback : Nat} {path : Bytes} {offset : UInt64} {data : Pointer}
    (h : Invokes req (start :: payload ++ [last])
      (.streamSegment callback path offset (decoded s stop payload') data)) :
    payload' = payload := by
  generalize hresponse : start :: payload ++ [last] = response at h
  generalize hsegment : decoded s stop payload' = segment at h
  cases h with
  | streamSegment _ _ payload₁ _ =>
    rw [List.cons_append, List.cons_append, List.cons.injEq] at hresponse
    rw [(List.append_inj' hresponse.2 rfl).1]
    exact congrArg StreamSegment.envelopes hsegment

/-- A segment is understood only where the doubled start cannot be told from the payload. -/
theorem agrees_iff_of_segment {c : Client} {id : Bytes} {req : OutstandingRequest}
    {start last : Envelope} {s : StreamSegmentStartV1} {stop : StreamSegmentEndV1}
    (request : Message) (payload : List Envelope) (hreq : c.outstanding.lookup id = some req)
    (hslot : req.cbStreamSegment ≠ none) (htag : start.tag.head? = some id)
    (hstart : start.getMessage 0 = some (.streamSegmentStartV1 s))
    (hstop : last.getMessage 0 = some (.streamSegmentEndV1 stop))
    (hsize : payload.length + 3 < 2 ^ 64) :
    Agrees c id req (start :: payload ++ [last]) ↔
      Understood c request (start :: payload ++ [last]) := by
  obtain ⟨cb, hcb⟩ := Option.ne_none_iff_exists'.mp hslot
  have hok := processResponseMessage_segment payload hreq hcb htag hstart hstop hsize
  have hanswer : answer (start :: payload ++ [last]) = some (.streamSegmentStartV1 s) := hstart
  have herased : (c.outstanding.erase id).lookup id = none := AList.lookup_erase id c.outstanding
  have hcopies : (∀ e ∈ start :: payload, (start :: payload ++ [last]).head? = some e) ↔
      (start :: payload).dropLast = payload := by
    rw [dropLast_cons_eq_iff]
    exact forall₂_congr fun e _ => ⟨fun h => (Option.some.inj h).symm, fun h => h ▸ rfl⟩
  rw [Understood, hanswer, List.dropLast_concat, hcopies]
  constructor
  · intro hagrees
    by_cases hes : ∀ e ∈ (start :: payload).dropLast, e.serialize ≠ []
    · rw [if_pos hes] at hok
      obtain ⟨call, hinvokes, hcalls⟩ := hagrees.called _ hanswer nofun
      rw [hok] at hcalls
      obtain rfl := List.singleton_inj.mp (List.append_cancel_left hcalls)
      exact hinvokes.segment_eq
    · rw [if_neg hes] at hok
      exact absurd hagrees (not_agrees_of_fault hok)
  · intro hpayload
    -- what is decoded are copies of the start, which has a message
    have hes : ∀ e ∈ (start :: payload).dropLast, e.serialize ≠ [] := by
      intro e he
      obtain rfl := (dropLast_cons_eq_iff start payload).mp hpayload e
        (List.dropLast_subset _ he)
      exact serialize_ne_nil_of_getMessage hstart
    rw [if_pos hes, hpayload] at hok
    exact .of_ok htag hok herased (.streamSegment hcb hstart payload hstop) rfl

/-- An accepted subscription is understood when the request has a callback for it
and the TTL is not too short. -/
theorem agrees_iff_of_accepted {c : Client} {id : Bytes} {req : OutstandingRequest}
    {e : Envelope} {request : Message} {ack : SubscriptionAcceptAckV1}
    (hreq : c.outstanding.lookup id = some req) (htag : e.tag.head? = some id)
    (hm : e.getMessage 0 = some (.subscriptionAcceptAckV1 ack))
    (hslot : req.cbSubscription ≠ none ↔ request.type = .subscribeStoreChangesV1) :
    Agrees c id req [e] ↔ Understood c request [e] := by
  have hok := processResponseMessage_single hreq htag hm
    (show MessageType.subscriptionAcceptAckV1 ∈ routed by decide)
  have hanswer : answer [e] = some (.subscriptionAcceptAckV1 ack) := hm
  have herased : (c.outstanding.erase id).lookup id = none := AList.lookup_erase id c.outstanding
  rw [show (Message.subscriptionAcceptAckV1 ack).type = .subscriptionAcceptAckV1 from rfl,
    handleMessage_ack hm] at hok
  rw [Understood, hanswer]
  -- the TTL is compared before the callback is looked for
  by_cases httl : ack.ttl * 1000 < c.subscriptionRenewalOffset
  · rw [if_pos httl] at hok
    exact iff_of_false (not_agrees_of_fault hok) fun h => absurd httl (UInt32.not_lt.mpr h.2)
  rw [if_neg httl] at hok
  cases hcb : req.cbSubscription with
  | none =>
    rw [hcb] at hok
    exact iff_of_false (not_agrees_of_fault hok) fun h => hslot.mpr h.1 hcb
  | some cb =>
    rw [hcb] at hok
    have htype := hslot.mp (hcb ▸ Option.some_ne_none cb)
    refine iff_of_true ?_ ⟨htype, UInt32.not_lt.mp httl⟩
    exact .of_ok htag hok herased (.subscription hcb hanswer) rfl

/-- What the client makes of each reply. -/
theorem agrees_iff_of_reply {p : RequestProcessor} {request : Envelope} {m : Message}
    {c : Client} {id : Bytes} {req : OutstandingRequest} {es : List Envelope}
    (hreq : c.outstanding.lookup id = some req) (hslot : HasSlot req m) (htag : request.tag = [id])
    (hreply : p.Reply request m es) :
    Agrees c id req (RequestProcessor.tagFirst request.tag es) ↔
      Understood c m (RequestProcessor.tagFirst request.tag es) := by
  have hget : ∀ m' : Message, ((p.respond m').addTags request.tag).getMessage 0 = some m' := by
    intro m'
    rw [Envelope.getMessage_addTags]
    exact Envelope.getMessage_ofMessage _ _
  have hhead : ∀ m' : Message, ((p.respond m').addTags request.tag).tag.head? = some id := by
    intro m'
    rw [Envelope.tag_addTags, htag]
    rfl
  have hanswer : ∀ m' : Message,
      answer [(p.respond m').addTags request.tag] = some m' := fun m' => hget m'
  have herased : (c.outstanding.erase id).lookup id = none := AList.lookup_erase id c.outstanding
  cases hreply with
  | error m code text =>
    exact agrees_iff_of_ignored .error hreq (hget _) rfl (by decide) (by decide)
  | features f =>
    exact agrees_iff_of_ignored .featureSpecificationV1 hreq (hget _) rfl (by decide) (by decide)
  | bucketInfo path info =>
    exact agrees_iff_of_ignored .bucketInfoV1 hreq (hget _) rfl (by decide) (by decide)
  | streamSetInfo path info =>
    exact agrees_iff_of_ignored .streamSetInfoV1 hreq (hget _) rfl (by decide) (by decide)
  | streamInfo path info =>
    exact agrees_iff_of_ignored .streamInfoV1 hreq (hget _) rfl (by decide) (by decide)
  | pong =>
    show Agrees c id req [_] ↔ Understood c _ [_]
    rw [Understood, hanswer]
    obtain ⟨cb, hcb⟩ := Option.ne_none_iff_exists'.mp hslot
    refine iff_of_true ?_ trivial
    have hok := processResponseMessage_single hreq (hhead .pongV1) (hget .pongV1)
      (show MessageType.pongV1 ∈ routed by decide)
    rw [show Message.type .pongV1 = .pongV1 from rfl, handleMessage_pong hcb] at hok
    exact .of_ok (hhead _) hok herased (.pong hcb (hanswer _)) rfl
  | storeInfo info =>
    show Agrees c id req [_] ↔ Understood c _ [_]
    rw [Understood, hanswer]
    obtain ⟨cb, hcb⟩ := Option.ne_none_iff_exists'.mp hslot
    refine iff_of_true ?_ trivial
    have hok := processResponseMessage_single hreq (hhead (.storeInfoV1 info))
      (hget (.storeInfoV1 info)) (show MessageType.storeInfoV1 ∈ routed by decide)
    rw [show (Message.storeInfoV1 info).type = .storeInfoV1 from rfl,
      handleMessage_storeInfo hcb (hget _)] at hok
    exact .of_ok (hhead _) hok herased (.storeInfo hcb (hanswer _)) rfl
  | segment get payload stop hsegment =>
    obtain ⟨_, _, -, hsends, -⟩ := hsegment
    have hsize := hsends.length_le
    -- the routine has added the tags of the request already
    have hstart : (((p.respond (.streamSegmentStartV1 ⟨get.path, get.startOffset⟩)).addTags
        request.tag).addTags request.tag).getMessage 0 =
          some (.streamSegmentStartV1 ⟨get.path, get.startOffset⟩) := by
      rw [Envelope.getMessage_addTags, hget]
    have htags : (((p.respond (.streamSegmentStartV1 ⟨get.path, get.startOffset⟩)).addTags
        request.tag).addTags request.tag).tag.head? = some id := by
      rw [Envelope.tag_addTags, Envelope.tag_addTags, htag]
      rfl
    exact agrees_iff_of_segment _ payload hreq hslot htags hstart
      (Envelope.getMessage_ofMessage _ _) (by omega)
  | storeChanges paths ack =>
    exact agrees_iff_of_accepted hreq (hhead _) (hget _) (iff_of_true hslot rfl)
  | envelopes m ack =>
    refine agrees_iff_of_accepted hreq (hhead _) (hget _) (iff_of_false ?_ ?_)
    · exact not_not_intro hslot
    · intro h
      cases h

/-- **Agreement**: the response to a request that a client sends ends the request and reaches its
callback, once and with what was sent, exactly when it is one that the client understands. That is a
pong, the description of the store, a subscription to store changes whose renewal has time left, and
a segment in which every envelope that was sent is equal to the one in front. -/
theorem agrees_iff (p : RequestProcessor) (c : Client) {now : UInt64} {method : Method}
    {e : Envelope} {req : OutstandingRequest} (hrequest : method.request now = .ok (e, req))
    (id : Bytes) {t : Trace}
    (hok : p.processMessages [(e.addTag id).toProtocolZmqMessage] = (.ok (), t))
    (hne : t.output ≠ []) :
    ∃ m, e = Envelope.ofMessage now m ∧
      (Agrees (c.sendRequest id e req).2 id { req with id := id } t.output ↔
        Understood c m t.output) := by
  obtain ⟨m, rfl, hreply, hslot⟩ := Method.request_eq hrequest
  have hm : ((Envelope.ofMessage now m).addTag id).getMessage 0 = some m :=
    Envelope.getMessage_ofMessage now m
  obtain ⟨es, hes, hout⟩ := RequestProcessor.reply_of_processMessages hm hreply hok hne
  have hlookup : (c.sendRequest id (Envelope.ofMessage now m) req).2.outstanding.lookup id =
      some { req with id := id } := AList.lookup_insert _
  have hslot' : HasSlot { req with id := id } m := by
    cases m <;> exact hslot
  refine ⟨m, rfl, ?_⟩
  rw [hout]
  exact agrees_iff_of_reply hlookup hslot' rfl hes

/-- What a method sends is answered by a processor over an empty stream. -/
def answered (m : Message) : List Envelope :=
  ((RequestProcessor.deferring [1]).processMessages
    [((Envelope.ofMessage 0 m).addTag [9]).toProtocolZmqMessage]).2.output

/-- A ping ends with its callback. -/
theorem agrees_ping :
    Agrees (({} : Client).sendRequest [9] (Envelope.ofMessage 0 .pingV1) { cbPing := some 1 }).2 [9]
      { id := [9], cbPing := some 1 } (answered .pingV1) := by
  obtain ⟨m, -, hiff⟩ := agrees_iff (RequestProcessor.deferring [1]) {}
    (show (Method.ping (some 1) none).request 0 =
      .ok (Envelope.ofMessage 0 .pingV1, { cbPing := some 1 }) from rfl) [9]
    (show (RequestProcessor.deferring [1]).processMessages
      [((Envelope.ofMessage 0 .pingV1).addTag [9]).toProtocolZmqMessage] =
        (.ok (), { output := answered .pingV1 }) by rfl) (by decide +kernel)
  refine hiff.mpr ?_
  rw [Understood, show answer (answered .pingV1) = some .pongV1 by decide +kernel]
  trivial

/-- The answer to `GetFeatures` is ignored, and its request stays outstanding. -/
theorem not_agrees_getFeatures :
    ∃ t, (RequestProcessor.deferring [1]).processMessages
        [((Envelope.ofMessage 0 .getFeaturesV1).addTag [9]).toProtocolZmqMessage] = (.ok (), t) ∧
      t.output ≠ [] ∧
      ¬ Agrees (({} : Client).sendRequest [9] (Envelope.ofMessage 0 .getFeaturesV1)
        { cbFeatures := some 1 }).2 [9] { id := [9], cbFeatures := some 1 } t.output := by
  refine ⟨{ output := answered .getFeaturesV1 }, rfl, by decide +kernel, fun hagrees => ?_⟩
  exact absurd hagrees.removed (by decide +kernel)

end Client

end Zippylog
