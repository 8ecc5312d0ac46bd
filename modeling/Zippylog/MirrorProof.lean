import Zippylog.ClientProof
import Zippylog.Mirror

/-!
# What mirroring delivers

`Client::Mirror` lists the streams of a store with synchronous calls and reads each of them to its
end, and its callback is to be given every complete envelope once and in order. Each of the calls
is a request, the response of a processor, the frames it is sent in and the client that takes it, so
what is wrong with any of these shows here: segments whose first envelope is doubled and whose last
is lost, and errors that no synchronous call ever returns from.

- `deliver_eq`: the messages that arrive for a request are the frames of its response.
- `getStreamInfo_ne_returns`, `getStreamSegment_returns`: what a synchronous call that returns has
  to show for it.
- `Later`: what stays while a session goes on, that is from one call to the next.
- `mirrored_iff`: the `Mirror` calls of a client return and deliver the streams exactly as long as
  they find none.
-/

namespace Zippylog

open Wire

namespace RequestProcessor

/-- The processor while it pumps a message with the given identities. -/
def pumping (p : RequestProcessor) (identities : List Bytes) : RequestProcessor :=
  { p with currentRequestIdentities := identities }

theorem toProtocolZmqMessage_ne_nil (e : Envelope) : e.toProtocolZmqMessage ≠ [] :=
  List.cons_ne_nil _ _

/-- **What arrives** in answer to a request: the frames of the response, if there
is one. -/
theorem deliver_eq (p : RequestProcessor) {identities : List Bytes}
    (hidentities : ∀ i ∈ identities, i ≠ []) (e : Envelope) :
    p.deliver identities (ZeroMQ.sendEnvelopeTo [] e true false) =
      match (p.pumping identities).processMessages [e.toProtocolZmqMessage] with
      | (.error _, _) => []
      | (.ok (), t) => if t.output = [] then [] else [Client.frames (sent t.output)] := by
  have hrequest : identities.map (⟨·, true⟩) ++ ZeroMQ.sendEnvelopeTo [] e true false =
      identities.map (⟨·, true⟩) ++ ZeroMQ.multipart ([] :: [e.toProtocolZmqMessage]) := rfl
  rw [deliver, hrequest, ZeroMQ.receiveMessage_multipart hidentities (List.cons_ne_nil _ _)
    (by simpa using toProtocolZmqMessage_ne_nil e)]
  simp only [pump, pumping]
  cases hr : (p.pumping identities).processMessages [e.toProtocolZmqMessage] with
  | mk r t =>
    rw [pumping] at hr
    rw [hr]
    cases r with
    | error f => rfl
    | ok u =>
      simp only
      by_cases hnil : t.output = []
      · rw [if_pos hnil, hnil]
        rw [show sendResponse identities [] = [] from rfl, List.drop_nil]
        rfl
      -- an output is sent as one envelope or more
      · have hsent : (sent t.output).map Envelope.toProtocolZmqMessage ≠ [] := by
          intro h
          rw [List.map_eq_nil_iff] at h
          rcases hout : t.output with _ | ⟨e, _ | ⟨e', es⟩⟩
          · exact hnil hout
          · rw [hout] at h
            cases h
          · rw [hout] at h
            cases h
        rw [if_neg hnil, sendResponse_eq _ hnil,
          ZeroMQ.multipart_append _ (List.cons_ne_nil _ _), List.drop_left' (List.length_map _)]
        have hreceive := ZeroMQ.receiveMessage_multipart (List.forall_mem_nil (· ≠ [])) hsent (by
          intro part hpart
          obtain ⟨e, -, rfl⟩ := List.mem_map.mp hpart
          exact toProtocolZmqMessage_ne_nil e)
        rw [show ZeroMQ.multipart ([] :: (sent t.output).map Envelope.toProtocolZmqMessage) =
          List.map (⟨·, true⟩) [] ++
            ZeroMQ.multipart ([] :: (sent t.output).map Envelope.toProtocolZmqMessage) from rfl,
          hreceive]
        rfl

/-- A request for the store is always answered. -/
theorem processMessages_storeInfo (p : RequestProcessor) {request : Envelope}
    (h : request.getMessage 0 = some .getStoreInfoV1) :
    p.processMessages [request.toProtocolZmqMessage] = (.ok (),
      { output := [(p.respond (.storeInfoV1 p.store.storeInfo)).addTags request.tag] }) := by
  obtain ⟨b, bs, -, -, hb, -, -, -⟩ := Envelope.getMessage_zero_eq_some h
  have hmessage : request.message ≠ [] := by
    rw [hb]
    exact List.cons_ne_nil _ _
  have hdecode := Envelope.ofZmqMessage_toProtocolZmqMessage (Envelope.serialize_ne_nil hmessage)
  rw [Envelope.toProtocolZmqMessage] at hdecode ⊢
  have hprocess : p.validateAndDispatch request {} =
      (.ok .authoritative, { output := [p.respond (.storeInfoV1 p.store.storeInfo)] }) := by
    rw [p.validateAndDispatch_of_getMessage h]
    show p.processStoreInfo request {} = _
    rw [processStoreInfo, h]
    rfl
  rw [processMessages_request hdecode, processRequest_authoritative hprocess (List.cons_ne_nil _ _)]
  rfl

end RequestProcessor

namespace Client

theorem Synchronous.andThen_eq_returns {α β : Type} {r : Synchronous α}
    {k : α → Session → Synchronous β} {b : β} {s' : Session}
    (h : r.andThen k = (.returns b, s')) :
    ∃ a s, r = (.returns a, s) ∧ k a s = (.returns b, s') := by
  obtain ⟨outcome, s⟩ := r
  cases outcome with
  | returns a => exact ⟨a, s, rfl, h⟩
  | throws f => cases h
  | waits => cases h

/-- The calls of callbacks made while a call waited. -/
theorem settle_returns {s : Session} {c : Client} {new : List Call}
    (h : c.calls = s.client.calls ++ new) :
    settle s (.returns (), c) =
      (.returns new, { s with client := c, requests := s.requests + 1 }) := by
  rw [settle, h, List.drop_left]

end Client

namespace Network

open Client

/-- The processor that answers the next request. -/
def answering (net : Network) (s : Session) : RequestProcessor :=
  (net.server s.requests).pumping net.identities

/-- The client while it waits for an answer. -/
def waiting (net : Network) (s : Session) (req : OutstandingRequest) : Client :=
  let id := net.uuid s.requests
  { s.client with outstanding := s.client.outstanding.insert id { req with id := id } }

theorem lookup_waiting (net : Network) (s : Session) (req : OutstandingRequest) :
    (net.waiting s req).outstanding.lookup (net.uuid s.requests) =
      some { req with id := net.uuid s.requests } :=
  AList.lookup_insert _

/-- A request with a tag goes out and its response comes back, if there is one. -/
theorem sendAndProcess_eq (net : Network) (e : Envelope) (req : OutstandingRequest) (s : Session) :
    net.sendAndProcess e req s =
      settle s (awaitResponse (net.uuid s.requests)
        (match (net.answering s).processMessages
            [(e.addTag (net.uuid s.requests)).toProtocolZmqMessage] with
          | (.error _, _) => []
          | (.ok (), t) => if t.output = [] then [] else [frames (RequestProcessor.sent t.output)])
        (net.waiting s req)) := by
  have hsend : s.client.sendRequest (net.uuid s.requests) e req =
      (ZeroMQ.sendEnvelopeTo [] (e.addTag (net.uuid s.requests)) true false,
        net.waiting s req) := rfl
  rw [sendAndProcess, hsend]
  dsimp only
  rw [RequestProcessor.deliver_eq _ net.identities_ne_nil, answering]

theorem sendAndProcess_answered (net : Network) {e : Envelope} (req : OutstandingRequest)
    {s : Session} {t : Trace}
    (h : (net.answering s).processMessages
      [(e.addTag (net.uuid s.requests)).toProtocolZmqMessage] = (.ok (), t)) (hne : t.output ≠ []) :
    net.sendAndProcess e req s = settle s (awaitResponse (net.uuid s.requests)
      [frames (RequestProcessor.sent t.output)] (net.waiting s req)) := by
  rw [sendAndProcess_eq, h]
  simp only [if_neg hne]

theorem awaitResponse_nil (net : Network) (s : Session) (req : OutstandingRequest) :
    awaitResponse (net.uuid s.requests) [] (net.waiting s req) = (.waits, net.waiting s req) := by
  rw [awaitResponse, haveOutstandingRequest, lookup_waiting]
  rfl

/-- **A synchronous call that returns** had a reply. -/
theorem sendAndProcess_returns (net : Network) (now : UInt64) (m : Message)
    (hreply : RequestProcessor.HasReply m) (req : OutstandingRequest) {s s' : Session}
    {calls : List Call}
    (h : net.sendAndProcess (Envelope.ofMessage now m) req s = (.returns calls, s')) :
    ∃ es, (net.answering s).Reply ((Envelope.ofMessage now m).addTag (net.uuid s.requests)) m es ∧
      settle s (awaitResponse (net.uuid s.requests)
        [frames (RequestProcessor.sent (RequestProcessor.tagFirst [net.uuid s.requests] es))]
        (net.waiting s req)) = (.returns calls, s') := by
  cases hr : (net.answering s).processMessages
      [((Envelope.ofMessage now m).addTag (net.uuid s.requests)).toProtocolZmqMessage] with
  | mk r t =>
    cases r with
    | error f =>
      rw [sendAndProcess_eq, hr] at h
      simp only [awaitResponse_nil] at h
      cases h
    | ok u =>
      by_cases hnil : t.output = []
      · rw [sendAndProcess_eq, hr] at h
        simp only [if_pos hnil, awaitResponse_nil] at h
        cases h
      · obtain ⟨es, hes, hout⟩ := RequestProcessor.reply_of_processMessages
          (show ((Envelope.ofMessage now m).addTag (net.uuid s.requests)).getMessage 0 = some m from
            Envelope.getMessage_ofMessage now m) hreply hr hnil
        rw [show ((Envelope.ofMessage now m).addTag (net.uuid s.requests)).tag =
          [net.uuid s.requests] from rfl] at hout
        rw [sendAndProcess_answered net req hr hnil, hout] at h
        exact ⟨es, hes, h⟩

/-! ## What the calls of `Mirror` return -/

/-- `GetStoreInfo` returns what is in the store. -/
theorem getStoreInfo_eq (net : Network) (s : Session) :
    ∃ c, net.getStoreInfo s = (.returns (net.server s.requests).store.storeInfo,
      { s with client := c, requests := s.requests + 1 }) := by
  let id := net.uuid s.requests
  let req : OutstandingRequest := { cbStoreInfo := callbackStoreInfo, data := some 0 }
  let info := (net.server s.requests).store.storeInfo
  let e := ((net.answering s).respond (.storeInfoV1 info)).addTags [id]
  have hinfo : e.getMessage 0 = some (.storeInfoV1 info) := by
    rw [Envelope.getMessage_addTags]
    exact Envelope.getMessage_ofMessage _ _
  have htag : e.tag.head? = some id := by
    rw [Envelope.tag_addTags]
    rfl
  have hlookup := lookup_waiting net s req
  have hok := processResponseMessage_single hlookup htag hinfo
    (show MessageType.storeInfoV1 ∈ routed by decide)
  rw [show (Message.storeInfoV1 info).type = .storeInfoV1 from rfl,
    handleMessage_storeInfo (show callbackStoreInfo = some 1 from rfl) hinfo] at hok
  have hprocess := RequestProcessor.processMessages_storeInfo (net.answering s)
    (show ((Envelope.ofMessage (net.clock s.requests) .getStoreInfoV1).addTag
      (net.uuid s.requests)).getMessage 0 = some .getStoreInfoV1 from
        Envelope.getMessage_ofMessage (net.clock s.requests) .getStoreInfoV1)
  have hsend := sendAndProcess_answered net req hprocess (List.cons_ne_nil _ _)
  have hawait := awaitResponse_done hok (AList.lookup_erase _ _)
  have hcall : net.getStoreInfo s = (net.sendAndProcess
      (Envelope.ofMessage (net.clock s.requests) .getStoreInfoV1) req s).andThen fun calls s =>
        (.returns ((calls.findSome? storeInfo?).getD ⟨[]⟩), s) := rfl
  rw [hsend] at hcall
  change _ = (settle s (awaitResponse id [frames (RequestProcessor.sent [e])] _)).andThen _ at hcall
  rw [hawait, settle_returns rfl] at hcall
  exact ⟨_, hcall⟩

/-- `GetStreamInfo` never returns: its answer is ignored. -/
theorem getStreamInfo_ne_returns (net : Network) (path : Bytes) (s : Session) {si : StreamInfoV1}
    {s' : Session} : net.getStreamInfo path s ≠ (.returns si, s') := by
  intro h
  obtain ⟨calls, s₁, hsend, -⟩ := Client.Synchronous.andThen_eq_returns h
  obtain ⟨es, hes, hawait⟩ := sendAndProcess_returns net (net.clock s.requests)
    (.getStreamInfoV1 path) trivial { cbStreamInfo := callbackStreamInfo, data := some 0 } hsend
  have hget : ∀ m : Message,
      (((net.answering s).respond m).addTags [net.uuid s.requests]).getMessage 0 = some m := by
    intro m
    rw [Envelope.getMessage_addTags]
    exact Envelope.getMessage_ofMessage _ _
  cases hes with
  | error m code text =>
    rw [RequestProcessor.tagFirst, awaitResponse_ignored .error (lookup_waiting _ _ _) (hget _) rfl
      (by decide) (by decide)] at hawait
    cases hawait
  | streamInfo path info =>
    rw [RequestProcessor.tagFirst, awaitResponse_ignored .streamInfoV1 (lookup_waiting _ _ _)
      (hget _) rfl (by decide) (by decide)] at hawait
    cases hawait

/-- **A segment that is returned** is one of a served stream, and begins with the
envelope that starts it, which has the tag of the request. -/
theorem getStreamSegment_returns {net : Network} {path : Bytes} {startOffset : UInt64}
    {s s' : Session} {segment : StreamSegment}
    (h : net.getStreamSegment path startOffset s = (.returns segment, s')) :
    ∃ payload stop,
      (net.answering s).Segmented ⟨path, startOffset, none, none⟩ payload stop ∧
      segment.bytesSent = stop.bytesSent ∧
      ∃ e ∈ segment.envelopes, net.uuid s.requests ∈ e.tag := by
  obtain ⟨calls, s₁, hsend, hsegment⟩ := Client.Synchronous.andThen_eq_returns h
  obtain ⟨es, hes, hawait⟩ := sendAndProcess_returns net (net.clock s.requests)
    (.getStreamSegmentV1 ⟨path, startOffset, none, none⟩) trivial
    { cbStreamSegment := callbackStreamSegment, data := some 0 } hsend
  have hget : ∀ m : Message,
      (((net.answering s).respond m).addTags [net.uuid s.requests]).getMessage 0 = some m := by
    intro m
    rw [Envelope.getMessage_addTags]
    exact Envelope.getMessage_ofMessage _ _
  have hlookup := lookup_waiting net s
    { cbStreamSegment := callbackStreamSegment, data := some 0 }
  cases hes with
  | error m code text =>
    rw [RequestProcessor.tagFirst, awaitResponse_ignored .error hlookup (hget _) rfl
      (by decide) (by decide)] at hawait
    cases hawait
  | segment get payload stop hserved =>
    refine ⟨payload, stop, hserved, ?_⟩
    obtain ⟨_, _, -, hsends, -⟩ := hserved
    let start := (((net.answering s).respond (.streamSegmentStartV1 ⟨path, startOffset⟩)).addTags
      [net.uuid s.requests]).addTags [net.uuid s.requests]
    have hstart : start.getMessage 0 = some (.streamSegmentStartV1 ⟨path, startOffset⟩) := by
      rw [Envelope.getMessage_addTags, hget]
    have htag : start.tag = [net.uuid s.requests, net.uuid s.requests] := by
      rw [Envelope.tag_addTags, Envelope.tag_addTags]
      rfl
    have hsize := hsends.length_le
    have hhead : start.tag.head? = some (net.uuid s.requests) := by
      rw [htag]
      rfl
    have hstop : ((net.answering s).respond (.streamSegmentEndV1 stop)).getMessage 0 =
        some (.streamSegmentEndV1 stop) := Envelope.getMessage_ofMessage _ _
    have hprocess := processResponseMessage_segment payload hlookup
      (show callbackStreamSegment = some 3 from rfl) hhead hstart hstop (by omega)
    change settle s (awaitResponse _ [frames (RequestProcessor.sent (start :: payload ++
      [(net.answering s).respond (.streamSegmentEndV1 stop)]))] _) = _ at hawait
    split_ifs at hprocess with hes
    · rw [awaitResponse_done hprocess (AList.lookup_erase _ _), settle_returns rfl] at hawait
      obtain ⟨hcalls, -⟩ := Prod.ext_iff.mp hawait
      cases hcalls
      cases hsegment
      refine ⟨rfl, start, ?_, by rw [htag]; exact List.mem_cons_self⟩
      -- the payload is not empty, so that the start envelope is not the last
      show start ∈ (start :: payload).dropLast
      rw [List.dropLast_cons_of_ne_nil hsends.payload_ne_nil]
      exact List.mem_cons_self
    · rw [awaitResponse, hprocess] at hawait
      cases hawait

/-! ## Progress of a session -/

/-- A session goes on: requests are counted, and what was fetched stays. -/
structure Later (s s' : Session) : Prop where
  requests_le : s.requests ≤ s'.requests
  fetched : s.fetched <+: s'.fetched

theorem Later.refl (s : Session) : Later s s := ⟨Nat.le_refl _, List.prefix_refl _⟩

theorem Later.trans {s s' s'' : Session} (h : Later s s') (h' : Later s' s'') : Later s s'' :=
  ⟨Nat.le_trans h.requests_le h'.requests_le, h.fetched.trans h'.fetched⟩

theorem later_andThen {α β : Type} {s : Session} {r : Synchronous α}
    {k : α → Session → Synchronous β} (h : Later s r.2) (hk : ∀ a s, Later s (k a s).2) :
    Later s (r.andThen k).2 := by
  obtain ⟨outcome, s'⟩ := r
  cases outcome with
  | returns a => exact h.trans (hk a s')
  | throws f => exact h
  | waits => exact h

theorem later_callback (s : Session) (path : Bytes) (segment : StreamSegment) :
    Later s (s.callback path segment) :=
  ⟨Nat.le_refl _, List.prefix_append _ _⟩

theorem later_settle (s : Session) (r : Outcome Unit × Client) : Later s (settle s r).2 := by
  obtain ⟨outcome, c⟩ := r
  cases outcome with
  | returns a => exact ⟨Nat.le_succ _, List.prefix_refl _⟩
  | throws f => exact ⟨Nat.le_succ _, List.prefix_refl _⟩
  | waits => exact ⟨Nat.le_succ _, List.prefix_refl _⟩

theorem later_synchronous (net : Network) (request : Except Exn (Envelope × OutstandingRequest))
    (s : Session) : Later s (net.synchronous request s).2 := by
  cases request with
  | error e => exact .refl s
  | ok er => exact later_settle s _

theorem later_getStoreInfo (net : Network) (s : Session) : Later s (net.getStoreInfo s).2 :=
  later_andThen (later_synchronous net _ s) fun _ s => .refl s

theorem later_getStreamInfo (net : Network) (path : Bytes) (s : Session) :
    Later s (net.getStreamInfo path s).2 :=
  later_andThen (later_synchronous net _ s) fun _ s => .refl s

theorem later_getStreamSegment (net : Network) (path : Bytes) (startOffset : UInt64) (s : Session) :
    Later s (net.getStreamSegment path startOffset s).2 := by
  refine later_andThen (later_synchronous net _ s) fun calls s => ?_
  split
  · exact .refl s
  · exact .refl s

/-- Fetching a stream only goes on in time. -/
theorem later_fetchStream (net : Network) (path : Bytes) (endOffset : UInt64) (fuel : Nat) :
    ∀ (startOffset : UInt64) (s : Session),
      Later s (net.fetchStream path endOffset fuel startOffset s).2 := by
  induction fuel with
  | zero => exact fun _ s => .refl s
  | succ fuel ih =>
    intro startOffset s
    refine later_andThen (later_getStreamSegment net path startOffset s) fun segment s => ?_
    split_ifs
    · exact .refl s
    · exact later_callback s path segment
    · exact (later_callback s path segment).trans (ih _ _)

theorem later_getStream (net : Network) (fuel : Nat) (path : Bytes) (state endOffset : UInt64)
    (s : Session) : Later s (net.getStream fuel path state endOffset s).2 := by
  refine later_andThen ?_ fun endOffset s => ?_
  · split_ifs
    · exact later_andThen (later_getStreamInfo net path s) fun _ s => .refl s
    · exact .refl s
  · split_ifs
    · exact .refl s
    · exact later_fetchStream net path endOffset fuel state s

theorem later_mirrorStreams (net : Network) (fuel : Nat) (streams : List (Bytes × UInt64)) :
    ∀ (state : StoreMirrorState) (s : Session),
      Later s (net.mirrorStreams fuel streams state s).2 := by
  induction streams with
  | nil => exact fun _ s => .refl s
  | cons stream streams ih =>
    intro state s
    exact later_andThen (later_getStream net fuel _ _ _ s) fun _ s => ih _ s

theorem later_mirror (net : Network) (fuel : Nat) (state : StoreMirrorState) (s : Session) :
    Later s (net.mirror fuel state s).2 :=
  later_andThen (later_getStoreInfo net s) fun _ s => later_mirrorStreams net fuel _ state s

end Network

/-! ## Stores that grow -/

/-- The complete envelopes of a stream file. What is behind them is a part of one
more record, or nothing. -/
def Complete (content : Bytes) (es : List Envelope) : Prop :=
  ∃ bodies body c, content = tornFile bodies body c ∧ c < (record body).length ∧
    InputStream.Parses bodies es ∧ ∀ b ∈ body :: bodies, b.length < 2 ^ 31

namespace Store

/-- The store shows the stream to those who ask what is in it. -/
def Lists (store : Store) (bucket set stream : Bytes) : Prop :=
  bucket ∈ store.bucketNames ∧ set ∈ store.streamSetNames bucket ∧
    stream ∈ store.streamNames bucket set

/-- The store has no stream. -/
def Empty (store : Store) : Prop := ∀ bucket set stream, ¬ store.Lists bucket set stream

/-- `Mirror` goes through the streams that the store shows. -/
theorem listed_storeInfo (store : Store) :
    Client.listed store.storeInfo = store.bucketNames.flatMap fun bucket =>
      (store.streamSetNames bucket).flatMap fun set =>
        (store.streamNames bucket set).map fun stream =>
          (streamPath bucket set stream, (store.streamLength bucket set stream).getD 0) := by
  simp only [Client.listed, storeInfo, bucketInfo, streamsetInfo, List.flatMap_map, List.map_map]
  rfl

theorem exists_of_mem_listed {store : Store} {path : Bytes} {length : UInt64}
    (h : (path, length) ∈ Client.listed store.storeInfo) :
    ∃ bucket set stream, store.Lists bucket set stream ∧ path = streamPath bucket set stream := by
  simp only [listed_storeInfo, List.mem_flatMap, List.mem_map] at h
  obtain ⟨bucket, hbucket, set, hset, stream, hstream, heq⟩ := h
  exact ⟨bucket, set, stream, ⟨hbucket, hset, hstream⟩, (congrArg Prod.fst heq).symm⟩

/-- A store lists no stream exactly if it has none. -/
theorem listed_storeInfo_eq_nil_iff (store : Store) :
    Client.listed store.storeInfo = [] ↔ store.Empty := by
  simp only [listed_storeInfo, List.flatMap_eq_nil_iff, List.map_eq_nil_iff]
  constructor
  · rintro h bucket set stream ⟨hbucket, hset, hstream⟩
    rw [h bucket hbucket set hset] at hstream
    cases hstream
  · intro h bucket hbucket set hset
    exact List.eq_nil_iff_forall_not_mem.mpr fun stream hstream =>
      h bucket set stream ⟨hbucket, hset, hstream⟩

end Store

/-- A reader at the beginning of such a file. -/
theorem Complete.measured {content : Bytes} {es : List Envelope} (h : Complete content es)
    {stream : InputStream} (hopen : InputStream.ofFile (some content) 0 = .ok stream) :
    stream.Measured := by
  obtain ⟨bodies, body, c, rfl, -, -, hlen⟩ := h
  obtain ⟨s, hs, hat, -, -⟩ := InputStream.ofFile_at (records bodies ++ (record body).take c)
  rw [show tornFile bodies body c = 1 :: (records bodies ++ (record body).take c) from rfl, hs]
    at hopen
  cases hopen
  refine Or.inr ⟨bodies ++ [body], _, hat.before (Nat.le_refl _), ?_, ?_⟩
  · rw [records_append, records_cons, records_nil, List.append_nil]
    exact (List.prefix_append_right_inj _).mpr (List.take_prefix _ _)
  · intro b hb
    refine hlen b ?_
    simpa [or_comm] using hb

namespace Network

/-- The complete envelopes of a stream when the `n`-th request is answered. -/
def Holds (net : Network) (n : Nat) (bucket set stream : Bytes) (es : List Envelope) : Prop :=
  ∃ content, (net.server n).store.file bucket set stream = some content ∧ Complete content es

/-- Stores that streams are appended to. A stream has the version byte, complete
records and perhaps a part of another one, and is listed. -/
structure Lawful (net : Network) : Prop where
  names (n : Nat) (bucket set stream : Bytes)
    (h : (net.server n).store.Lists bucket set stream) :
    ValidName bucket ∧ ValidName set ∧ ValidName stream
  listed (n : Nat) (bucket set stream content : Bytes)
    (h : (net.server n).store.file bucket set stream = some content) :
    (net.server n).store.Lists bucket set stream
  complete (n : Nat) (bucket set stream content : Bytes)
    (h : (net.server n).store.file bucket set stream = some content) :
    ∃ es, Complete content es
  grows (n m : Nat) (hle : n ≤ m) (bucket set stream content : Bytes)
    (h : (net.server n).store.file bucket set stream = some content) :
    ∃ more, (net.server m).store.file bucket set stream = some (content ++ more)

/-- No envelope in a stream has a UUID of a request for a tag. -/
def Fresh (net : Network) : Prop :=
  ∀ n bucket set stream es, net.Holds n bucket set stream es → ∀ e ∈ es, ∀ k, net.uuid k ∉ e.tag

/-- What the callbacks of a session were given is a prefix of each stream, and has
what was complete when request `last` was answered. -/
structure Delivers (net : Network) (s : Session) (last : Nat) : Prop where
  envelopes_prefix (bucket set stream : Bytes) (es : List Envelope)
    (h : net.Holds s.requests bucket set stream es) :
    s.envelopes (Store.streamPath bucket set stream) <+: es
  prefix_envelopes (bucket set stream : Bytes) (es : List Envelope)
    (h : net.Holds last bucket set stream es) :
    es <+: s.envelopes (Store.streamPath bucket set stream)

/-- Every call of `Mirror` returns, and together they deliver the streams. -/
def Mirrored (net : Network) (calls : Nat) : Prop :=
  ∃ fuel state s, net.mirrors fuel calls = (.returns state, s) ∧
    ∀ k, calls = k + 1 → net.Delivers s (net.mirrors fuel k).2.requests

/-! ## Stores without streams -/

/-- **Run lemma**: without a stream each call makes one request. -/
theorem mirrors_of_empty (net : Network) (fuel calls : Nat)
    (h : ∀ j < calls, (net.server j).store.Empty) :
    ∃ s, net.mirrors fuel calls = (.returns ∅, s) ∧ s.requests = calls ∧ s.fetched = [] := by
  induction calls with
  | zero => exact ⟨{}, rfl, rfl, rfl⟩
  | succ calls ih =>
    obtain ⟨s, hs, hrequests, hfetched⟩ := ih fun j hj => h j (Nat.lt_succ_of_lt hj)
    obtain ⟨c, hinfo⟩ := net.getStoreInfo_eq s
    have hnil := (Store.listed_storeInfo_eq_nil_iff _).mpr (h calls (Nat.lt_succ_self _))
    rw [hrequests] at hinfo
    refine ⟨{ s with client := c, requests := s.requests + 1 }, ?_,
      congrArg (· + 1) hrequests, hfetched⟩
    rw [mirrors, hs]
    show net.mirror fuel ∅ s = _
    rw [mirror, hinfo]
    show net.mirrorStreams fuel (Client.listed _) ∅ _ = _
    rw [hnil, mirrorStreams, hrequests]

/-- From stores without streams nothing is fetched, and nothing is what they have. -/
theorem mirrored_of_empty {net : Network} (hlawful : net.Lawful) {calls : Nat}
    (h : ∀ j < calls, (net.server j).store.Empty) : net.Mirrored calls := by
  obtain ⟨s, hs, -, hfetched⟩ := net.mirrors_of_empty 0 calls h
  have hnone : ∀ path, s.envelopes path = [] := by
    intro path
    rw [Session.envelopes, hfetched]
    rfl
  refine ⟨0, ∅, s, hs, ?_⟩
  rintro k rfl
  obtain ⟨s', hs', hrequests, -⟩ := net.mirrors_of_empty 0 k fun j hj => h j (Nat.lt_succ_of_lt hj)
  rw [hs']
  constructor
  · intro bucket set stream es _
    rw [hnone]
    exact List.nil_prefix
  · rintro bucket set stream es ⟨content, hfile, -⟩
    rw [hrequests] at hfile
    exact absurd (hlawful.listed k bucket set stream content hfile)
      (h k (Nat.lt_succ_self k) bucket set stream)

/-! ## Stores with a stream -/

/-- The callback of the user was given the start of a segment as an envelope of a
stream. -/
def Tainted (net : Network) (s : Session) : Prop :=
  ∃ bucket set stream content m segment e k,
    (Store.streamPath bucket set stream, segment) ∈ s.fetched ∧ e ∈ segment.envelopes ∧
      net.uuid k ∈ e.tag ∧ m ≤ s.requests ∧
      (net.server m).store.file bucket set stream = some content

theorem Tainted.later {net : Network} {s s' : Session} (h : net.Tainted s) (hlater : Later s s') :
    net.Tainted s' := by
  obtain ⟨bucket, set, stream, content, m, segment, e, k, hsegment, he, htag, hm, hfile⟩ := h
  exact ⟨bucket, set, stream, content, m, segment, e, k, hlater.fetched.subset hsegment, he, htag,
    Nat.le_trans hm hlater.requests_le, hfile⟩

/-- The byte limits of the servers leave room for one record behind them in 32 bits. -/
def Limited (net : Network) : Prop :=
  ∀ n, (net.server n).getStreamMaxBytes.toNat + 8 ≤ 2 ^ 31

variable {net : Network}

/-- A first segment taints the session: it is not empty. -/
theorem fetchStream_taints (hlawful : net.Lawful) (hlimited : net.Limited) {fuel : Nat}
    {bucket set stream : Bytes} {endOffset offset : UInt64} {s s' : Session}
    (hlists : ∃ n, (net.server n).store.Lists bucket set stream)
    (h : net.fetchStream (Store.streamPath bucket set stream) endOffset fuel 0 s =
      (.returns offset, s')) : net.Tainted s' := by
  cases fuel with
  | zero => cases h
  | succ fuel =>
    obtain ⟨segment, s₁, hsegment, hrest⟩ := Client.Synchronous.andThen_eq_returns h
    obtain ⟨payload, stop, ⟨content, input, hserves, hsends, hopen⟩, hbytes, e, he, htag⟩ :=
      getStreamSegment_returns hsegment
    obtain ⟨n, hlists⟩ := hlists
    obtain ⟨hb, hs, hn⟩ := hlawful.names n bucket set stream hlists
    obtain ⟨bucket', set', stream', hparse, -, -, -, -, -, hfile⟩ := hserves
    rw [Store.parsePath_streamPath hb hs hn] at hparse
    cases hparse
    obtain ⟨es, hcomplete⟩ := hlawful.complete s.requests _ _ _ content hfile
    have hne : segment.bytesSent ≠ 0 := by
      rw [hbytes]
      exact hsends.bytesSent_ne_zero (hcomplete.measured (hopen rfl)) (hlimited s.requests)
    have hlater := later_getStreamSegment net (Store.streamPath bucket set stream) 0 s
    rw [hsegment] at hlater
    have htainted : net.Tainted (s₁.callback (Store.streamPath bucket set stream) segment) :=
      ⟨bucket, set, stream, content, s.requests, segment, e, s.requests,
        List.mem_append_right _ (List.mem_singleton_self _), he, htag, hlater.requests_le, hfile⟩
    rw [if_neg hne] at hrest
    simp only at hrest
    split_ifs at hrest
    · cases hrest
      exact htainted
    · have hlater' := later_fetchStream net (Store.streamPath bucket set stream) endOffset fuel
        segment.endOffset (s₁.callback (Store.streamPath bucket set stream) segment)
      rw [hrest] at hlater'
      exact htainted.later hlater'

/-- Fetching a stream that is listed leaves the session tainted: what was received is not what is in
the file. -/
theorem getStream_taints (hlawful : net.Lawful) (hlimited : net.Limited) {fuel : Nat}
    {bucket set stream : Bytes} {endOffset offset : UInt64} {s s' : Session}
    (hlists : ∃ n, (net.server n).store.Lists bucket set stream)
    (h : net.getStream fuel (Store.streamPath bucket set stream) 0 endOffset s =
      (.returns offset, s')) : net.Tainted s' := by
  obtain ⟨length, s₁, hlength, hfetch⟩ := Client.Synchronous.andThen_eq_returns h
  by_cases h0 : endOffset = 0
  · -- the length is asked for, and the answer never comes
    rw [if_pos h0] at hlength
    obtain ⟨si, s₂, hinfo, -⟩ := Client.Synchronous.andThen_eq_returns hlength
    exact absurd hinfo (getStreamInfo_ne_returns net _ s)
  · rw [if_neg h0] at hlength
    cases hlength
    have hpos : ¬ endOffset ≤ 0 := fun hle => h0 (UInt64.le_zero_iff.mp hle)
    rw [if_neg hpos] at hfetch
    exact fetchStream_taints hlawful hlimited hlists hfetch

/-- **Step lemma**: the first call that finds a stream taints the session, if it
returns. -/
theorem mirror_taints (hlawful : net.Lawful) (hlimited : net.Limited) {fuel : Nat}
    {state : StoreMirrorState} {s s' : Session} (hstore : ¬ (net.server s.requests).store.Empty)
    (h : net.mirror fuel ∅ s = (.returns state, s')) : net.Tainted s' := by
  obtain ⟨c, hinfo⟩ := net.getStoreInfo_eq s
  rw [mirror, hinfo] at h
  rw [← Store.listed_storeInfo_eq_nil_iff] at hstore
  cases hstreams : Client.listed (net.server s.requests).store.storeInfo with
  | nil => exact absurd hstreams hstore
  | cons pl streams =>
    obtain ⟨path, length⟩ := pl
    obtain ⟨bucket, set, stream, hlists, rfl⟩ := Store.exists_of_mem_listed
      (show (path, length) ∈ Client.listed (net.server s.requests).store.storeInfo by
        rw [hstreams]
        exact List.mem_cons_self)
    change net.mirrorStreams fuel (Client.listed _) ∅ _ = _ at h
    rw [hstreams] at h
    obtain ⟨offset, s₁, hstream, hrest⟩ := Client.Synchronous.andThen_eq_returns h
    have hstate : ((if Store.streamPath bucket set stream ∈ (∅ : StoreMirrorState) then ∅
        else (∅ : StoreMirrorState).insert (Store.streamPath bucket set stream) 0).lookup
          (Store.streamPath bucket set stream)).getD 0 = 0 := by
      rw [if_neg (AList.notMem_empty _), AList.lookup_insert]
      rfl
    rw [hstate] at hstream
    have hlater := later_mirrorStreams net fuel streams
      ((if Store.streamPath bucket set stream ∈ (∅ : StoreMirrorState) then ∅
        else (∅ : StoreMirrorState).insert (Store.streamPath bucket set stream) 0).insert
          (Store.streamPath bucket set stream) offset) s₁
    rw [hrest] at hlater
    exact (getStream_taints hlawful hlimited ⟨_, hlists⟩ hstream).later hlater

/-- Later calls return only if the earlier ones did. -/
theorem mirrors_returns_of_le {fuel j calls : Nat} (hle : j ≤ calls) {state : StoreMirrorState}
    {s : Session} (h : net.mirrors fuel calls = (.returns state, s)) :
    ∃ state' s', net.mirrors fuel j = (.returns state', s') ∧ Later s' s := by
  induction hle generalizing state s with
  | refl => exact ⟨state, s, h, .refl s⟩
  | @step calls _ ih =>
    obtain ⟨state', s', hs', hmirror⟩ := Client.Synchronous.andThen_eq_returns h
    obtain ⟨state'', s'', hs'', hlater⟩ := ih hs'
    have hlater' := later_mirror net fuel state' s'
    rw [hmirror] at hlater'
    exact ⟨state'', s'', hs'', hlater.trans hlater'⟩

/-- A session with the start of a segment among its envelopes delivers nothing of
the kind that is asked for. -/
theorem Tainted.not_delivers (hlawful : net.Lawful) (hfresh : net.Fresh) {s : Session}
    (h : net.Tainted s) (last : Nat) : ¬ net.Delivers s last := by
  intro hdelivers
  obtain ⟨bucket, set, stream, content, m, segment, e, k, hsegment, he, htag, hm, hfile⟩ := h
  obtain ⟨more, hfile'⟩ := hlawful.grows m s.requests hm bucket set stream content hfile
  obtain ⟨es, hcomplete⟩ := hlawful.complete s.requests bucket set stream _ hfile'
  have hholds : net.Holds s.requests bucket set stream es := ⟨_, hfile', hcomplete⟩
  have hmem : e ∈ s.envelopes (Store.streamPath bucket set stream) :=
    List.mem_flatMap.mpr ⟨_, List.mem_filter.mpr ⟨hsegment, decide_eq_true rfl⟩, he⟩
  have hes := (hdelivers.envelopes_prefix bucket set stream es hholds).subset hmem
  exact hfresh s.requests bucket set stream es hholds e hes k htag

/-- The other direction: a stream in any of the stores is listed in a later call, and what is
fetched of it is not its content. -/
theorem empty_of_mirrored (hlawful : net.Lawful) (hfresh : net.Fresh) (hlimited : net.Limited)
    {calls : Nat} (h : net.Mirrored calls) : ∀ j < calls, (net.server j).store.Empty := by
  obtain ⟨fuel, state, s, hs, hdelivers⟩ := h
  intro j
  induction j using Nat.strong_induction_on with
  | _ j ih =>
    intro hj
    by_contra hstore
    -- the calls before found nothing, so this one asks with request `j`
    obtain ⟨s₀, hs₀, hrequests, -⟩ := net.mirrors_of_empty fuel j fun i hi =>
      ih i hi (Nat.lt_trans hi hj)
    obtain ⟨state₁, s₁, hs₁, hlater⟩ := mirrors_returns_of_le hj hs
    rw [mirrors, hs₀] at hs₁
    have htainted := mirror_taints hlawful hlimited (by rwa [hrequests]) hs₁
    cases calls with
    | zero => exact absurd hj (Nat.not_lt_zero j)
    | succ calls =>
      exact (htainted.later hlater).not_delivers hlawful hfresh _ (hdelivers calls rfl)

/-- **Mirroring** returns and delivers the streams as long as there is nothing to deliver, and only
then, whatever becomes of the store between two requests. The first call that finds a stream waits
for ever where its first request is answered with an error, as for a stream without a complete
envelope; otherwise the callback is given the start of the segment and not its last envelope. -/
theorem mirrored_iff (hlawful : net.Lawful) (calls : Nat) :
    ((∀ j < calls, (net.server j).store.Empty) → net.Mirrored calls) ∧
    (net.Fresh → net.Limited →
      (net.Mirrored calls ↔ ∀ j < calls, (net.server j).store.Empty)) :=
  ⟨mirrored_of_empty hlawful, fun hfresh hlimited =>
    ⟨empty_of_mirrored hlawful hfresh hlimited, mirrored_of_empty hlawful⟩⟩

/-- A stream that turns up behind the second call, with nothing but its version
byte. -/
def appearingStore (n : Nat) : Store :=
  if n < 2 then ⟨[], fun _ => [], fun _ _ => [], fun _ _ _ => none⟩
  else RequestProcessor.singleStream [1]

def appearing : Network where
  server n := { RequestProcessor.deferring [1] with store := appearingStore n }
  uuid _ := [9]
  clock _ := 0
  identities := []
  identities_ne_nil := nofun

theorem appearingStore_of_le {n : Nat} (h : 2 ≤ n) :
    appearingStore n = RequestProcessor.singleStream [1] :=
  if_neg (Nat.not_lt.mpr h)

theorem empty_appearingStore {n : Nat} (h : n < 2) : (appearingStore n).Empty := by
  intro bucket set stream hlists
  rw [appearingStore, if_pos h] at hlists
  exact absurd hlists.1 List.not_mem_nil

theorem file_appearing {n : Nat} {bucket set stream content : Bytes}
    (h : (appearing.server n).store.file bucket set stream = some content) :
    2 ≤ n ∧ bucket = str "bucket" ∧ set = str "set" ∧ stream = str "stream" ∧ content = [1] := by
  change (appearingStore n).file bucket set stream = _ at h
  by_cases hn : n < 2
  · rw [appearingStore, if_pos hn] at h
    cases h
  · rw [appearingStore, if_neg hn] at h
    change (if _ then some _ else none) = _ at h
    split_ifs at h with hnames
    cases h
    exact ⟨Nat.le_of_not_lt hn, hnames.1, hnames.2.1, hnames.2.2, rfl⟩

theorem lists_appearing {n : Nat} (h : 2 ≤ n) :
    (appearing.server n).store.Lists (str "bucket") (str "set") (str "stream") := by
  show (appearingStore n).Lists _ _ _
  rw [appearingStore_of_le h]
  exact ⟨List.mem_singleton_self _, List.mem_singleton_self _, List.mem_singleton_self _⟩

/-- The names are valid, the stream has only its version byte, and it stays. -/
theorem lawful_appearing : appearing.Lawful where
  names n bucket set stream h := by
    change (appearingStore n).Lists _ _ _ at h
    by_cases hn : n < 2
    · exact absurd h (empty_appearingStore hn bucket set stream)
    · rw [appearingStore_of_le (Nat.le_of_not_lt hn)] at h
      obtain ⟨hbucket, hset, hstream⟩ := h
      rw [List.mem_singleton.mp hbucket, List.mem_singleton.mp hset, List.mem_singleton.mp hstream]
      exact ⟨validName_of_all (by decide) (by decide), validName_of_all (by decide) (by decide),
        validName_of_all (by decide) (by decide)⟩
  listed n bucket set stream content h := by
    obtain ⟨hn, rfl, rfl, rfl, -⟩ := file_appearing h
    exact lists_appearing hn
  complete n bucket set stream content h := by
    obtain ⟨-, -, -, -, rfl⟩ := file_appearing h
    exact ⟨[], [], [], 0, rfl, by decide, .nil, by decide⟩
  grows n m hle bucket set stream content h := by
    obtain ⟨hn, rfl, rfl, rfl, rfl⟩ := file_appearing h
    refine ⟨[], ?_⟩
    show (appearingStore m).file _ _ _ = _
    rw [appearingStore_of_le (Nat.le_trans hn hle)]
    rfl

theorem fresh_appearing : appearing.Fresh := by
  rintro n bucket set stream es ⟨content, hfile, bodies, body, c, rfl, -, hes, -⟩ e he
  obtain ⟨-, -, -, -, hcontent⟩ := file_appearing hfile
  cases hes with
  | nil => cases he
  | cons _ _ =>
    -- a record would be seen in the file
    have hlength := congrArg List.length hcontent
    rw [tornFile, List.length_append, streamFile_length, records_cons, List.length_append,
      List.length_singleton] at hlength
    have hpos := record_length_pos (by assumption)
    omega

/-- Two calls find nothing; the third finds a stream and never returns. -/
theorem mirrored_appearing : appearing.Mirrored 2 ∧ ¬ appearing.Mirrored 3 := by
  refine ⟨(mirrored_iff lawful_appearing 2).1 fun j hj => empty_appearingStore hj, fun h => ?_⟩
  have hstores := ((mirrored_iff lawful_appearing 3).2 fresh_appearing fun _ =>
    (by decide : (256 * 1024 : UInt32).toNat + 8 ≤ 2 ^ 31)).mp h
  exact hstores 2 (by decide) _ _ _ (lists_appearing (Nat.le_refl 2))

/-- A client of a processor over one stream with one envelope. -/
def steady : Network where
  server _ := RequestProcessor.deferring [1, 2, 40, 5]
  uuid _ := [9]
  clock _ := 0
  identities := []
  identities_ne_nil := nofun

/-- The envelope is not delivered, but the start of the segment twice tagged is. -/
theorem not_mirrored_steady : ¬ steady.Mirrored 1 := by
  rintro ⟨fuel, state, s, hs, hdelivers⟩
  have hholds : steady.Holds 0 (str "bucket") (str "set") (str "stream") [Envelope.new 5] :=
    ⟨[1, 2, 40, 5], rfl, [[40, 5]], [], 0, rfl, by decide, .cons rfl .nil, by decide⟩
  have hpart := (hdelivers 0 rfl).prefix_envelopes _ _ _ _ hholds
  have htags : s.envelopes (Store.streamPath (str "bucket") (str "set") (str "stream")) ≠ [] →
      (s.envelopes (Store.streamPath (str "bucket") (str "set") (str "stream"))).map (·.tag) =
        [[[9], [9]]] := by
    obtain rfl : (steady.mirrors fuel 1).2 = s := congrArg Prod.snd hs
    cases fuel with
    | zero => exact fun h => absurd rfl h
    | succ fuel => exact fun _ => rfl
  have hne : s.envelopes (Store.streamPath (str "bucket") (str "set") (str "stream")) ≠ [] :=
    List.IsPrefix.ne_nil hpart (List.cons_ne_nil _ _)
  have hmap := hpart.map (·.tag)
  rw [htags hne] at hmap
  exact absurd hmap (by decide)

end Network

end Zippylog
