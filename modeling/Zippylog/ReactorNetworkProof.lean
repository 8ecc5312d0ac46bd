import Zippylog.ReactorNetwork

/-!
# The network of the reactors: what gets through

A subscription, a change of the store and a keepalive each go from the thread that has it to the
reactor that is to act on it, by a call of `SendEnvelope` on one side and of `ReceiveMessage` or
`recv` on the other. The two sides have to agree on whether an empty frame is in front, and in none
of the three cases do they.

- A subscription is sent in one frame, which the reactor takes for an identity.
- A store change is sent behind an empty frame, which the reactor takes for the envelope.
- A keepalive is one frame too, which a worker takes for an identity; and one that gets through
  waits on a socket that the reactor does not read.

`Inv` is what follows for every run: what waits on each socket is framed as its sender frames it,
and no reactor has registered or processed anything. `handed_off_iff`, `changes_delivered_iff` and
`kept_iff` are read off it.
-/

namespace Zippylog

open Wire

/-! ## Reactors -/

/-- Frames of messages with one part each, which is not empty. -/
def SingleFrames (frames : List Frame) : Prop := ∀ f ∈ frames, f.data ≠ [] ∧ f.more = false

/-- Frames that begin with a delimiter, if there are any. -/
def Delimited (frames : List Frame) : Prop := ∀ f ∈ frames.head?, f = ⟨[], true⟩

theorem SingleFrames.append {frames frames' : List Frame} (h : SingleFrames frames)
    (h' : SingleFrames frames') : SingleFrames (frames ++ frames') :=
  List.forall_mem_append.mpr ⟨h, h'⟩

theorem Delimited.append {frames frames' : List Frame} (h : Delimited frames)
    (h' : Delimited frames') : Delimited (frames ++ frames') := by
  cases frames with
  | nil => exact h'
  | cons f fs => exact h

/-- A message of one part has an identity and nothing else. -/
theorem receiveMessage_singleFrames {f : Frame} {fs : List Frame} (h : SingleFrames (f :: fs)) :
    ZeroMQ.receiveMessage (f :: fs) = some (⟨[f.data], []⟩, fs) := by
  obtain ⟨hdata, hmore⟩ := h f List.mem_cons_self
  rw [ZeroMQ.receiveMessage, ZeroMQ.receiveFrom, if_neg hdata]
  simp only [hmore, if_true, Bool.false_eq_true, if_false]
  rfl

namespace PersistedStateReactor

/-- A reactor that registered and processed nothing, with frames ahead that it cannot
read. -/
structure Idle (r : PersistedStateReactor) : Prop where
  registered_eq : r.registered = []
  processed_eq : r.processed = []
  subscriptions : r.stopped = none → SingleFrames r.subscriptionSock
  storeChanges : r.stopped = none → Delimited r.storeChangesSock

variable {r : PersistedStateReactor}

/-- Nothing is registered: the socket is not ready, or the reactor ends. -/
theorem pumpSubscriptions_cases (h : SingleFrames r.subscriptionSock) (now : Nat) :
    r.pumpSubscriptions now = r ∨
      ∃ rest fault, r.pumpSubscriptions now =
        { r with subscriptionSock := rest, stopped := some fault } := by
  rw [pumpSubscriptions]
  cases hframes : r.subscriptionSock with
  | nil => exact .inl rfl
  | cons f fs =>
    rw [hframes] at h
    rw [receiveMessage_singleFrames h]
    exact .inr ⟨fs, _, rfl⟩

/-- Behind a delimiter it would be registered. -/
example : (pumpSubscriptions {
    manager := { subscriptionTtl := 1, subscriptions := [], nodup := List.nodup_nil }
    subscriptionSock := ZeroMQ.sendEnvelopePtr (Envelope.ofMessage 0 (.subscriptionRecord
      ⟨str "i", .storeChange, [str "/"], none, [], [], [], []⟩)) false } 0).registered =
    [{ type := .storeChange, id := str "i", paths := [str "/"] }] := by
  decide +kernel

/-- Nothing is processed: the socket is not ready, or the reactor ends. -/
theorem pumpStoreChanges_cases (h : Delimited r.storeChangesSock) (store : Store) :
    r.pumpStoreChanges store = r ∨
      ∃ rest fault, r.pumpStoreChanges store =
        { r with storeChangesSock := rest, stopped := some fault } := by
  rw [pumpStoreChanges]
  cases hframes : r.storeChangesSock with
  | nil => exact .inl rfl
  | cons f fs =>
    rw [hframes] at h
    obtain rfl := h f rfl
    exact .inr ⟨fs, _, rfl⟩

/-- Without a delimiter it would be processed. -/
example : (pumpStoreChanges {
    manager := { subscriptionTtl := 1, subscriptions := [], nodup := List.nodup_nil }
    storeChangesSock := ZeroMQ.sendEnvelope
      (Envelope.ofMessage 0 (.storeChangeBucketAddedV1 (str "b"))) false false }
    ⟨[], fun _ => [], fun _ _ => [], fun _ _ _ => none⟩).processed.length = 1 := by
  decide +kernel

theorem pump_of_stopped {f : Fault} (h : r.stopped = some f) (now : Nat) (store : Store) :
    r.pump now store = r := by
  rw [pump, unlessStopped, h, if_neg (Option.some_ne_none f)]

/-- A reactor that runs does its housekeeping, and nothing else but end. -/
theorem Idle.pump_spec (h : r.Idle) (hrunning : r.stopped = none) (now : Nat) (store : Store) :
    (r.pump now store).Idle ∧
      (r.pump now store).manager = r.manager.removeExpiredSubscriptions now := by
  have hsubscriptions : SingleFrames (r.housekeep now).subscriptionSock := h.subscriptions hrunning
  rw [pump, unlessStopped, if_pos hrunning]
  -- what is thrown for a subscription leaves the store changes for later
  rcases pumpSubscriptions_cases hsubscriptions now with hsame | ⟨rest, fault, hstopped⟩
  · have hrunning' : (r.housekeep now).stopped = none := hrunning
    have hchanges : Delimited (r.housekeep now).storeChangesSock := h.storeChanges hrunning
    rw [hsame, unlessStopped, if_pos hrunning']
    rcases pumpStoreChanges_cases hchanges store with hsame | ⟨rest, fault, hstopped⟩
    · rw [hsame]
      exact ⟨⟨h.registered_eq, h.processed_eq, h.subscriptions, h.storeChanges⟩, rfl⟩
    · rw [hstopped]
      exact ⟨⟨h.registered_eq, h.processed_eq, nofun, nofun⟩, rfl⟩
  · rw [hstopped, unlessStopped, if_neg (Option.some_ne_none fault)]
    exact ⟨⟨h.registered_eq, h.processed_eq, nofun, nofun⟩, rfl⟩

theorem Idle.pump (h : r.Idle) (now : Nat) (store : Store) : (r.pump now store).Idle := by
  cases hstopped : r.stopped with
  | none => exact (h.pump_spec hstopped now store).1
  | some f => rwa [pump_of_stopped hstopped]

end PersistedStateReactor

/-! ## The invariant -/

namespace ReactorNetwork

theorem forall_mem_modify {α : Type} {P : α → Prop} {l : List α} (h : ∀ a ∈ l, P a)
    {f : α → α} (hf : ∀ a, P a → P (f a)) (i : Nat) : ∀ a ∈ l.modify i f, P a := by
  intro a ha
  obtain ⟨j, hj⟩ := List.mem_iff_getElem?.mp ha
  rw [List.getElem?_modify] at hj
  obtain ⟨b, hb, hab⟩ := Option.map_eq_some_iff.mp hj
  have hPb := h b (List.mem_of_getElem? hb)
  split at hab
  · exact hab ▸ hf b hPb
  · exact hab ▸ hPb

theorem mem_of_takeAt {α : Type} {queue rest : List α} {i : Nat} {m : α}
    (h : takeAt queue i = some (m, rest)) : m ∈ queue ∧ rest = queue.eraseIdx i := by
  obtain ⟨m', hm', heq⟩ := Option.map_eq_some_iff.mp h
  obtain ⟨rfl, rfl⟩ := Prod.mk.inj heq
  exact ⟨List.mem_of_getElem? hm', rfl⟩

/-- What waits for the reactors is sent in one frame, or behind an empty one. -/
structure Inv (s : ReactorNetwork) : Prop where
  subscriptions : ∀ frames ∈ s.workerSubscriptionsSock, ∃ b, b ≠ [] ∧ frames = [⟨b, false⟩]
  storeChanges : ∀ frames ∈ s.storeChangesInputSock, ∃ b, frames = [⟨[], true⟩, ⟨b, false⟩]
  reactors : ∀ r ∈ s.reactors, r.Idle

/-- Handling a request adds nothing that the invariant does not allow. -/
theorem Inv.handle {s : ReactorNetwork} (h : s.Inv) (now : UInt64) (uuid : Bytes) (n : Nat)
    (call : HandlerCall) : (handle now uuid n s call).Inv := by
  cases call with
  | handleSubscriptionRequest subscription =>
    rw [ReactorNetwork.handle]
    split
    · rename_i id ttl frames hresult
      refine ⟨List.forall_mem_append.mpr ⟨h.subscriptions, ?_⟩, h.storeChanges, h.reactors⟩
      rw [List.forall_mem_singleton]
      rw [ServerRequestProcessor.handleSubscriptionRequest] at hresult
      split at hresult
      · cases hresult
      · obtain ⟨-, rfl⟩ := Prod.mk.inj (Except.ok.inj hresult)
        refine ⟨ZeroMQ.encode _ false, ?_, rfl⟩
        rw [ZeroMQ.encode, if_neg Bool.false_ne_true]
        exact Envelope.serialize_ne_nil (List.cons_ne_nil _ _)
    · exact h
  | handleSubscribeKeepalive request => exact ⟨h.subscriptions, h.storeChanges, h.reactors⟩
  | handleWriteEnvelopes path toWrite waitForWrite => exact h

theorem Inv.foldl_handle (now : UInt64) (uuid : Bytes) (n : Nat) (calls : List HandlerCall) :
    ∀ {s : ReactorNetwork}, s.Inv → (calls.foldl (ReactorNetwork.handle now uuid n) s).Inv := by
  induction calls with
  | nil => exact fun h => h
  | cons call calls ih => exact fun h => ih (h.handle now uuid n call)

theorem Inv.processMessage {s : ReactorNetwork} (h : s.Inv) (p : RequestProcessor) (uuid : Bytes)
    (server : Identity) (n : Nat) (frames : List Frame) :
    (processMessage p uuid server n frames s).Inv := by
  rw [ReactorNetwork.processMessage]
  split
  · exact h
  · exact h.foldl_handle _ _ _ _

/-- **Step lemma**. -/
theorem Inv.step {s : ReactorNetwork} (h : s.Inv) (st : Step) : (s.step st).Inv := by
  cases st with
  | wait microseconds => exact ⟨h.subscriptions, h.storeChanges, h.reactors⟩
  | send client part parts => exact ⟨h.subscriptions, h.storeChanges, h.reactors⟩
  | renewSubscriptions client now ids => exact ⟨h.subscriptions, h.storeChanges, h.reactors⟩
  | transferClient i =>
    rw [ReactorNetwork.step]
    split
    · exact h
    · exact ⟨h.subscriptions, h.storeChanges, h.reactors⟩
  | work i server p uuid =>
    rw [ReactorNetwork.step]
    split
    · exact h
    · rename_i n frames rest _
      have hrest : Inv { s with workersSock := rest } :=
        ⟨h.subscriptions, h.storeChanges, h.reactors⟩
      exact hrest.processMessage p uuid server n frames
  | transferSubscription i reactor =>
    rw [ReactorNetwork.step]
    split
    · exact h
    · rename_i frames rest htake
      obtain ⟨hmem, rfl⟩ := mem_of_takeAt htake
      obtain ⟨b, hb, rfl⟩ := h.subscriptions frames hmem
      -- it goes to one reactor, in the one frame it was sent in
      split
      · refine ⟨fun frames hframes => h.subscriptions frames (List.mem_of_mem_eraseIdx hframes),
          h.storeChanges, forall_mem_modify h.reactors ?_ reactor⟩
        intro r hr
        refine ⟨hr.registered_eq, hr.processed_eq, ?_, hr.storeChanges⟩
        intro hrunning
        exact (hr.subscriptions hrunning).append (List.forall_mem_singleton.mpr ⟨hb, rfl⟩)
      · exact h
  | transferNotify i =>
    rw [ReactorNetwork.step]
    split
    · exact h
    · refine ⟨h.subscriptions, h.storeChanges, List.forall_mem_map.mpr ?_⟩
      intro r hr
      obtain ⟨hregistered, hprocessed, hsubscriptions, hchanges⟩ := h.reactors r hr
      exact ⟨hregistered, hprocessed, hsubscriptions, hchanges⟩
  | watch now change =>
    rw [ReactorNetwork.step]
    split
    · exact h
    · exact ⟨h.subscriptions, List.forall_mem_append.mpr ⟨h.storeChanges,
        List.forall_mem_singleton.mpr ⟨_, rfl⟩⟩, h.reactors⟩
  | transferStoreChange =>
    rw [ReactorNetwork.step]
    split
    · exact h
    · rename_i frames rest hqueue
      have hchanges := h.storeChanges
      rw [hqueue] at hchanges
      obtain ⟨⟨b, rfl⟩, hrest⟩ := List.forall_mem_cons.mp hchanges
      refine ⟨h.subscriptions, hrest, List.forall_mem_map.mpr ?_⟩
      intro r hr
      obtain ⟨hregistered, hprocessed, hsubscriptions, hdelimited⟩ := h.reactors r hr
      -- its delimiter is in front when nothing else waits
      refine ⟨hregistered, hprocessed, hsubscriptions, ?_⟩
      intro hrunning
      refine (hdelimited hrunning).append ?_
      intro f hf
      exact (Option.some.inj hf).symm
  | pump reactor store =>
    exact ⟨h.subscriptions, h.storeChanges,
      forall_mem_modify h.reactors (fun r hr => hr.pump s.now store) reactor⟩

/-- **Run lemma**. -/
theorem Inv.run (steps : List Step) : ∀ {s : ReactorNetwork}, s.Inv → (s.run steps).Inv := by
  induction steps with
  | nil => exact fun h => h
  | cons st steps ih => exact fun h => ih (h.step st)

/-- Nothing was sent yet. -/
structure Fresh (s : ReactorNetwork) : Prop where
  sent_eq : s.sent = 0
  clientsSock_eq : s.clientsSock = []
  workersSock_eq : s.workersSock = []
  workerSubscriptionsSock_eq : s.workerSubscriptionsSock = []
  workerStreamingNotifySock_eq : s.workerStreamingNotifySock = []
  storeChangesInputSock_eq : s.storeChangesInputSock = []
  renewals_eq : s.renewals = []
  accepted_eq : s.accepted = []
  changes_eq : s.changes = []
  reactors : ∀ r ∈ s.reactors, r.storeChangesSock = [] ∧ r.subscriptionSock = [] ∧
    r.subscriptionUpdatesSock = [] ∧ r.stopped = none ∧ r.registered = [] ∧ r.processed = []

/-- The invariant holds where nothing has been sent. -/
theorem Fresh.inv {s : ReactorNetwork} (h : s.Fresh) : s.Inv where
  subscriptions := by
    rw [h.workerSubscriptionsSock_eq]
    exact List.forall_mem_nil _
  storeChanges := by
    rw [h.storeChangesInputSock_eq]
    exact List.forall_mem_nil _
  reactors := by
    intro r hr
    obtain ⟨hchanges, hsubscriptions, -, -, hregistered, hprocessed⟩ := h.reactors r hr
    refine ⟨hregistered, hprocessed, fun _ => ?_, fun _ => ?_⟩
    · rw [hsubscriptions]
      exact List.forall_mem_nil _
    · rw [hchanges]
      exact nofun

/-- A run of a network, to a state of the given kind. -/
structure Run (Complete : ReactorNetwork → Prop) where
  start : ReactorNetwork
  fresh : start.Fresh
  steps : List Step
  complete : Complete (start.run steps)

namespace Run

variable {Complete : ReactorNetwork → Prop}

/-- The state at the end. -/
def final (x : Run Complete) : ReactorNetwork := x.start.run x.steps

theorem inv (x : Run Complete) : x.final.Inv := x.fresh.inv.run x.steps

end Run

/-! Runs with one reactor. -/

/-- A network with one reactor, which has the given subscriptions. -/
def oneReactor (subscriptions : List PersistedStateManagerSubscriptionRecord)
    (h : (subscriptions.map PersistedStateManagerSubscriptionRecord.id).Nodup) :
    ReactorNetwork where
  reactors := [{
    manager := { subscriptionTtl := 1, subscriptions := subscriptions, nodup := h } }]

theorem fresh_oneReactor (subscriptions : List PersistedStateManagerSubscriptionRecord)
    (h : (subscriptions.map PersistedStateManagerSubscriptionRecord.id).Nodup) :
    (oneReactor subscriptions h).Fresh :=
  ⟨rfl, rfl, rfl, rfl, rfl, rfl, rfl, rfl, rfl,
    List.forall_mem_singleton.mpr ⟨rfl, rfl, rfl, rfl, rfl, rfl⟩⟩

def emptyStore : Store where
  bucketNames := []
  streamSetNames _ := []
  streamNames _ _ := []
  file _ _ _ := none

def oneProcessor : RequestProcessor where
  store := emptyStore
  impl := ServerRequestProcessor.implementation 0 []
  getStreamMaxBytes := 0
  getStreamMaxEnvelopes := 0
  lua _ _ := .finish fun _ => some .nil
  now := 0

def oneClient : Identity := ⟨[99], List.cons_ne_nil _ _⟩

def oneServer : Identity := ⟨[115], List.cons_ne_nil _ _⟩

/-- A request in the framing of the client, which a worker takes. -/
def requestSteps (request : Message) : List Step :=
  [.send oneClient [] [(Envelope.ofMessage 0 request).toProtocolZmqMessage], .transferClient 0,
    .work 0 oneServer oneProcessor (str "i")]

/-! ## Subscriptions -/

/-- The reactors that run have taken every subscription. -/
def SubscriptionsTaken (s : ReactorNetwork) : Prop :=
  s.workerSubscriptionsSock = [] ∧ ∀ r ∈ s.reactors, r.stopped = none → r.subscriptionSock = []

/-- Every subscription that was accepted was registered by one reactor, and the TTL
that was acknowledged is the one of its manager. -/
def HandedOff (s : ReactorNetwork) : Prop :=
  ∀ a ∈ s.accepted,
    (∃! i : Nat, ∃ r : PersistedStateReactor,
      s.reactors[i]? = some r ∧ r.registered.count a.registration = 1) ∧
      ∀ r ∈ s.reactors, a.registration ∈ r.registered → r.manager.subscriptionTtl = a.ttl

/-- **Subscriptions are handed off** to the reactors, each to one, if and only if there are none: in
every run of the network, a reactor cannot read what a worker sends, and ends with the first one. -/
theorem handed_off_iff (x : Run SubscriptionsTaken) :
    x.final.HandedOff ↔ x.final.accepted = [] := by
  constructor
  · intro h
    refine List.eq_nil_iff_forall_not_mem.mpr fun a ha => ?_
    -- a reactor that registered it would have registered something
    obtain ⟨i, ⟨r, hr, hcount⟩, -⟩ := (h a ha).1
    rw [(x.inv.reactors r (List.mem_of_getElem? hr)).registered_eq] at hcount
    cases hcount
  · intro hnone a ha
    rw [hnone] at ha
    cases ha

/-- A subscription that the reactor receives. -/
def oneSubscribed : Run SubscriptionsTaken where
  start := oneReactor [] List.nodup_nil
  fresh := fresh_oneReactor _ _
  steps := requestSteps (.subscribeStoreChangesV1 [str "/"]) ++
    [.transferSubscription 0 0, .pump 0 emptyStore]
  complete := ⟨by decide +kernel, by decide +kernel⟩

/-- It is acknowledged and not registered. -/
theorem not_handed_off_one : ¬ oneSubscribed.final.HandedOff := by
  intro h
  have haccepted : oneSubscribed.final.accepted =
      [⟨{ type := .storeChange, paths := [str "/"], socketIdentifiers := [[99]] }, str "i", 0⟩] := by
    decide +kernel
  have hmem := haccepted ▸ List.mem_singleton_self _
  obtain ⟨i, ⟨r, hr, hcount⟩, -⟩ := (h _ hmem).1
  rw [(oneSubscribed.inv.reactors r (List.mem_of_getElem? hr)).registered_eq] at hcount
  cases hcount

/-! ## Store changes -/

/-- The reactors that run have taken every store change. -/
def StoreChangesTaken (s : ReactorNetwork) : Prop :=
  s.storeChangesInputSock = [] ∧ ∀ r ∈ s.reactors, r.stopped = none → r.storeChangesSock = []

/-- The path that a message says was added or deleted. -/
def changedPath : Message → Option Bytes
  | .storeChangeBucketAddedV1 bucket | .storeChangeBucketDeletedV1 bucket =>
    some (Store.bucketPath bucket)
  | .storeChangeStreamSetAddedV1 c | .storeChangeStreamSetDeletedV1 c =>
    some (Store.streamsetPath c.bucket c.streamSet)
  | .storeChangeStreamAddedV1 c | .storeChangeStreamDeletedV1 c =>
    some (Store.streamPath c.bucket c.streamSet c.stream)
  | _ => none

/-- The callback is called once for each subscription to the path, and for no other. -/
def Answered (c : ProcessedChange) : Prop :=
  ∀ message path, c.e.getMessage 0 = some message → changedPath message = some path →
    c.called.Perm (c.subscriptions.filter fun subscription =>
      subscription.type = .storeChange && subscription.paths.any (·.isPrefixOf path))

/-- Every reactor processed every change once, in order, and answered it. -/
def ChangesDelivered (s : ReactorNetwork) : Prop :=
  ∀ r ∈ s.reactors, r.processed.map ProcessedChange.e = s.changes ∧ ∀ c ∈ r.processed, Answered c

theorem reactors_handle (now : UInt64) (uuid : Bytes) (n : Nat) (s : ReactorNetwork)
    (call : HandlerCall) : (handle now uuid n s call).reactors = s.reactors := by
  cases call with
  | handleSubscriptionRequest subscription =>
    rw [handle]
    split <;> rfl
  | handleSubscribeKeepalive request => rfl
  | handleWriteEnvelopes path toWrite waitForWrite => rfl

theorem reactors_foldl_handle (now : UInt64) (uuid : Bytes) (n : Nat) (calls : List HandlerCall) :
    ∀ s : ReactorNetwork, (calls.foldl (handle now uuid n) s).reactors = s.reactors := by
  induction calls with
  | nil => exact fun _ => rfl
  | cons call calls ih => exact fun s => (ih _).trans (reactors_handle now uuid n s call)

theorem reactors_processMessage (p : RequestProcessor) (uuid : Bytes) (server : Identity) (n : Nat)
    (frames : List Frame) (s : ReactorNetwork) :
    (processMessage p uuid server n frames s).reactors = s.reactors := by
  rw [processMessage]
  split
  · rfl
  · exact reactors_foldl_handle _ _ _ _ s

theorem reactor_pump {s : ReactorNetwork} {i : Nat} {r : PersistedStateReactor}
    (h : s.reactors[i]? = some r) (store : Store) :
    (s.step (.pump i store)).reactors[i]? = some (r.pump s.now store) := by
  rw [step]
  dsimp only
  rw [List.getElem?_modify, h]
  exact congrArg some (if_pos rfl)

/-- **What a step does to a reactor**: it pumps it, or puts something on its sockets
at most. -/
theorem reactors_step (s : ReactorNetwork) (st : Step) (i : Nat) :
    ∃ f : PersistedStateReactor → PersistedStateReactor,
      (s.step st).reactors[i]? = s.reactors[i]?.map f ∧
        ((∃ store, st = .pump i store ∧ f = (·.pump s.now store)) ∨
          ∀ r, (f r).manager = r.manager ∧ (f r).stopped = r.stopped) := by
  have hsame {s' : ReactorNetwork} (h : s'.reactors = s.reactors) :
      ∃ f : PersistedStateReactor → PersistedStateReactor,
        s'.reactors[i]? = s.reactors[i]?.map f ∧
          ((∃ store, st = .pump i store ∧ f = (·.pump s.now store)) ∨
            ∀ r, (f r).manager = r.manager ∧ (f r).stopped = r.stopped) :=
    ⟨id, by rw [h, Option.map_id, id_eq], .inr fun _ => ⟨rfl, rfl⟩⟩
  cases st with
  | wait microseconds => exact hsame rfl
  | send client part parts => exact hsame rfl
  | renewSubscriptions client now ids => exact hsame rfl
  | transferClient j =>
    rw [step]
    split <;> exact hsame rfl
  | work j server p uuid =>
    rw [step]
    split
    · exact hsame rfl
    · exact hsame (reactors_processMessage _ _ _ _ _ _)
  | transferSubscription j reactor =>
    rw [step]
    split
    · exact hsame rfl
    · split
      · dsimp only
        rw [List.getElem?_modify]
        refine ⟨_, rfl, .inr fun r => ?_⟩
        -- the message is for one reactor only
        split <;> exact ⟨rfl, rfl⟩
      · exact hsame rfl
  | transferNotify j =>
    rw [step]
    split
    · exact hsame rfl
    · exact ⟨_, List.getElem?_map, .inr fun _ => ⟨rfl, rfl⟩⟩
  | watch now change =>
    rw [step]
    split <;> exact hsame rfl
  | transferStoreChange =>
    rw [step]
    split
    · exact hsame rfl
    · exact ⟨_, List.getElem?_map, .inr fun _ => ⟨rfl, rfl⟩⟩
  | pump reactor store =>
    rw [step]
    dsimp only
    rw [List.getElem?_modify]
    refine ⟨_, rfl, ?_⟩
    by_cases hi : reactor = i
    · exact .inl ⟨store, by rw [hi], funext fun _ => if_pos hi⟩
    · refine .inr fun r => ?_
      rw [if_neg hi]
      exact ⟨rfl, rfl⟩

theorem length_reactors_step (s : ReactorNetwork) (st : Step) :
    (s.step st).reactors.length = s.reactors.length := by
  have hnone (i : Nat) : (s.step st).reactors[i]? = none ↔ s.reactors[i]? = none := by
    obtain ⟨f, hf, -⟩ := reactors_step s st i
    rw [hf, Option.map_eq_none_iff]
  simp only [List.getElem?_eq_none_iff] at hnone
  exact Nat.le_antisymm ((hnone _).mpr (Nat.le_refl _)) ((hnone _).mp (Nat.le_refl _))

theorem length_reactors_run (steps : List Step) :
    ∀ s : ReactorNetwork, (s.run steps).reactors.length = s.reactors.length := by
  induction steps with
  | nil => exact fun _ => rfl
  | cons st steps ih => exact fun s => (ih _).trans (length_reactors_step s st)

/-- **Store changes are delivered** to the reactors, each change to each of them, if and only if
there are none of the one or of the other: a reactor takes the frame in front for the envelope. -/
theorem changes_delivered_iff (x : Run StoreChangesTaken) :
    x.final.ChangesDelivered ↔ x.final.changes = [] ∨ x.start.reactors = [] := by
  have hlength := length_reactors_run x.steps x.start
  constructor
  · intro h
    cases hreactors : x.final.reactors with
    | nil =>
      rw [show x.start.run x.steps = x.final from rfl, hreactors] at hlength
      exact .inr (List.eq_nil_of_length_eq_zero hlength.symm)
    | cons r rs =>
      have hr : r ∈ x.final.reactors := hreactors ▸ List.mem_cons_self
      have hprocessed := (h r hr).1
      rw [(x.inv.reactors r hr).processed_eq] at hprocessed
      exact .inl hprocessed.symm
  · intro h r hr
    have hprocessed := (x.inv.reactors r hr).processed_eq
    rw [hprocessed]
    refine ⟨?_, List.forall_mem_nil _⟩
    rcases h with hnone | hnone
    · exact hnone.symm
    · rw [hnone] at hlength
      have hnil : x.final.reactors = [] := List.eq_nil_of_length_eq_zero hlength
      rw [hnil] at hr
      cases hr

/-- A bucket that is added. -/
def oneAdded : Run StoreChangesTaken where
  start := oneReactor [] List.nodup_nil
  fresh := fresh_oneReactor _ _
  steps := [.watch 0 (.added (str "/b")), .transferStoreChange, .pump 0 emptyStore]
  complete := ⟨by decide +kernel, by decide +kernel⟩

/-- The reactor ends with an exception. -/
theorem not_changes_delivered_one : ¬ oneAdded.final.ChangesDelivered := by
  intro h
  have hreactors : oneAdded.final.reactors.length = 1 := by decide +kernel
  have hchanges : oneAdded.final.changes.length = 1 := by decide +kernel
  obtain ⟨r, hr⟩ := List.exists_mem_of_length_pos (by rw [hreactors]; exact Nat.one_pos)
  have hprocessed := congrArg List.length (h r hr).1
  rw [(oneAdded.inv.reactors r hr).processed_eq, hchanges] at hprocessed
  cases hprocessed

/-! ## Keepalives -/

/-- A message of a client, or what a worker sends for it, is on its way to the
reactors. -/
def InFlight (s : ReactorNetwork) (n : Nat) : Prop :=
  n ∈ (s.clientsSock ++ s.workersSock ++ s.workerStreamingNotifySock).map Prod.fst

instance (s : ReactorNetwork) (n : Nat) : Decidable (s.InFlight n) :=
  inferInstanceAs (Decidable (n ∈ _))

/-- A keepalive goes off the last hop while the timer of a subscription that it names
has not elapsed, and then the reactor that has the subscription is pumped. -/
structure Renewal where
  start : ReactorNetwork
  fresh : start.Fresh
  before : List Step
  /-- the step that the keepalive goes off with -/
  arrival : Step
  between : List Step
  reactor : Nat
  store : Store
  n : Nat
  ids : List Bytes
  sent : (n, ids) ∈ (start.run before).renewals
  inFlight : (start.run before).InFlight n
  arrived : ¬ ((start.run before).step arrival).InFlight n
  r : PersistedStateReactor
  reactor_eq : ((start.run before).step arrival).reactors[reactor]? = some r
  running : r.stopped = none
  record : PersistedStateManagerSubscriptionRecord
  subscribed : record ∈ r.manager.subscriptions
  named : record.id ∈ ids
  in_time : record.expirationTimer.signaled ((start.run before).step arrival).now = false
  next : ∀ store, .pump reactor store ∉ between

namespace Renewal

/-- The state in which the reactor is pumped. -/
def waiting (x : Renewal) : ReactorNetwork := ((x.start.run x.before).step x.arrival).run x.between

/-- The reactor still has the subscription after it was pumped. -/
def Kept (x : Renewal) : Prop :=
  ∃ r, (x.waiting.step (.pump x.reactor x.store)).reactors[x.reactor]? = some r ∧
    r.manager.hasSubscription x.record.id = true

end Renewal

/-- Until it is pumped, the manager of a reactor stays as it is. -/
theorem reactor_run {i : Nat} (steps : List Step) :
    ∀ {s : ReactorNetwork} {r : PersistedStateReactor}, s.reactors[i]? = some r →
      (∀ store, .pump i store ∉ steps) →
      ∃ r', (s.run steps).reactors[i]? = some r' ∧ r'.manager = r.manager ∧
        r'.stopped = r.stopped := by
  induction steps with
  | nil => exact fun h _ => ⟨_, h, rfl, rfl⟩
  | cons st steps ih =>
    intro s r h hnext
    obtain ⟨f, hf, ⟨store, rfl, -⟩ | hsame⟩ := reactors_step s st i
    · exact absurd List.mem_cons_self (hnext store)
    · obtain ⟨hmanager, hstopped⟩ := hsame r
      rw [h] at hf
      obtain ⟨r', hr', hmanager', hstopped'⟩ :=
        ih hf fun store hmem => hnext store (List.mem_cons_of_mem _ hmem)
      exact ⟨r', hr', hmanager'.trans hmanager, hstopped'.trans hstopped⟩

/-- The pump removes what has expired since the registration, and that is all. -/
theorem manager_pumped (x : Renewal) :
    ∃ r, (x.waiting.step (.pump x.reactor x.store)).reactors[x.reactor]? = some r ∧
      r.manager = x.r.manager.removeExpiredSubscriptions x.waiting.now := by
  have hinv : x.waiting.Inv := Inv.run _ (Inv.step (x.fresh.inv.run x.before) x.arrival)
  obtain ⟨r, hr, hmanager, hstopped⟩ := reactor_run x.between x.reactor_eq x.next
  have hidle := hinv.reactors r (List.mem_of_getElem? hr)
  obtain ⟨-, hpump⟩ := hidle.pump_spec (hstopped.trans x.running) x.waiting.now x.store
  rw [hmanager] at hpump
  exact ⟨_, reactor_pump hr x.store, hpump⟩

/-- The subscription is kept where the manager has it behind the removal of what has expired. -/
theorem kept_iff_hasSubscription (x : Renewal) :
    x.Kept ↔
      (x.r.manager.removeExpiredSubscriptions x.waiting.now).hasSubscription x.record.id = true := by
  obtain ⟨r, hr, hmanager⟩ := manager_pumped x
  rw [← hmanager]
  constructor
  · rintro ⟨r', hr', hkept⟩
    obtain rfl := Option.some.inj (hr.symm.trans hr')
    exact hkept
  · exact fun hkept => ⟨r, hr, hkept⟩

/-- **A keepalive keeps a subscription** if and only if it would be kept without one: the timer that
was started when it was registered has not elapsed when the reactor is pumped. No reactor reads the
socket that keepalives come to. -/
theorem kept_iff (x : Renewal) :
    x.Kept ↔ x.record.expirationTimer.signaled x.waiting.now = false := by
  rw [kept_iff_hasSubscription]
  exact PersistedStateManager.hasSubscription_removeExpired x.subscribed x.waiting.now

/-- A subscription that was registered when the clock was at zero. -/
def oneRecord : PersistedStateManagerSubscriptionRecord where
  si := { type := .storeChange, id := str "i", paths := [str "/"] }
  expirationTimer := ⟨1000, some 0⟩

/-- A keepalive of `RenewSubscriptions`, which a worker drops. -/
def oneRenewal : Renewal where
  start := oneReactor [oneRecord] (List.nodup_singleton _)
  fresh := fresh_oneReactor _ _
  before := [.wait 600, .renewSubscriptions oneClient 0 [str "i"], .transferClient 0]
  arrival := .work 0 oneServer oneProcessor []
  between := [.wait 600]
  reactor := 0
  store := emptyStore
  n := 0
  ids := [str "i"]
  sent := by decide +kernel
  inFlight := by decide +kernel
  arrived := by decide +kernel
  r := { manager := ⟨1, [oneRecord], List.nodup_singleton _, fun _ => none⟩ }
  reactor_eq := rfl
  running := rfl
  record := oneRecord
  subscribed := List.mem_singleton_self _
  named := List.mem_singleton_self _
  in_time := by decide +kernel
  next := by
    intro store h
    cases List.mem_singleton.mp h

/-- A keepalive in the framing of other requests, which waits at the reactor. -/
def oneDelivered : Renewal where
  start := oneReactor [oneRecord] (List.nodup_singleton _)
  fresh := fresh_oneReactor _ _
  before := .wait 600 :: requestSteps (.subscribeKeepaliveV1 [str "i"])
  arrival := .transferNotify 0
  between := [.wait 600]
  reactor := 0
  store := emptyStore
  n := 0
  ids := [str "i"]
  sent := by decide +kernel
  inFlight := by decide +kernel
  arrived := by decide +kernel
  r := {
    manager := ⟨1, [oneRecord], List.nodup_singleton _, fun _ => none⟩
    subscriptionUpdatesSock :=
      ZeroMQ.sendEnvelopePtr (Envelope.ofMessage 0 (.subscribeKeepaliveV1 [str "i"])) false }
  reactor_eq := rfl
  running := rfl
  record := oneRecord
  subscribed := List.mem_singleton_self _
  named := List.mem_singleton_self _
  in_time := by decide +kernel
  next := by
    intro store h
    cases List.mem_singleton.mp h

/-- Neither of them keeps the subscription. -/
theorem not_kept_one : ¬ oneRenewal.Kept ∧ ¬ oneDelivered.Kept := by
  rw [kept_iff_hasSubscription, kept_iff_hasSubscription]
  decide +kernel

end ReactorNetwork

end Zippylog
