import Mathlib.Data.List.Induction
import Zippylog.ClientProof
import Zippylog.ClientRunProof

/-!
# Synchronous calls

The entry that a synchronous call makes in `outstanding` has the address of a variable
of the caller, and so has the subscription that comes of it. `Ping` is the exception: it
has nothing to return, and its entry has no pointer.

- `answeredRequest`: the request that a message is taken to answer, from its bytes.
- `lookup_eq_some_iff`: a request is outstanding from when it is sent to when a message
  that answers it is processed, in every run.
- `Ended`: the call has returned or thrown.
- `NoDangling`: nothing of the client leads to its variable any more, and no step calls
  its callback with it.
- `noDangling_iff`: this holds in all runs in which an answer arrives in time, before the
  timer is signaled or an exception goes through the call, and only in these.
-/

namespace Zippylog

open Wire

/-- The request that a message is taken to answer: the first tag of an envelope whose
message is of one of the types that `ProcessResponseMessage` looks a request up for. -/
def answeredRequest : List Bytes → Option Bytes
  | [] => none
  | first :: _ =>
    match Envelope.ofZmqMessage first 1 with
    | .error _ => none
    | .ok e =>
      if e.messageCount < 1 ∨ e.messageNamespace.head? ≠ some 1 then none
      else match e.messageType.head?.bind MessageType.ofEnumeration? with
        | none => none
        | some type => if type ∈ Client.routed then e.tag.head? else none

namespace Client

/-- `outstanding` without the request that a message is taken to answer. -/
def outstandingAfter (c : Client) (answered : Option Bytes) (id : Bytes) :
    Option OutstandingRequest :=
  match answered with
  | none => c.outstanding.lookup id
  | some id' => (c.outstanding.erase id').lookup id

theorem outstandingAfter_of_ne {c : Client} {answered : Option Bytes} {id : Bytes}
    (h : answered ≠ some id) : c.outstandingAfter answered id = c.outstanding.lookup id := by
  cases answered with
  | none => rfl
  | some id' => exact AList.lookup_erase_ne fun heq => h (congrArg some heq.symm)

/-- An answer takes its request away, whatever is made of it. -/
theorem lookup_handleRequestResponse (c : Client) (e : Envelope) (type : MessageType)
    (messages : List Bytes) (id : Bytes) :
    (c.handleRequestResponse e type messages).2.outstanding.lookup id =
      c.outstandingAfter e.tag.head? id := by
  rw [handleRequestResponse]
  cases e.tag with
  | nil => rfl
  | cons id₀ tags =>
    rw [List.head?_cons, outstandingAfter]
    cases hreq : c.outstanding.lookup id₀ with
    | none =>
      simp only [hreq]
      by_cases heq : id = id₀
      · rw [heq, AList.lookup_erase, hreq]
      · rw [AList.lookup_erase_ne heq]
    | some req =>
      simp only [hreq]
      rw [(handleMessage_answersWith _ req e type messages).1]

/-- A message takes the request that it answers from `outstanding`, and no other. -/
theorem lookup_processResponseMessage (c : Client) (messages : List Bytes) (id : Bytes) :
    (c.processResponseMessage messages).2.outstanding.lookup id =
      c.outstandingAfter (answeredRequest messages) id := by
  cases messages with
  | nil => rfl
  | cons first rest =>
    rw [processResponseMessage, answeredRequest]
    cases Envelope.ofZmqMessage first 1 with
    | error e => rfl
    | ok e =>
      simp only
      by_cases hcount : e.messageCount < 1
      · rw [if_pos hcount, if_pos (Or.inl hcount)]
        rfl
      rw [if_neg hcount]
      cases hns : e.messageNamespace with
      | nil =>
        have hone : ([] : List UInt32).head? ≠ some 1 := by decide
        rw [if_pos (Or.inr hone)]
        rfl
      | cons ns nss =>
        by_cases hone : ns = 1
        · subst hone
          rw [List.head?_cons, if_neg (not_or_intro hcount (not_not_intro rfl))]
          simp only [if_neg (not_not_intro rfl)]
          cases e.messageType with
          | nil => rfl
          | cons enumeration types =>
            simp only [List.head?_cons, Option.bind_some]
            cases MessageType.ofEnumeration? enumeration with
            | none => rfl
            | some type =>
              cases type with
              | subscriptionStartV1 =>
                rw [show c.outstandingAfter
                  (if MessageType.subscriptionStartV1 ∈ routed then e.tag.head? else none) id =
                    c.outstanding.lookup id from rfl]
                simp only
                split
                · rename_i sid hm
                  cases hsub : c.subscriptions.lookup sid with
                  | none => rfl
                  | some sub =>
                    obtain ⟨calls, hrun, -⟩ := handleSubscriptionResponse_calls c e sid sub rest
                    exact congrArg (fun c => c.outstanding.lookup id) hrun
                · rfl
              | pongV1 | storeInfoV1 | streamSegmentStartV1 | subscriptionAcceptAckV1 =>
                exact lookup_handleRequestResponse c e _ (first :: rest) id
              | _ => rfl
        · rw [List.head?_cons, if_pos (Or.inr fun h => hone (Option.some.inj h))]
          simp only [if_pos hone]
          rfl

/-- What a message does to the subscriptions: it leaves them alone, or answers a request
and adds one with the data of the request. -/
inductive Subscribed (c : Client) (messages : List Bytes) (result : Except Fault Bool)
    (c' : Client) : Prop where
  | same (hsubscriptions : c'.subscriptions = c.subscriptions)
  | added (id : Bytes) (req : OutstandingRequest) (ack : SubscriptionAcceptAckV1)
      (sub : Subscription) (htag : firstTag messages = some id)
      (hreq : c.outstanding.lookup id = some req)
      (hsubscriptions : c'.subscriptions = c.subscriptions.insert ack.id sub)
      (hdata : sub.data = req.data) (hcb : sub.cb = req.callbacks)
      (hcalls : (∃ callback, c'.calls = [.subscription callback ack req.data]) ∨
        c'.calls = [] ∧ result = .error .assertion)

theorem callAsserted_subscriptions (c : Client) (callback : Pointer) (f : Nat → Call) :
    (c.callAsserted callback f).2.subscriptions = c.subscriptions := by
  cases callback <;> rfl

/-- The handler of a response adds no subscription but for a `SubscriptionAcceptAckV1`. -/
theorem handleMessage_subscriptions (c : Client) (req : OutstandingRequest) (e : Envelope)
    (type : MessageType) (messages : List Bytes) :
    (c.handleMessage req e type messages).2.subscriptions = c.subscriptions ∨
      ∃ ack sub, (c.handleMessage req e type messages).2.subscriptions =
          c.subscriptions.insert ack.id sub ∧ sub.data = req.data ∧ sub.cb = req.callbacks ∧
        ((∃ callback, (c.handleMessage req e type messages).2.calls =
            c.calls ++ [.subscription callback ack req.data]) ∨
          (c.handleMessage req e type messages).2.calls = c.calls ∧
            (c.handleMessage req e type messages).1 = .error .assertion) := by
  unfold handleMessage
  split
  · exact Or.inl (callAsserted_subscriptions _ _ _)
  · exact Or.inl (callAsserted_subscriptions _ _ _)
  · exact Or.inl (callAsserted_subscriptions _ _ _)
  · exact Or.inl (callAsserted_subscriptions _ _ _)
  · exact Or.inl (callAsserted_subscriptions _ _ _)
  · split_ifs
    · exact Or.inl rfl
    · split
      · exact Or.inl rfl
      · exact Or.inl (callAsserted_subscriptions _ _ _)
  · rename_i ack hack
    dsimp only
    split_ifs
    · exact Or.inl rfl
    · refine Or.inr ⟨ack, _, callAsserted_subscriptions _ _ _, rfl, rfl, ?_⟩
      cases req.cbSubscription with
      | none => exact Or.inr ⟨rfl, rfl⟩
      | some callback => exact Or.inl ⟨callback, rfl⟩
  all_goals exact Or.inl rfl

/-- A response enters a subscription in the client for an accepted request only, with the callbacks
of that request. -/
theorem subscribed_processResponseMessage (c : Client) (messages : List Bytes) :
    Subscribed c messages ({ c with calls := [] }.processResponseMessage messages).1
      ({ c with calls := [] }.processResponseMessage messages).2 := by
  unfold processResponseMessage
  split
  · exact .same rfl
  · rename_i first rest
    split
    · exact .same rfl
    · rename_i e he
      have htag : firstTag (first :: rest) = e.tag.head? := by
        rw [firstTag, he]
      have hrequest : ∀ type, Subscribed c (first :: rest)
          ({ c with calls := [] }.handleRequestResponse e type (first :: rest)).1
          ({ c with calls := [] }.handleRequestResponse e type (first :: rest)).2 := by
        intro type
        rw [handleRequestResponse]
        split
        · exact .same rfl
        · rename_i id tags htags
          split
          · exact .same rfl
          · rename_i req hreq
            rcases handleMessage_subscriptions
              { c with calls := [], outstanding := c.outstanding.erase id } req e type
              (first :: rest) with hsame | ⟨ack, sub, hsub, hdata, hcb, hcalls⟩
            · exact .same hsame
            · refine .added id req ack sub ?_ hreq hsub hdata hcb hcalls
              rw [htag, htags]
              rfl
      split_ifs
      · exact .same rfl
      · split
        · exact .same rfl
        · split_ifs
          · exact .same rfl
          · split
            · exact .same rfl
            · split
              · split
                · split
                  · exact .same rfl
                  · rename_i sub hsub
                    obtain ⟨calls, hrun, hcalls⟩ := handleSubscriptionResponse_calls
                      { c with calls := [] } e _ sub rest
                    refine .same ?_
                    rw [hrun]
                · exact .same rfl
              · exact hrequest .pongV1
              · exact hrequest .storeInfoV1
              · exact hrequest .streamSegmentStartV1
              · exact hrequest .subscriptionAcceptAckV1
              · exact .same rfl

end Client

/-- The event is a call of the callback of a request, with a pointer. -/
def Event.passesFor (id : Bytes) : Event → Bool
  | .called _ (some req) call => call.answers && req.id == id && call.data.isSome
  | _ => false

namespace ClientRun

variable {uuid : Nat → Bytes} {s : ClientRun}

/-- The callback of a subscription has reported it to the caller. -/
def Accepted (s : ClientRun) (id : Bytes) : Prop :=
  ∃ tag req callback ack data,
    .called tag (some req) (.subscription callback ack data) ∈ s.events ∧ req.id = id

/-- A synchronous call that waited has returned or thrown. -/
structure Ended (s : ClientRun) (id : Bytes) : Prop where
  waits : .waits id ∈ s.events
  gone : id ∉ waiting s.stack
  running : s.stack ≠ []

/-- Nothing leads to the result of a call. Its request is not outstanding with a pointer;
a subscription with a pointer is one of another request, unless it was reported accepted;
and no step calls the callback of the request with a pointer. -/
structure NoDangling (uuid : Nat → Bytes) (s : ClientRun) (id : Bytes) : Prop where
  outstanding : ∀ req, s.client.outstanding.lookup id = some req → req.data = none
  subscriptions : ¬ s.Accepted id → ∀ sid sub, s.client.subscriptions.lookup sid = some sub →
    sub.data ≠ none →
    ∃ id' req, id' ≠ id ∧ .sent id' req ∈ s.events ∧ sub.data = req.data ∧ sub.cb = req.callbacks
  uncalled : ∀ a, (s.step uuid a).events.countP (Event.passesFor id) =
    s.events.countP (Event.passesFor id)

/-- A message that answers a request was processed since the request was sent. -/
def Arrived (uuid : Nat → Bytes) (past : List Action) (id : Bytes) : Prop :=
  ∃ before messages after req, past = before ++ .pump messages :: after ∧
    (run uuid before).Pumps ∧ .sent id req ∈ (run uuid before).events ∧
    answeredRequest messages = some id

/-- An answer has arrived for every call with a result that a step ends by its timer or
by an exception. -/
def SafeStep (uuid : Nat → Bytes) (past : List Action) (a : Action) : Prop :=
  ∀ id ∈ (run uuid past).interrupted a, ∀ req, .sent id req ∈ (run uuid past).events →
    req.data ≠ none → Arrived uuid past id

/-! ## All runs -/

theorem Accepted.mono {s' : ClientRun} {id : Bytes} (h : s.Accepted id)
    (hevents : s.events ⊆ s'.events) : s'.Accepted id := by
  obtain ⟨tag, req, callback, ack, data, hmem, hid⟩ := h
  exact ⟨tag, req, callback, ack, data, hevents hmem, hid⟩

/-- A subscription that carries the data of a request, which is accepted or about to be. -/
def Origin (s : ClientRun) (sub : Subscription) : Prop :=
  ∃ id req, .sent id req ∈ s.events ∧ sub.data = req.data ∧ sub.cb = req.callbacks ∧
    (s.Accepted id ∨ ∀ activity ∈ s.stack.head?, activity.Reports id)

/-- What holds of the frames in any run. -/
structure Frames (uuid : Nat → Bytes) (s : ClientRun) : Prop extends Inv uuid s where
  base : s.stack = [] ∨ s.stack.getLast? = some .code
  waits : ∀ id ∈ waiting s.stack, .waits id ∈ s.events
  nodup : (waiting s.stack).Nodup
  unsent : ∀ n, s.generated ≤ n → ∀ req, .sent (uuid n) req ∉ s.events
  unique : ∀ id req req', .sent id req ∈ s.events → .sent id req' ∈ s.events → req = req'
  unawaited : ∀ n, s.generated ≤ n → .waits (uuid n) ∉ s.events
  processing : ∀ tag req pending result,
    .processing tag (some req) pending result ∈ s.stack → .sent req.id req ∈ s.events
  origin : ∀ sid sub, s.client.subscriptions.lookup sid = some sub → s.Origin sub

/-- A new client is in no call. -/
theorem frames_init : Frames uuid {} where
  toInv := inv_init
  base := Or.inr rfl
  waits id h := absurd h List.not_mem_nil
  nodup := List.nodup_nil
  unsent n hn req h := absurd h List.not_mem_nil
  unique id req req' h := absurd h List.not_mem_nil
  unawaited n hn h := absurd h List.not_mem_nil
  processing tag req pending result h := by simp at h
  origin sid sub h := by cases h

/-- An identifier that was made and not used stays unused. -/
theorem Frames.skip (h : Frames uuid s) : Frames uuid { s with generated := s.generated + 1 } where
  toInv := h.toInv.skip
  base := h.base
  waits := h.waits
  nodup := h.nodup
  unsent n hn := h.unsent n (Nat.le_of_succ_le hn)
  unique := h.unique
  unawaited n hn := h.unawaited n (Nat.le_of_succ_le hn)
  processing := h.processing
  origin := h.origin

/-- A request that is sent has an identifier that no other one had. -/
theorem Frames.send (huuid : Function.Injective uuid) (h : Frames uuid s) (e : Envelope)
    (req : OutstandingRequest) : Frames uuid (s.send uuid e req) where
  toInv := h.toInv.send huuid e req
  base := h.base
  waits id hid := List.mem_append_left _ (h.waits id hid)
  nodup := h.nodup
  unsent n hn r hmem := by
    rcases List.mem_append.mp hmem with hmem | hmem
    · exact h.unsent n (Nat.le_of_succ_le hn) r hmem
    · have heq := (Event.sent.inj (List.mem_singleton.mp hmem)).1
      exact absurd (huuid heq) (Nat.ne_of_gt hn)
  unique id r r' hmem hmem' := by
    rcases List.mem_append.mp hmem with hmem | hmem <;>
      rcases List.mem_append.mp hmem' with hmem' | hmem'
    · exact h.unique id r r' hmem hmem'
    · obtain ⟨rfl, rfl⟩ := Event.sent.inj (List.mem_singleton.mp hmem')
      exact absurd hmem (h.unsent s.generated (Nat.le_refl _) r)
    · obtain ⟨rfl, rfl⟩ := Event.sent.inj (List.mem_singleton.mp hmem)
      exact absurd hmem' (h.unsent s.generated (Nat.le_refl _) r')
    · rw [(Event.sent.inj (List.mem_singleton.mp hmem)).2,
        (Event.sent.inj (List.mem_singleton.mp hmem')).2]
  unawaited n hn hmem := by
    rcases List.mem_append.mp hmem with hmem | hmem
    · exact h.unawaited n (Nat.le_of_succ_le hn) hmem
    · cases List.mem_singleton.mp hmem
  processing tag r pending result hmem :=
    List.mem_append_left _ (h.processing tag r pending result hmem)
  origin sid sub hsub := by
    obtain ⟨id, r, hsent, hdata, hcb, hreports⟩ := h.origin sid sub hsub
    exact ⟨id, r, List.mem_append_left _ hsent, hdata, hcb,
      hreports.imp_left fun hacc => hacc.mono (List.subset_append_left _ _)⟩

/-- A synchronous call is made by code: nothing is being reported. -/
theorem Frames.sendSynchronous (huuid : Function.Injective uuid) (h : Frames uuid s)
    (e : Envelope) (req : OutstandingRequest) (haveTimer : Bool)
    (hstack : s.stack.head? = some .code) :
    Frames uuid ((s.send uuid e req).wait (uuid s.generated) haveTimer) := by
  have hsend := h.send huuid e req
  exact {
    toInv := hsend.toInv.wait _ haveTimer
    base := by
      refine Or.inr ?_
      rcases h.base with hnil | hcode
      · rw [hnil] at hstack
        cases hstack
      · obtain ⟨above, habove⟩ := List.getLast?_eq_some_iff.mp hcode
        exact List.getLast?_eq_some_iff.mpr ⟨_ :: above, congrArg (_ :: ·) habove⟩
    waits := fun id hid => by
      rcases List.mem_cons.mp hid with heq | hid
      · rw [heq]
        exact List.mem_append_right _ List.mem_cons_self
      · exact List.mem_append_left _ (hsend.waits id hid)
    -- no call waits for an identifier that was not given out yet
    nodup := by
      refine List.nodup_cons.mpr ⟨fun hmem => ?_, h.nodup⟩
      exact h.unawaited s.generated (Nat.le_refl _) (h.waits _ hmem)
    unsent := fun n hn r hmem => by
      rcases List.mem_append.mp hmem with hmem | hmem
      · exact hsend.unsent n hn r hmem
      · cases List.mem_singleton.mp hmem
    unique := fun id r r' hmem hmem' => by
      rcases List.mem_append.mp hmem with hmem | hmem
      · rcases List.mem_append.mp hmem' with hmem' | hmem'
        · exact hsend.unique id r r' hmem hmem'
        · cases List.mem_singleton.mp hmem'
      · cases List.mem_singleton.mp hmem
    unawaited := fun n hn hmem => by
      rcases List.mem_append.mp hmem with hmem | hmem
      · exact hsend.unawaited n hn hmem
      · have heq := Event.waits.inj (List.mem_singleton.mp hmem)
        exact absurd (huuid heq) (Nat.ne_of_gt hn)
    processing := fun tag r pending result hmem => by
      rcases List.mem_cons.mp hmem with heq | hmem
      · cases heq
      · exact List.mem_append_left _ (hsend.processing tag r pending result hmem)
    origin := fun sid sub hsub => by
      obtain ⟨id, r, hsent, hdata, hcb, hreports⟩ := hsend.origin sid sub hsub
      refine ⟨id, r, List.mem_append_left _ hsent, hdata, hcb, Or.inl ?_⟩
      rcases hreports with hacc | hreports
      · exact hacc.mono (List.subset_append_left _ _)
      · exact absurd (hreports .code hstack) fun h => h }

/-- What only takes frames off the stack. -/
theorem Frames.pop (h : Frames uuid s) {removed stack : List Activity}
    (hstack : s.stack = removed ++ stack)
    (hreports : stack = [] ∨ ∃ activity ∈ removed.head?, ∀ id, ¬ activity.Reports id) :
    Frames uuid { s with stack := stack } := by
  have hsuffix : stack <:+ s.stack := ⟨removed, hstack.symm⟩
  exact {
    toInv := h.toInv.pop hsuffix.sublist
    base := by
      refine or_iff_not_imp_left.mpr fun hne => ?_
      rcases h.base with hnil | hcode
      · rw [hnil] at hsuffix
        exact absurd (List.suffix_nil.mp hsuffix) hne
      · rw [hstack, List.getLast?_append_of_ne_nil _ hne] at hcode
        exact hcode
    waits := fun id hid => h.waits id (hsuffix.sublist.filterMap _ |>.subset hid)
    nodup := h.nodup.sublist (hsuffix.sublist.filterMap _)
    unsent := h.unsent
    unique := h.unique
    unawaited := h.unawaited
    processing := fun tag req pending result hmem =>
      h.processing tag req pending result (hsuffix.subset hmem)
    origin := fun sid sub hsub => by
      obtain ⟨id, r, hsent, hdata, hcb, hor⟩ := h.origin sid sub hsub
      refine ⟨id, r, hsent, hdata, hcb, ?_⟩
      rcases hreports with hnil | ⟨activity, hhead, hnot⟩
      · refine Or.inr fun activity hactivity => ?_
        dsimp only at hactivity
        rw [hnil] at hactivity
        cases hactivity
      · refine hor.imp_right fun hall => absurd (hall activity ?_) (hnot id)
        rw [hstack, List.head?_append, Option.mem_def.mp hhead]
        rfl }

/-- The next callback: if it is the one of a subscription, it reports it. -/
theorem Frames.call (h : Frames uuid s) {tag : Option Bytes} {req : Option OutstandingRequest}
    {call : Call} {pending : List Call} {result : Except Fault Bool} {rest : List Activity}
    (hstack : s.stack = .processing tag req (call :: pending) result :: rest) :
    Frames uuid { s with
      stack := .code :: .processing tag req pending result :: rest
      events := s.events ++ [.called tag req (call.reread s.client)] } := by
  have hwaiting : waiting (.code :: .processing tag req pending result :: rest) =
      waiting s.stack := by
    rw [hstack]
    rfl
  exact {
    toInv := h.toInv.call hstack
    base := by
      refine Or.inr ?_
      rcases h.base with hnil | hcode
      · rw [hnil] at hstack
        cases hstack
      · rw [hstack] at hcode
        have hrest := getLast?_tail rfl hcode
        obtain ⟨above, habove⟩ := List.getLast?_eq_some_iff.mp hrest
        exact List.getLast?_eq_some_iff.mpr ⟨_ :: _ :: above, congrArg (_ :: _ :: ·) habove⟩
    waits := fun id hid => by
      rw [hwaiting] at hid
      exact List.mem_append_left _ (h.waits id hid)
    nodup := by
      rw [hwaiting]
      exact h.nodup
    unsent := fun n hn r hmem => by
      rcases List.mem_append.mp hmem with hmem | hmem
      · exact h.unsent n hn r hmem
      · cases List.mem_singleton.mp hmem
    unique := fun id r r' hmem hmem' => by
      rcases List.mem_append.mp hmem with hmem | hmem
      · rcases List.mem_append.mp hmem' with hmem' | hmem'
        · exact h.unique id r r' hmem hmem'
        · cases List.mem_singleton.mp hmem'
      · cases List.mem_singleton.mp hmem
    unawaited := fun n hn hmem => by
      rcases List.mem_append.mp hmem with hmem | hmem
      · exact h.unawaited n hn hmem
      · cases List.mem_singleton.mp hmem
    processing := fun tag' r pending' result' hmem => by
      refine List.mem_append_left _ ?_
      rcases List.mem_cons.mp hmem with heq | hmem
      · cases heq
      · rcases List.mem_cons.mp hmem with heq | hmem
        · cases heq
          exact h.processing tag r (call :: pending) result (by rw [hstack]; exact List.mem_cons_self)
        · exact h.processing tag' r pending' result'
            (by rw [hstack]; exact List.mem_cons_of_mem _ hmem)
    -- a subscription whose acceptance was about to be told is told of now
    origin := fun sid sub hsub => by
      obtain ⟨id, r, hsent, hdata, hcb, hor⟩ := h.origin sid sub hsub
      refine ⟨id, r, List.mem_append_left _ hsent, hdata, hcb, Or.inl ?_⟩
      rcases hor with hacc | hreports
      · exact hacc.mono (List.subset_append_left _ _)
      · have htop := hreports _ (by rw [hstack]; rfl)
        cases req with
        | none => exact absurd htop fun h => h
        | some r' =>
          obtain ⟨hid, ⟨callback, ack, data, hpending⟩ | ⟨hpending, -⟩⟩ := htop
          · cases hpending
            exact ⟨tag, r', callback, ack, data,
              List.mem_append_right _ List.mem_cons_self, hid⟩
          · cases hpending }

/-- A message answers a request that was outstanding, and the subscription it adds is
about to be reported. -/
theorem Frames.process (h : Frames uuid s) (messages : List Bytes) (hpumps : s.Pumps) :
    Frames uuid (s.process messages) := by
  have hstack := hpumps.head
  have hinv := h.toInv.process messages
  have hsubscribed := s.client.subscribed_processResponseMessage messages
  rw [ClientRun.process] at hinv ⊢
  cases hp : { s.client with calls := [] }.processResponseMessage messages with
  | mk result client =>
  rw [hp] at hinv hsubscribed
  dsimp only at hinv hsubscribed ⊢
  exact {
    toInv := hinv
    base := by
      refine Or.inr ?_
      rcases h.base with hnil | hcode
      · obtain ⟨activity, rest, hcons, -⟩ := hstack
        rw [hnil] at hcons
        cases hcons
      · obtain ⟨above, habove⟩ := List.getLast?_eq_some_iff.mp hcode
        exact List.getLast?_eq_some_iff.mpr ⟨_ :: above, congrArg (_ :: ·) habove⟩
    waits := h.waits
    nodup := h.nodup
    unsent := h.unsent
    unique := h.unique
    unawaited := h.unawaited
    processing := fun tag r pending result' hmem => by
      rcases List.mem_cons.mp hmem with heq | hmem
      · injection heq with htag hr
        obtain ⟨id, hid, hlookup⟩ := Option.bind_eq_some_iff.mp hr.symm
        obtain ⟨heq, hsent⟩ := h.toInv.outstanding id r hlookup
        rw [heq]
        exact hsent
      · exact h.processing tag r pending result' hmem
    -- a subscription is from before, or from the acceptance that was just handled
    origin := fun sid sub hsub => by
      have hold : ∀ sub', s.client.subscriptions.lookup sid = some sub' →
          ∃ id req, .sent id req ∈ s.events ∧ sub'.data = req.data ∧
            sub'.cb = req.callbacks ∧ s.Accepted id := by
        intro sub' hsub'
        obtain ⟨id, r, hsent, hdata, hcb, hor⟩ := h.origin sid sub' hsub'
        obtain ⟨activity, rest, hcons, hnot⟩ := hstack
        refine ⟨id, r, hsent, hdata, hcb, hor.resolve_right fun hall => ?_⟩
        exact hnot id (hall activity (by rw [hcons]; rfl))
      dsimp only at hsub
      cases hsubscribed with
      | same hsubscriptions =>
        rw [hsubscriptions] at hsub
        obtain ⟨id, r, hsent, hdata, hcb, hacc⟩ := hold sub hsub
        exact ⟨id, r, hsent, hdata, hcb, Or.inl hacc⟩
      | added id r ack sub' htag hr hsubscriptions hdata hcb hcalls =>
        rw [hsubscriptions] at hsub
        by_cases heq : sid = ack.id
        · rw [heq, AList.lookup_insert] at hsub
          cases hsub
          obtain ⟨hid, hsent⟩ := h.toInv.outstanding id r hr
          refine ⟨id, r, hsent, hdata, hcb, Or.inr fun activity hactivity => ?_⟩
          cases hactivity
          rw [htag, Option.bind_some, hr]
          refine ⟨hid, ?_⟩
          rcases hcalls with ⟨callback, hcalls⟩ | hcalls
          · exact Or.inl ⟨callback, ack, r.data, hcalls⟩
          · exact Or.inr hcalls
        · rw [AList.lookup_insert_ne heq] at hsub
          obtain ⟨id', r', hsent, hdata', hcb', hacc⟩ := hold sub hsub
          exact ⟨id', r', hsent, hdata', hcb', Or.inl hacc⟩ }

/-- **The step lemma** for the frames of the calls. -/
theorem Frames.step (huuid : Function.Injective uuid) (h : Frames uuid s) (a : Action) :
    Frames uuid (s.step uuid a) := by
  cases s.stepped uuid a with
  | idle hstep =>
    rw [hstep]
    exact h
  | skips hstep =>
    rw [hstep]
    exact h.skip
  | sends e req hstep =>
    rw [hstep]
    exact h.send huuid e req
  | waits e req haveTimer hstack hstep =>
    rw [hstep]
    exact h.sendSynchronous huuid e req haveTimer hstack
  | processes messages ha hpumps hstep =>
    rw [hstep]
    exact h.process messages hpumps
  | calls tag req call pending result rest hstack hstep =>
    rw [hstep]
    exact h.call hstack
  | pops removed stack hstack hanswered hreports hcode hstep =>
    rw [hstep]
    exact h.pop hstack (Or.inr hreports)
  | crashes hstep =>
    rw [hstep]
    exact h.pop (List.append_nil _).symm (Or.inl rfl)

theorem frames_run (huuid : Function.Injective uuid) (actions : List Action) :
    Frames uuid (run uuid actions) := by
  induction actions using List.reverseRecOn with
  | nil => exact frames_init
  | append_singleton actions a ih =>
    rw [run_append]
    exact ih.step huuid a

/-! ## What has arrived -/

/-- Events are only added. -/
theorem mem_events_step {a : Action} {event : Event} (h : event ∈ s.events) :
    event ∈ (s.step uuid a).events := by
  cases s.stepped uuid a with
  | sends e req hstep =>
    rw [hstep]
    exact List.mem_append_left _ h
  | waits e req haveTimer hstack hstep =>
    rw [hstep]
    exact List.mem_append_left _ (List.mem_append_left _ h)
  | calls tag req call pending result rest hstack hstep =>
    rw [hstep]
    exact List.mem_append_left _ h
  | processes messages ha hpumps hstep =>
    rw [hstep, ClientRun.process]
    exact h
  | idle hstep | skips hstep | pops _ _ _ _ _ _ hstep | crashes hstep =>
    rw [hstep]
    exact h

theorem mem_events_run {past after : List Action} {event : Event}
    (h : event ∈ (run uuid past).events) : event ∈ (run uuid (past ++ after)).events := by
  induction after using List.reverseRecOn with
  | nil => rwa [List.append_nil]
  | append_singleton after a ih =>
    rw [← List.append_assoc, run_append]
    exact mem_events_step ih

/-- The last action is the answer, or it arrived before. -/
theorem arrived_append {past : List Action} {a : Action} {id : Bytes} :
    Arrived uuid (past ++ [a]) id ↔ Arrived uuid past id ∨
      ∃ messages req, a = .pump messages ∧ (run uuid past).Pumps ∧
        .sent id req ∈ (run uuid past).events ∧ answeredRequest messages = some id := by
  constructor
  · rintro ⟨before, messages, after, req, hpast, hrest⟩
    rcases List.eq_nil_or_concat after with rfl | ⟨after, a', rfl⟩
    · obtain ⟨rfl, ha⟩ := List.append_inj' hpast rfl
      exact .inr ⟨messages, req, List.singleton_inj.mp ha, hrest⟩
    · rw [List.concat_eq_append, ← List.cons_append, ← List.append_assoc] at hpast
      exact .inl ⟨before, messages, after, req, (List.append_inj' hpast rfl).1, hrest⟩
  · rintro (⟨before, messages, after, req, rfl, hrest⟩ | ⟨messages, req, rfl, hrest⟩)
    · exact ⟨before, messages, after ++ [a], req, by simp, hrest⟩
    · exact ⟨past, messages, [], req, rfl, hrest⟩

/-- What has arrived is about a request that was sent. -/
theorem Arrived.sent {past : List Action} {id : Bytes} (h : Arrived uuid past id) :
    ∃ req, .sent id req ∈ (run uuid past).events := by
  obtain ⟨before, messages, after, req, rfl, -, hsent, -⟩ := h
  exact ⟨req, mem_events_run hsent⟩

/-- What a step adds to the requests that are sent, and to those that are outstanding. -/
def Adds (uuid : Nat → Bytes) (s s' : ClientRun) (new : Bytes → OutstandingRequest → Prop) :
    Prop :=
  ∀ id req, (new id req → id = uuid s.generated) ∧
    (s'.client.outstanding.lookup id = some req ↔
      s.client.outstanding.lookup id = some req ∨ new id req) ∧
    (.sent id req ∈ s'.events ↔ .sent id req ∈ s.events ∨ new id req)

theorem adds_nothing {s' : ClientRun} (hclient : s'.client = s.client)
    (hsent : ∀ id req, .sent id req ∈ s'.events ↔ .sent id req ∈ s.events) :
    Adds uuid s s' fun _ _ => False := by
  refine fun id req => ⟨False.elim, ?_, ?_⟩
  · rw [hclient, or_false]
  · rw [hsent, or_false]

/-- Sending adds the one request to what is outstanding. -/
theorem Frames.adds_send (h : Frames uuid s) (e : Envelope) (r : OutstandingRequest) :
    Adds uuid s (s.send uuid e r) fun id req =>
      id = uuid s.generated ∧ req = { r with id := uuid s.generated } := by
  refine fun id req => ⟨And.left, ?_, ?_⟩
  · rw [show (s.send uuid e r).client.outstanding =
      s.client.outstanding.insert (uuid s.generated) { r with id := uuid s.generated } from rfl]
    by_cases heq : id = uuid s.generated
    · -- the id is new
      have hnone : s.client.outstanding.lookup id ≠ some req := fun hreq =>
        h.unsent s.generated (Nat.le_refl _) req (heq ▸ (h.toInv.outstanding id req hreq).2)
      rw [heq, AList.lookup_insert, or_iff_right (heq ▸ hnone), Option.some.injEq, eq_comm]
      exact (and_iff_right rfl).symm
    · rw [AList.lookup_insert_ne heq]
      exact (or_iff_left fun hnew => heq hnew.1).symm
  · rw [ClientRun.send, List.mem_append, List.mem_singleton, Event.sent.injEq]

/-- A step that processes no message takes no request from `outstanding`. -/
theorem Frames.adds_step (h : Frames uuid s) {a : Action}
    (hpump : ∀ messages, a = .pump messages → ¬ s.Pumps) :
    ∃ new, Adds uuid s (s.step uuid a) new := by
  cases s.stepped uuid a with
  | processes messages ha hpumps hstep => exact absurd hpumps (hpump messages ha)
  | sends e r hstep =>
    rw [hstep]
    exact ⟨_, h.adds_send e r⟩
  | waits e r haveTimer hstack hstep =>
    rw [hstep]
    refine ⟨_, fun id req => ⟨(h.adds_send e r id req).1, (h.adds_send e r id req).2.1, ?_⟩⟩
    rw [wait, List.mem_append, ← (h.adds_send e r id req).2.2]
    exact or_iff_left fun hmem => by cases List.mem_singleton.mp hmem
  | calls tag r call pending result rest hstack hstep =>
    refine ⟨_, adds_nothing (by rw [hstep]) fun id req => ?_⟩
    rw [hstep, List.mem_append]
    exact or_iff_left fun hmem => by cases List.mem_singleton.mp hmem
  | idle hstep | skips hstep | pops _ _ _ _ _ _ hstep | crashes hstep =>
    exact ⟨_, adds_nothing (by rw [hstep]) fun id req => by rw [hstep]⟩

/-- **Run lemma**: a request that was sent is outstanding until it is answered. -/
theorem lookup_eq_some_iff (huuid : Function.Injective uuid) (past : List Action) (id : Bytes)
    (req : OutstandingRequest) :
    (run uuid past).client.outstanding.lookup id = some req ↔
      .sent id req ∈ (run uuid past).events ∧ ¬ Arrived uuid past id := by
  induction past using List.reverseRecOn with
  | nil => exact iff_of_false nofun fun h => absurd h.1 List.not_mem_nil
  | append_singleton past a ih =>
    have hframes := frames_run huuid past
    rw [run_append, arrived_append]
    by_cases hpump : ∃ messages, a = .pump messages ∧ (run uuid past).Pumps
    · obtain ⟨messages, rfl, hpumps⟩ := hpump
      rw [step_pump uuid hpumps]
      rw [show ((run uuid past).process messages).client.outstanding.lookup id =
        (run uuid past).client.outstandingAfter (answeredRequest messages) id from
          { (run uuid past).client with calls := [] }.lookup_processResponseMessage messages id]
      by_cases hanswers : answeredRequest messages = some id
      · rw [hanswers, Client.outstandingAfter, AList.lookup_erase]
        refine iff_of_false nofun fun ⟨hsent, hnot⟩ => hnot (.inr ?_)
        exact ⟨messages, req, rfl, hpumps, hsent, hanswers⟩
      · have hquiet : ¬ ∃ messages' r, Action.pump messages = .pump messages' ∧
            (run uuid past).Pumps ∧ .sent id r ∈ (run uuid past).events ∧
            answeredRequest messages' = some id := by
          rintro ⟨messages', r, heq, -, -, hanswers'⟩
          obtain rfl := Action.pump.inj heq
          exact hanswers hanswers'
        rw [or_iff_left hquiet, Client.outstandingAfter_of_ne hanswers]
        exact ih
    · obtain ⟨new, hadds⟩ := hframes.adds_step (a := a) fun messages ha hpumps =>
        hpump ⟨messages, ha, hpumps⟩
      obtain ⟨hnew, hlookup, hsent⟩ := hadds id req
      have hquiet : ¬ ∃ messages r, a = .pump messages ∧ (run uuid past).Pumps ∧
          .sent id r ∈ (run uuid past).events ∧ answeredRequest messages = some id :=
        fun ⟨messages, _, ha, hpumps, _⟩ => hpump ⟨messages, ha, hpumps⟩
      have hfresh : new id req → ¬ Arrived uuid past id := by
        intro hreq harrived
        obtain ⟨r, hr⟩ := harrived.sent
        rw [hnew hreq] at hr
        exact hframes.unsent _ (Nat.le_refl _) r hr
      rw [hlookup, hsent, ih, or_iff_left hquiet, or_and_right]
      exact or_congr_right (and_iff_left_of_imp hfresh).symm

/-! ## Safe runs -/

/-- What holds of the frames if no call with a result was ended while its request was
outstanding. -/
structure Answered (s : ClientRun) : Prop where
  outstanding : ∀ id req, .waits id ∈ s.events → s.stack ≠ [] →
    s.client.outstanding.lookup id = some req → req.data ≠ none → id ∈ waiting s.stack
  /-- a message that answers a call is processed above the frame of the call -/
  above : ∀ tag req pending result below,
    .processing tag (some req) pending result :: below <:+ s.stack →
    .waits req.id ∈ s.events → req.data ≠ none → req.id ∈ waiting below

theorem answered_init : Answered {} where
  outstanding _ _ hwaits := absurd hwaits List.not_mem_nil
  above _ _ _ _ _ _ hwaits := absurd hwaits List.not_mem_nil

/-- A new request is outstanding, for which no call waits yet. -/
theorem Answered.send (h : Answered s) (hframes : Frames uuid s) (e : Envelope)
    (req : OutstandingRequest) : Answered (s.send uuid e req) where
  outstanding id r hwaits hstack hlookup hdata := by
    rcases List.mem_append.mp hwaits with hwaits | hwaits
    · refine h.outstanding id r hwaits hstack ?_ hdata
      have hne : id ≠ uuid s.generated := by
        intro heq
        exact hframes.unawaited s.generated (Nat.le_refl _) (heq ▸ hwaits)
      rw [show (s.send uuid e req).client.outstanding =
        s.client.outstanding.insert (uuid s.generated) { req with id := uuid s.generated } from rfl,
        AList.lookup_insert_ne hne] at hlookup
      exact hlookup
    · cases List.mem_singleton.mp hwaits
  above tag r pending result below hbelow hwaits := by
    rcases List.mem_append.mp hwaits with hwaits | hwaits
    · exact h.above tag r pending result below hbelow hwaits
    · cases List.mem_singleton.mp hwaits

/-- A synchronous call that begins to wait has its request outstanding and its variable on the
stack. -/
theorem Answered.sendSynchronous (h : Answered s) (hframes : Frames uuid s)
    (e : Envelope) (req : OutstandingRequest) (haveTimer : Bool)
    (hne : s.stack ≠ []) :
    Answered ((s.send uuid e req).wait (uuid s.generated) haveTimer) where
  outstanding id r hwaits _ hlookup hdata := by
    rcases List.mem_append.mp hwaits with hwaits | hwaits
    · exact List.mem_cons_of_mem _
        ((h.send hframes e req).outstanding id r hwaits hne hlookup hdata)
    · rw [Event.waits.inj (List.mem_singleton.mp hwaits)]
      exact List.mem_cons_self
  above tag r pending result below hbelow hwaits hdata := by
    rcases List.suffix_cons_iff.mp hbelow with heq | hbelow
    · cases heq
    · rcases List.mem_append.mp hwaits with hwaits | hwaits
      · exact (h.send hframes e req).above tag r pending result below hbelow hwaits hdata
      · -- a message that was already there does not answer the new request
        have hsent := hframes.processing tag r pending result (hbelow.subset List.mem_cons_self)
        rw [Event.waits.inj (List.mem_singleton.mp hwaits)] at hsent
        exact absurd hsent (hframes.unsent s.generated (Nat.le_refl _) r)

/-- A response takes the request that it answers out of what is outstanding before its callback is
called. -/
theorem Answered.process (h : Answered s) (hframes : Frames uuid s) (messages : List Bytes)
    (hne : s.stack ≠ []) : Answered (s.process messages) := by
  have hprocessed := s.client.processed messages
  rw [ClientRun.process]
  cases hp : { s.client with calls := [] }.processResponseMessage messages with
  | mk result client =>
  rw [hp] at hprocessed
  dsimp only at hprocessed ⊢
  exact {
    outstanding := fun id r hwaits _ hlookup hdata => by
      refine h.outstanding id r hwaits hne ?_ hdata
      rcases hprocessed with ⟨houtstanding, -⟩ | ⟨id₀, r, -, -, houtstanding, -⟩
      · rwa [houtstanding] at hlookup
      · rw [houtstanding] at hlookup
        by_cases heq : id = id₀
        · rw [heq, AList.lookup_erase] at hlookup
          cases hlookup
        · rwa [AList.lookup_erase_ne heq] at hlookup
    above := fun tag r pending result' below hbelow hwaits hdata => by
      rcases List.suffix_cons_iff.mp hbelow with heq | hbelow
      · injection heq with hactivity hrest
        injection hactivity with htag hr
        obtain ⟨id, hid, hlookup⟩ := Option.bind_eq_some_iff.mp hr.symm
        obtain ⟨heq, -⟩ := hframes.toInv.outstanding id r hlookup
        rw [hrest]
        exact h.outstanding r.id r hwaits hne (heq ▸ hlookup) hdata
      · exact h.above tag r pending result' below hbelow hwaits hdata }

/-- A callback is called with what is outstanding as it is. -/
theorem Answered.call (h : Answered s) {tag : Option Bytes} {req : Option OutstandingRequest}
    {call : Call} {pending : List Call} {result : Except Fault Bool} {rest : List Activity}
    (hstack : s.stack = .processing tag req (call :: pending) result :: rest) :
    Answered { s with
      stack := .code :: .processing tag req pending result :: rest
      events := s.events ++ [.called tag req (call.reread s.client)] } where
  outstanding id r hwaits _ hlookup hdata := by
    rcases List.mem_append.mp hwaits with hwaits | hwaits
    · have hmem := h.outstanding id r hwaits (by rw [hstack]; exact List.cons_ne_nil _ _)
        hlookup hdata
      rw [hstack] at hmem
      exact hmem
    · cases List.mem_singleton.mp hwaits
  above tag' r pending' result' below hbelow hwaits hdata := by
    have hold : .waits r.id ∈ s.events := by
      rcases List.mem_append.mp hwaits with hwaits | hwaits
      · exact hwaits
      · cases List.mem_singleton.mp hwaits
    rcases List.suffix_cons_iff.mp hbelow with heq | hbelow
    · cases heq
    · rcases List.suffix_cons_iff.mp hbelow with heq | hbelow
      · cases heq
        exact h.above tag r (call :: pending) result rest ⟨[], hstack.symm⟩ hold hdata
      · refine h.above tag' r pending' result' below (hbelow.trans ?_) hold hdata
        rw [hstack]
        exact List.suffix_cons _ _

/-- A call that ends is answered, or has no result. -/
theorem Answered.pop (h : Answered s) {removed stack : List Activity}
    (hstack : s.stack = removed ++ stack)
    (hanswered : stack ≠ [] → ∀ id ∈ waiting removed, ∀ req,
      s.client.outstanding.lookup id = some req → req.data = none) :
    Answered { s with stack := stack } where
  outstanding id r hwaits hne hlookup hdata := by
    dsimp only at hne
    have hmem := h.outstanding id r hwaits
      (by rw [hstack]; exact List.append_ne_nil_of_right_ne_nil _ hne) hlookup hdata
    rw [hstack, waiting, List.filterMap_append] at hmem
    rcases List.mem_append.mp hmem with hmem | hmem
    · exact absurd (hanswered hne id hmem r hlookup) hdata
    · exact hmem
  above tag r pending result below hbelow hwaits :=
    h.above tag r pending result below (hbelow.trans ⟨removed, hstack.symm⟩) hwaits

/-- **Step lemma**. -/
theorem Answered.step (h : Answered s) (hframes : Frames uuid s) (a : Action)
    (hsafe : ∀ id ∈ s.interrupted a, ∀ req, s.client.outstanding.lookup id = some req →
      req.data = none) : Answered (s.step uuid a) := by
  cases s.stepped uuid a with
  | idle hstep =>
    rw [hstep]
    exact h
  | skips hstep =>
    rw [hstep]
    exact ⟨h.outstanding, h.above⟩
  | sends e req hstep =>
    rw [hstep]
    exact h.send hframes e req
  | waits e req haveTimer hstack hstep =>
    rw [hstep]
    refine h.sendSynchronous hframes e req haveTimer fun hnil => ?_
    rw [hnil] at hstack
    cases hstack
  | processes messages ha hpumps hstep =>
    rw [hstep]
    obtain ⟨activity, rest, hcons, -⟩ := hpumps.head
    exact h.process hframes messages (by rw [hcons]; exact List.cons_ne_nil _ _)
  | calls tag req call pending result rest hstack hstep =>
    rw [hstep]
    exact h.call hstack
  | pops removed stack hstack hanswered hreports hcode hstep =>
    rw [hstep]
    refine h.pop hstack fun _ id hid req hreq => ?_
    rcases hanswered id hid with hmem | hnone
    · exact hsafe id hmem req hreq
    · rw [hnone] at hreq
      cases hreq
  | crashes hstep =>
    rw [hstep]
    exact h.pop (List.append_nil _).symm fun hne => absurd rfl hne

/-- A message is processed for no call with a result that has ended. -/
theorem Answered.not_ended (h : Answered s) {tag : Option Bytes} {req : OutstandingRequest}
    {pending : List Call} {result : Except Fault Bool} {rest : List Activity}
    (hstack : s.stack = .processing tag (some req) pending result :: rest)
    (hdata : req.data ≠ none) : ¬ s.Ended req.id := by
  intro hended
  refine hended.gone ?_
  rw [hstack]
  exact h.above tag req pending result rest ⟨[], hstack.symm⟩ hended.waits hdata

/-- Where every ended call was answered, nothing that is outstanding has the address of a variable
that is gone. -/
theorem Answered.noDangling (h : Answered s) (hframes : Frames uuid s) {id : Bytes}
    (hended : s.Ended id) : NoDangling uuid s id where
  outstanding req hreq := by
    by_contra hdata
    exact hended.gone (h.outstanding id req hended.waits hended.running hreq hdata)
  subscriptions haccepted sid sub hsub hpointer := by
    obtain ⟨id', req, hsent, hdata, hcb, hor⟩ := hframes.origin sid sub hsub
    refine ⟨id', req, fun heq => ?_, hsent, hdata, hcb⟩
    subst heq
    have hreports := hor.resolve_left haccepted
    cases hstack : s.stack with
    | nil => exact hended.running hstack
    | cons activity rest =>
      have htop := hreports activity (by rw [hstack]; rfl)
      match activity, htop with
      | .processing tag (some r) pending result, htop =>
        have hsent' := hframes.processing tag r pending result
          (by rw [hstack]; exact List.mem_cons_self)
        obtain rfl := hframes.unique id' r req (htop.1 ▸ hsent') hsent
        exact h.not_ended hstack (hdata ▸ hpointer) (htop.1 ▸ hended)
  uncalled a := by
    cases s.stepped uuid a with
    | sends e req hstep =>
      rw [hstep, ClientRun.send, List.countP_append]
      rfl
    | waits e req haveTimer hstack hstep =>
      rw [hstep, wait, ClientRun.send, List.countP_append, List.countP_append]
      rfl
    | calls tag req call pending result rest hstack hstep =>
      rw [hstep, List.countP_append]
      refine Nat.add_eq_left.mpr (List.countP_eq_zero.mpr fun event hevent => ?_)
      rw [List.mem_singleton.mp hevent]
      cases req with
      | none => exact Bool.false_ne_true
      | some r =>
        intro hpasses
        obtain ⟨hanswers, hpointer⟩ := Bool.and_eq_true_iff.mp hpasses
        obtain ⟨hanswers, hid⟩ := Bool.and_eq_true_iff.mp hanswers
        rw [answers_reread] at hanswers
        rw [reread_of_answers hanswers] at hpointer
        -- the callback gets the pointer of the request
        obtain ⟨r', hr', -, -, hmade⟩ := hframes.toInv.stack tag (some r) (call :: pending) result
          (by rw [hstack]; exact List.mem_cons_self) call List.mem_cons_self hanswers
        obtain rfl := Option.some.inj hr'
        rw [hmade.data] at hpointer
        exact h.not_ended hstack (Option.isSome_iff_ne_none.mp hpointer)
          (beq_iff_eq.mp hid ▸ hended)
    | processes messages ha hpumps hstep =>
      rw [hstep, ClientRun.process]
    | idle hstep | skips hstep | pops _ _ _ _ _ _ hstep | crashes hstep => rw [hstep]

/-! ## Exactly the safe runs -/

/-- The frame of a call is on the stack once. -/
theorem Frames.ended_pop (h : Frames uuid s) (removed stack : List Activity)
    (hstack : s.stack = removed ++ stack) (hne : s.stack.getLast? = some .code → stack ≠ [])
    {id : Bytes} (hid : id ∈ waiting removed) : Ended { s with stack := stack } id := by
  have hwaiting : waiting s.stack = waiting removed ++ waiting stack := by
    rw [hstack, waiting, List.filterMap_append]
    rfl
  have hmem : id ∈ waiting s.stack := by
    rw [hwaiting]
    exact List.mem_append_left _ hid
  exact {
    waits := h.waits id hmem
    gone := fun hstill =>
      (List.nodup_append.mp (hwaiting ▸ h.nodup)).2.2 id hid id hstill rfl
    running := by
      rcases h.base with hnil | hcode
      · rw [hnil] at hmem
        exact absurd hmem List.not_mem_nil
      · exact hne hcode }

/-- A step that ends a call other than by an answer. -/
theorem step_interrupted (hframes : Frames uuid s) {a : Action} {id : Bytes}
    (hid : id ∈ s.interrupted a) :
    (s.step uuid a).Ended id ∧ (s.step uuid a).client = s.client := by
  unfold interrupted at hid
  split at hid
  · rename_i id' rest hstack
    -- the timer of the call is due
    have hstep : s.step uuid .leave = { s with stack := rest } := by
      simp [ClientRun.step, hstack]
    rw [hstep]
    refine ⟨hframes.ended_pop [.synchronous id' true] rest hstack (fun h => ?_) hid, rfl⟩
    rw [hstack] at h
    exact ne_nil_of_getLast? (getLast?_tail rfl h)
  · rename_i id' haveTimer rest hstack
    -- `Pump` fails with an exception in the call
    have hstep : s.step uuid .fail = { s with stack := unwind rest } := by
      simp [ClientRun.step, hstack]
    rw [hstep]
    refine ⟨hframes.ended_pop
      (.synchronous id' haveTimer :: rest.takeWhile Activity.inClient) (unwind rest) ?_
      (fun h => ?_) hid, rfl⟩
    · rw [hstack, List.cons_append, takeWhile_append_unwind]
    · rw [hstack] at h
      exact unwind_ne_nil (getLast?_tail rfl h)
  · rename_i tag req e rest hstack
    -- the client throws out of a response that it handles for the call
    have hstep : s.step uuid .finish = { s with stack := unwind rest } := by
      simp [ClientRun.step, hstack]
    rw [hstep]
    refine ⟨hframes.ended_pop (.processing tag req [] (.error (.exception e)) ::
      rest.takeWhile Activity.inClient) (unwind rest) ?_ (fun h => ?_) hid, rfl⟩
    · rw [hstack, List.cons_append, takeWhile_append_unwind]
    · rw [hstack] at h
      exact unwind_ne_nil (getLast?_tail rfl h)
  -- code of the application throws through the client
  · rename_i rest hstack
    cases rest with
    | nil => exact absurd hid List.not_mem_nil
    | cons activity rest =>
      have hstep : s.step uuid .throw = { s with stack := unwind (activity :: rest) } := by
        simp [ClientRun.step, hstack]
      rw [hstep]
      refine ⟨hframes.ended_pop
        (.code :: (activity :: rest).takeWhile Activity.inClient) (unwind (activity :: rest)) ?_
        (fun h => ?_) hid, rfl⟩
      · rw [hstack, List.cons_append, takeWhile_append_unwind]
      · rw [hstack] at h
        exact unwind_ne_nil (List.getLast?_cons_cons ▸ h)
  · exact absurd hid List.not_mem_nil

/-- **No dangling synchronous requests**, exactly in the runs in which a message that answers the
request has arrived for every call with a result that ends by its timer or by an exception. In any
other run the entry of such a call is still there behind its end, with the address of a variable
that is not, and a later answer is written to it. -/
theorem noDangling_iff (huuid : Function.Injective uuid) (actions : List Action) :
    (∀ past, past <+: actions → ∀ id, (run uuid past).Ended id →
      NoDangling uuid (run uuid past) id) ↔
    ∀ past a, past ++ [a] <+: actions → SafeStep uuid past a := by
  constructor
  · intro h past a hpast id hid req hsent hdata
    by_contra harrived
    have hlookup := (lookup_eq_some_iff huuid past id req).mpr ⟨hsent, harrived⟩
    obtain ⟨hended, hclient⟩ := step_interrupted (frames_run huuid past) hid
    rw [← run_append] at hended hclient
    exact hdata ((h _ hpast id hended).outstanding req (hclient ▸ hlookup))
  · intro hsafe past hpast id hended
    have hanswered : Answered (run uuid past) := by
      clear hended
      induction past using List.reverseRecOn with
      | nil => exact answered_init
      | append_singleton past a ih =>
        rw [run_append]
        refine (ih ((List.prefix_append _ _).trans hpast)).step (frames_run huuid past) a ?_
        intro id hid req hreq
        obtain ⟨hsent, harrived⟩ := (lookup_eq_some_iff huuid past id req).mp hreq
        by_contra hdata
        exact harrived (hsafe past a hpast id hid req hsent hdata)
    exact hanswered.noDangling (frames_run huuid past) hended

/-- `GetStoreInfo` with a timeout, and the answer to it. The result is the variable 2. -/
def storeInfoAction : Action :=
  .sendSynchronous (Envelope.ofMessage 0 .getStoreInfoV1) { cbStoreInfo := some 1, data := some 2 }
    true true

def storeInfoAnswer : List Bytes :=
  [((Envelope.ofMessage 0 (.storeInfoV1 ⟨[]⟩)).addTag []).toProtocolZmqMessage]

theorem noDangling_storeInfo :
    Function.Injective (fun n => List.replicate n (0 : UInt8)) ∧
      ((∀ past, past <+: [storeInfoAction, .pump storeInfoAnswer, .call, .return, .finish, .leave] →
        ∀ id, (run (fun n => List.replicate n 0) past).Ended id →
          NoDangling (fun n => List.replicate n 0) (run (fun n => List.replicate n 0) past) id) ↔
      ∀ past a, past ++ [a] <+:
          [storeInfoAction, .pump storeInfoAnswer, .call, .return, .finish, .leave] →
        SafeStep (fun n => List.replicate n 0) past a) := by
  have huuid : Function.Injective (fun n => List.replicate n (0 : UInt8)) :=
    fun n m h => (List.replicate_left_injective 0) h
  exact ⟨huuid, noDangling_iff huuid _⟩

/-- The timer is signaled before an answer comes: the request stays outstanding, with
the address of the result. -/
theorem dangling_timeout :
    ¬ ∀ id, (run (fun n => List.replicate n 0) [storeInfoAction, .leave]).Ended id →
      NoDangling (fun n => List.replicate n 0)
        (run (fun n => List.replicate n 0) [storeInfoAction, .leave]) id := by
  intro h
  have hended : (run (fun n => List.replicate n 0) [storeInfoAction, .leave]).Ended [] := {
    waits := List.mem_append_right _ List.mem_cons_self
    gone := List.not_mem_nil
    running := List.cons_ne_nil _ _ }
  cases (h [] hended).outstanding _ rfl

end ClientRun

end Zippylog
