import Mathlib.Algebra.Order.BigOperators.Group.List
import Mathlib.Data.List.TakeWhile
import Zippylog.ClientRun

/-!
# Runs of a client: one answer to a request

Every request has a UUID of its own, and its callback is to be called at most once, however the
application nests its calls and whatever the server sends. The proof counts: an entry of
`outstanding`, an answer that is about to be called and one that was called count alike, for each
identifier, and nothing but a new request adds to this sum.

- `processed`: what a message does to `outstanding`, and which callbacks it calls.
- `weight`: the sum for one identifier.
- `step_pump`: what a step of a run that pumps has to do with the message it takes.
- `atMostOnce_run`: every request is answered at most once, in every run.
-/

namespace Zippylog

open Wire

/-- A call of the callback of a request, with its data. -/
structure Call.MadeFor (call : Call) (req : OutstandingRequest) : Prop where
  answers : call.answers = true
  slot : call.slot req = some call.callback
  data : call.data = req.data

namespace Client

/-! ## One message -/

/-- What a message does: it answers an outstanding request, which is removed, or leaves
the requests alone. -/
inductive Processed (c : Client) (messages : List Bytes) (c' : Client) : Prop where
  | other (houtstanding : c'.outstanding = c.outstanding)
      (hcalls : ∀ call ∈ c'.calls, call.answers = false)
  | response (id : Bytes) (req : OutstandingRequest) (htag : firstTag messages = some id)
      (hreq : c.outstanding.lookup id = some req)
      (houtstanding : c'.outstanding = c.outstanding.erase id)
      (hcalls : c'.calls = [] ∨ ∃ call, c'.calls = [call] ∧ call.MadeFor req)

section

variable {c : Client}

/-- The handler of a response makes at most one call, of the callback of the request. -/
def AnswersWith (c : Client) (req : OutstandingRequest) (c' : Client) : Prop :=
  c'.outstanding = c.outstanding ∧
    (c'.calls = c.calls ∨ ∃ call, c'.calls = c.calls ++ [call] ∧ call.MadeFor req)

theorem answersWith_self (c : Client) (req : OutstandingRequest) : c.AnswersWith req c :=
  ⟨rfl, Or.inl rfl⟩

theorem callAsserted_answersWith {req : OutstandingRequest} (callback : Pointer) (f : Nat → Call)
    (h : ∀ cb, callback = some cb → (f cb).MadeFor req) :
    c.AnswersWith req (c.callAsserted callback f).2 := by
  cases callback with
  | none => exact answersWith_self c req
  | some cb => exact ⟨rfl, Or.inr ⟨f cb, rfl, h cb rfl⟩⟩

/-- Each type of response has one callback, which is that of the request. -/
theorem handleMessage_answersWith (c : Client) (req : OutstandingRequest) (e : Envelope)
    (type : MessageType) (messages : List Bytes) :
    c.AnswersWith req (c.handleMessage req e type messages).2 := by
  unfold handleMessage
  split
  · exact callAsserted_answersWith _ _ fun cb hcb => ⟨rfl, hcb, rfl⟩
  · exact callAsserted_answersWith _ _ fun cb hcb => ⟨rfl, hcb, rfl⟩
  · exact callAsserted_answersWith _ _ fun cb hcb => ⟨rfl, hcb, rfl⟩
  · exact callAsserted_answersWith _ _ fun cb hcb => ⟨rfl, hcb, rfl⟩
  · exact callAsserted_answersWith _ _ fun cb hcb => ⟨rfl, hcb, rfl⟩
  · split_ifs
    · exact answersWith_self c req
    · split
      · exact answersWith_self c req
      · exact callAsserted_answersWith _ _ fun cb hcb => ⟨rfl, hcb, rfl⟩
  · dsimp only
    split_ifs
    · exact answersWith_self c req
    · -- the new subscription is no request
      exact callAsserted_answersWith (c := { c with subscriptions := _ }) _ _
        fun cb hcb => ⟨rfl, hcb, rfl⟩
  all_goals exact answersWith_self c req

/-- A store change makes calls of the subscription, and changes nothing else. -/
theorem handleStoreChange_calls (c : Client) (e : Envelope) (id : Bytes) (sub : Subscription)
    (i : Nat) :
    ∃ calls, (c.handleStoreChange e id sub i).2 = { c with calls := c.calls ++ calls } ∧
      ∀ call ∈ calls, call.answers = false := by
  have hnone : ∃ calls, c = { c with calls := c.calls ++ calls } ∧
      ∀ call ∈ calls, Call.answers call = false :=
    ⟨[], by rw [List.append_nil], fun _ h => absurd h List.not_mem_nil⟩
  unfold handleStoreChange
  split
  · exact hnone
  · split
    · exact hnone
    · split
      · exact hnone
      · split_ifs
        · refine ⟨[_], rfl, fun call hcall => ?_⟩
          rw [List.mem_singleton.mp hcall]
          rfl
        · exact hnone
      · exact hnone

/-- And so do the changes of a response together. -/
theorem handleStoreChanges_calls (e : Envelope) (id : Bytes) (sub : Subscription)
    (is : List Nat) (c : Client) :
    ∃ calls, (handleStoreChanges e id sub is c).2 = { c with calls := c.calls ++ calls } ∧
      ∀ call ∈ calls, call.answers = false := by
  induction is generalizing c with
  | nil => exact ⟨[], by rw [List.append_nil]; rfl, fun _ h => absurd h List.not_mem_nil⟩
  | cons i is ih =>
    obtain ⟨calls, hstep, hcalls⟩ := c.handleStoreChange_calls e id sub i
    rw [handleStoreChanges]
    split
    · rename_i hrun
      rw [hrun] at hstep
      exact ⟨calls, hstep, hcalls⟩
    · rename_i c₁ hrun
      rw [hrun] at hstep
      obtain ⟨calls', hrest, hcalls'⟩ := ih c₁
      dsimp only at hstep
      refine ⟨calls ++ calls', ?_, List.forall_mem_append.mpr ⟨hcalls, hcalls'⟩⟩
      rw [hrest, hstep, List.append_assoc]

/-- And its envelopes. -/
theorem handleEnvelopes_calls (callback : Nat) (id : Bytes) (sub : Subscription)
    (msgs : List Bytes) (c : Client) :
    ∃ calls, (handleEnvelopes callback id sub msgs c).2 = { c with calls := c.calls ++ calls } ∧
      ∀ call ∈ calls, call.answers = false := by
  induction msgs generalizing c with
  | nil => exact ⟨[], by rw [List.append_nil]; rfl, fun _ h => absurd h List.not_mem_nil⟩
  | cons msg msgs ih =>
    rw [handleEnvelopes]
    split
    · exact ⟨[], by rw [List.append_nil], fun _ h => absurd h List.not_mem_nil⟩
    · rename_i e he
      obtain ⟨calls, hrest, hcalls⟩ := ih (c.call (.envelopeReceived callback id e sub.data))
      refine ⟨.envelopeReceived callback id e sub.data :: calls, ?_, ?_⟩
      · rw [hrest, call, List.append_assoc]
        rfl
      · exact List.forall_mem_cons.mpr ⟨rfl, hcalls⟩

/-- A message of a subscription answers no request. -/
theorem handleSubscriptionResponse_calls (c : Client) (e : Envelope) (id : Bytes)
    (sub : Subscription) (messages : List Bytes) :
    ∃ calls, (c.handleSubscriptionResponse e id sub messages).2 =
        { c with calls := c.calls ++ calls } ∧ ∀ call ∈ calls, call.answers = false := by
  obtain ⟨calls, hchanges, hcalls⟩ :=
    handleStoreChanges_calls e id sub (List.range' 1 (e.messageCount - 1)) c
  rw [handleSubscriptionResponse]
  split
  · rename_i hrun
    rw [hrun] at hchanges
    exact ⟨calls, hchanges, hcalls⟩
  · rename_i c₁ hrun
    rw [hrun] at hchanges
    dsimp only at hchanges
    split
    · exact ⟨calls, hchanges, hcalls⟩
    · rename_i callback hcallback
      obtain ⟨calls', hrest, hcalls'⟩ := handleEnvelopes_calls callback id sub messages c₁
      have hboth : ∀ call ∈ calls ++ calls', call.answers = false :=
        List.forall_mem_append.mpr ⟨hcalls, hcalls'⟩
      have heq : (handleEnvelopes callback id sub messages c₁).2 =
          { c with calls := c.calls ++ (calls ++ calls') } := by
        rw [hrest, hchanges, List.append_assoc]
      split
      · rename_i hrun'
        rw [hrun'] at heq
        exact ⟨calls ++ calls', heq, hboth⟩
      · rename_i hrun'
        rw [hrun'] at heq
        exact ⟨calls ++ calls', heq, hboth⟩

end

/-- **What a message does** to a client without calls. -/
theorem processed (c : Client) (messages : List Bytes) :
    Processed c messages ({ c with calls := [] }.processResponseMessage messages).2 := by
  have hself : Processed c messages { c with calls := [] } :=
    .other rfl fun _ h => absurd h List.not_mem_nil
  unfold processResponseMessage
  split
  · exact hself
  · rename_i first rest
    split
    · exact hself
    · rename_i e he
      have htag : firstTag (first :: rest) = e.tag.head? := by
        rw [firstTag, he]
      -- a response to a request, whatever its type
      have hrequest : ∀ type, Processed c (first :: rest)
          ({ c with calls := [] }.handleRequestResponse e type (first :: rest)).2 := by
        intro type
        rw [handleRequestResponse]
        split
        · exact hself
        · rename_i id tags htags
          split
          · exact hself
          · rename_i req hreq
            obtain ⟨houtstanding, hcalls⟩ := handleMessage_answersWith
              { c with calls := [], outstanding := c.outstanding.erase id } req e type
              (first :: rest)
            refine .response id req ?_ hreq houtstanding ?_
            · rw [htag, htags]
              rfl
            · exact hcalls
      -- one envelope with a type that is routed; all other messages change nothing
      split_ifs
      · exact hself
      · split
        · exact hself
        · split_ifs
          · exact hself
          · split
            · exact hself
            · split
              · split
                · split
                  · exact hself
                  · rename_i sub hsub
                    obtain ⟨calls, hrun, hcalls⟩ := handleSubscriptionResponse_calls
                      { c with calls := [] } e _ sub rest
                    rw [hrun]
                    exact .other rfl hcalls
                · exact hself
              · exact hrequest .pongV1
              · exact hrequest .storeInfoV1
              · exact hrequest .streamSegmentStartV1
              · exact hrequest .subscriptionAcceptAckV1
              · exact hself

end Client

/-! ## Steps -/

/-- The id of the request that a synchronous call waits for. -/
def Activity.waitsFor : Activity → Option Bytes
  | .synchronous id _ => some id
  | _ => none

/-- The frame has made an entry of `subscriptions` for a request and is about to call its
callback, or found none. -/
def Activity.Reports (id : Bytes) : Activity → Prop
  | .processing _ (some req) pending result => req.id = id ∧
      ((∃ callback ack data, pending = [.subscription callback ack data]) ∨
        pending = [] ∧ result = .error .assertion)
  | _ => False

namespace ClientRun

variable {s : ClientRun}

/-- The synchronous calls in progress. -/
def waiting (stack : List Activity) : List Bytes := stack.filterMap Activity.waitsFor

/-- The synchronous calls that end in a step other than by an answer. -/
def interrupted (s : ClientRun) (a : Action) : List Bytes :=
  match a, s.stack with
  | .leave, .synchronous id true :: _ => [id]
  | .fail, .synchronous id _ :: rest => id :: waiting (rest.takeWhile Activity.inClient)
  | .finish, .processing _ _ [] (.error (.exception _)) :: rest
  | .throw, .code :: rest => waiting (rest.takeWhile Activity.inClient)
  | _, _ => []

/-- A message that comes is processed: code pumps, or the loop of a call whose request
is outstanding. -/
def Pumps (s : ClientRun) : Prop :=
  match s.stack with
  | .code :: _ => True
  | .synchronous id _ :: _ => s.client.haveOutstandingRequest id = true
  | _ => False

theorem Pumps.head (h : s.Pumps) :
    ∃ activity rest, s.stack = activity :: rest ∧ ∀ id, ¬ activity.Reports id := by
  obtain ⟨client, stack, generated, events⟩ := s
  match stack with
  | .code :: rest => exact ⟨.code, rest, rfl, fun _ h => h⟩
  | .synchronous id haveTimer :: rest => exact ⟨_, rest, rfl, fun _ h => h⟩
  | [] | .processing .. :: _ => exact False.elim h

theorem step_pump (uuid : Nat → Bytes) (h : s.Pumps) (messages : List Bytes) :
    s.step uuid (.pump messages) = s.process messages := by
  obtain ⟨client, stack, generated, events⟩ := s
  match stack with
  | .code :: rest => rfl
  | .synchronous id haveTimer :: rest => exact if_pos h
  | [] | .processing .. :: _ => exact False.elim h

/-- What a step does. -/
inductive Stepped (uuid : Nat → Bytes) (s : ClientRun) (a : Action) : Prop where
  | idle (hstep : s.step uuid a = s)
  | skips (hstep : s.step uuid a = { s with generated := s.generated + 1 })
  | sends (e : Envelope) (req : OutstandingRequest) (hstep : s.step uuid a = s.send uuid e req)
  | waits (e : Envelope) (req : OutstandingRequest) (haveTimer : Bool)
      (hstack : s.stack.head? = some .code)
      (hstep : s.step uuid a = (s.send uuid e req).wait (uuid s.generated) haveTimer)
  | processes (messages : List Bytes) (ha : a = .pump messages) (hpumps : s.Pumps)
      (hstep : s.step uuid a = s.process messages)
  | calls (tag : Option Bytes) (req : Option OutstandingRequest) (call : Call)
      (pending : List Call) (result : Except Fault Bool) (rest : List Activity)
      (hstack : s.stack = .processing tag req (call :: pending) result :: rest)
      (hstep : s.step uuid a = { s with
        stack := .code :: .processing tag req pending result :: rest
        events := s.events ++ [.called tag req (call.reread s.client)] })
  | pops (removed stack : List Activity) (hstack : s.stack = removed ++ stack)
      (hanswered : ∀ id ∈ waiting removed,
        id ∈ interrupted s a ∨ s.client.outstanding.lookup id = none)
      (hreports : ∃ activity ∈ removed.head?, ∀ id, ¬ activity.Reports id)
      (hcode : s.stack.getLast? = some .code → stack ≠ [])
      (hstep : s.step uuid a = { s with stack := stack })
  | crashes (hstep : s.step uuid a = { s with stack := [] })

/-- An exception takes the frames of the client off the stack. -/
theorem takeWhile_append_unwind (stack : List Activity) :
    stack.takeWhile Activity.inClient ++ unwind stack = stack :=
  List.takeWhile_append_dropWhile

theorem unwind_ne_nil {stack : List Activity} (h : stack.getLast? = some .code) :
    unwind stack ≠ [] := by
  intro hnil
  have hall := List.dropWhile_eq_nil_iff.mp hnil .code (List.mem_of_getLast? h)
  cases hall

/-- The frame at the bottom is code, so it is not the one of a method. -/
theorem getLast?_tail {activity : Activity} {rest : List Activity}
    (hclient : activity.inClient = true) (h : (activity :: rest).getLast? = some .code) :
    rest.getLast? = some .code := by
  cases rest with
  | nil =>
    cases List.getLast?_singleton ▸ h
    cases hclient
  | cons activity' rest => exact List.getLast?_cons_cons ▸ h

theorem ne_nil_of_getLast? {stack : List Activity} (h : stack.getLast? = some .code) :
    stack ≠ [] := by
  intro hnil
  rw [hnil] at h
  cases h

theorem not_reports_processing {tag : Option Bytes} {req : Option OutstandingRequest}
    {result : Except Fault Bool} (hresult : result ≠ .error .assertion) (id : Bytes) :
    ¬ (Activity.processing tag req [] result).Reports id := by
  cases req with
  | none => exact fun h => h
  | some r =>
    rintro ⟨-, ⟨callback, ack, data, hpending⟩ | ⟨-, hassertion⟩⟩
    · cases hpending
    · exact hresult hassertion

/-- **Inversion of a step**. -/
theorem stepped (uuid : Nat → Bytes) (s : ClientRun) (a : Action) : Stepped uuid s a := by
  rcases hs : s with ⟨client, stack, generated, events⟩
  cases a with
  | sendRequest e req sends =>
    match stack, sends with
    | .code :: rest, true => exact .sends e req rfl
    | .code :: rest, false => exact .skips rfl
    | [], _ | .processing .. :: _, _ | .synchronous .. :: _, _ => exact .idle rfl
  | sendSynchronous e req haveTimer sends =>
    match stack, sends with
    | .code :: rest, true => exact .waits e req haveTimer rfl rfl
    | .code :: rest, false => exact .skips rfl
    | [], _ | .processing .. :: _, _ | .synchronous .. :: _, _ => exact .idle rfl
  | pump messages =>
    match stack with
    | .code :: rest => exact .processes messages rfl trivial rfl
    | .synchronous id haveTimer :: rest =>
      cases hid : client.haveOutstandingRequest id with
      | true =>
        refine .processes messages rfl hid ?_
        exact if_pos hid
      | false =>
        refine .idle ?_
        exact if_neg (by rw [hid]; exact Bool.false_ne_true)
    | [] | .processing .. :: _ => exact .idle rfl
  | call =>
    match stack with
    | .processing tag req (call :: pending) result :: rest =>
      exact .calls tag req call pending result rest rfl rfl
    | [] | .code :: _ | .processing _ _ [] _ :: _ | .synchronous .. :: _ => exact .idle rfl
  -- an exception that the client throws unwinds to the code of the application that called it
  | finish =>
    match stack with
    | .processing tag req [] (.ok _) :: rest =>
      refine .pops [_] rest rfl (fun _ h => absurd h List.not_mem_nil) ⟨_, rfl, ?_⟩
        (fun h => ne_nil_of_getLast? (getLast?_tail rfl h)) rfl
      exact not_reports_processing fun h => by cases h
    | .processing tag req [] (.error (.exception e)) :: rest =>
      refine .pops (.processing tag req [] (.error (.exception e)) ::
        rest.takeWhile Activity.inClient) (unwind rest) ?_ (fun id h => Or.inl h) ⟨_, rfl, ?_⟩
        (fun h => unwind_ne_nil (getLast?_tail rfl h)) rfl
      · exact congrArg _ (takeWhile_append_unwind rest).symm
      · exact not_reports_processing fun h => by cases h
    | .processing tag req [] (.error .assertion) :: rest => exact .crashes rfl
    | .processing tag req [] (.error .undefinedBehavior) :: rest => exact .crashes rfl
    | .processing tag req [] (.error .noReturn) :: rest => exact .crashes rfl
    | [] | .code :: _ | .processing _ _ (_ :: _) _ :: _ | .synchronous .. :: _ => exact .idle rfl
  | «return» =>
    match stack with
    | .code :: activity :: rest =>
      exact .pops [.code] (activity :: rest) rfl (fun _ h => absurd h List.not_mem_nil)
        ⟨.code, rfl, fun _ h => h⟩ (fun _ => List.cons_ne_nil _ _) rfl
    | [] | [.code] | .processing .. :: _ | .synchronous .. :: _ => exact .idle rfl
  | throw =>
    match stack with
    | .code :: activity :: rest =>
      refine .pops (.code :: (activity :: rest).takeWhile Activity.inClient)
        (unwind (activity :: rest)) ?_ (fun id h => Or.inl h) ⟨.code, rfl, fun _ h => h⟩
        (fun h => unwind_ne_nil (List.getLast?_cons_cons ▸ h)) rfl
      exact congrArg _ (takeWhile_append_unwind (activity :: rest)).symm
    | [] | [.code] | .processing .. :: _ | .synchronous .. :: _ => exact .idle rfl
  -- a call that waits is left when its timer is due or its request is answered
  | leave =>
    match stack with
    | .synchronous id true :: rest =>
      refine .pops [.synchronous id true] rest rfl (fun id' h => Or.inl h)
        ⟨_, rfl, fun _ h => h⟩ (fun h => ne_nil_of_getLast? (getLast?_tail rfl h)) ?_
      exact if_neg (by simp)
    | .synchronous id false :: rest =>
      cases hid : client.haveOutstandingRequest id with
      | true =>
        refine .idle ?_
        exact if_pos (by rw [hid]; rfl)
      | false =>
        refine .pops [.synchronous id false] rest rfl (fun id' h => Or.inr ?_)
          ⟨_, rfl, fun _ h => h⟩ (fun h => ne_nil_of_getLast? (getLast?_tail rfl h)) ?_
        · obtain rfl := List.mem_singleton.mp h
          simpa [Client.haveOutstandingRequest] using hid
        · exact if_neg (by rw [hid]; exact Bool.false_ne_true)
    | [] | .code :: _ | .processing .. :: _ => exact .idle rfl
  | fail =>
    match stack with
    | .synchronous id haveTimer :: rest =>
      refine .pops (.synchronous id haveTimer :: rest.takeWhile Activity.inClient) (unwind rest)
        ?_ (fun id h => Or.inl h) ⟨_, rfl, fun _ h => h⟩
        (fun h => unwind_ne_nil (getLast?_tail rfl h)) rfl
      exact congrArg _ (takeWhile_append_unwind rest).symm
    | [] | .code :: _ | .processing .. :: _ => exact .idle rfl

end ClientRun

/-! ## The invariant -/

/-- The event is the answer to a request. -/
def Event.answersTo (id : Bytes) : Event → Bool
  | .called _ (some req) call => call.answers && req.id == id
  | _ => false

/-- The answers that an activity has still to call. -/
def Activity.owed (id : Bytes) : Activity → Nat
  | .processing _ (some req) pending _ => if req.id = id then pending.countP Call.answers else 0
  | _ => 0

/-- If the call is an answer, it answers a request that was sent, to which the first tag of
the message belongs. -/
def Matched (events : List Event) (tag : Option Bytes) (req : Option OutstandingRequest)
    (call : Call) : Prop :=
  call.answers = true → ∃ r, req = some r ∧ tag = some r.id ∧ .sent r.id r ∈ events ∧
    call.MadeFor r

theorem Matched.append {events : List Event} {tag : Option Bytes}
    {req : Option OutstandingRequest} {call : Call} (h : Matched events tag req call)
    (events' : List Event) : Matched (events ++ events') tag req call := by
  intro hanswers
  obtain ⟨r, hr, htag, hsent, hmade⟩ := h hanswers
  exact ⟨r, hr, htag, List.mem_append_left _ hsent, hmade⟩

theorem reread_of_answers {call : Call} (h : call.answers = true) (c : Client) :
    call.reread c = call := by
  cases call with
  | storeChange => cases h
  | envelopeReceived => cases h
  | _ => rfl

theorem answers_reread (call : Call) (c : Client) : (call.reread c).answers = call.answers := by
  cases call <;> rfl

theorem Matched.reread {events : List Event} {tag : Option Bytes}
    {req : Option OutstandingRequest} {call : Call} (h : Matched events tag req call)
    (c : Client) : Matched events tag req (call.reread c) := by
  intro hanswers
  rw [answers_reread] at hanswers
  rw [reread_of_answers hanswers]
  exact h hanswers

namespace ClientRun

variable {uuid : Nat → Bytes} {s : ClientRun}

/-- How often a request is to be answered, or was. -/
def weight (s : ClientRun) (id : Bytes) : Nat :=
  (if s.client.haveOutstandingRequest id then 1 else 0) +
    (s.stack.map (Activity.owed id)).sum + s.events.countP (Event.answersTo id)

structure Inv (uuid : Nat → Bytes) (s : ClientRun) : Prop where
  weight_le : ∀ id, s.weight id ≤ 1
  fresh : ∀ n, s.generated ≤ n → s.weight (uuid n) = 0
  outstanding : ∀ id req, s.client.outstanding.lookup id = some req →
    req.id = id ∧ .sent id req ∈ s.events
  stack : ∀ tag req pending result, .processing tag req pending result ∈ s.stack →
    ∀ call ∈ pending, Matched s.events tag req call
  events : ∀ tag req call, .called tag req call ∈ s.events → Matched s.events tag req call

theorem inv_init : Inv uuid {} where
  weight_le _ := Nat.zero_le 1
  fresh _ _ := rfl
  outstanding id req h := by cases h
  stack tag req pending result h := by simp at h
  events tag req call h := absurd h List.not_mem_nil

/-- What only takes frames off the stack. -/
theorem Inv.pop (h : Inv uuid s) {stack : List Activity} (hstack : stack.Sublist s.stack) :
    Inv uuid { s with stack := stack } := by
  have hle : ∀ id, ({ s with stack := stack } : ClientRun).weight id ≤ s.weight id := by
    intro id
    have hsum := (hstack.map (Activity.owed id)).sum_le_sum (fun a _ => Nat.zero_le a)
    simp only [weight]
    omega
  exact {
    weight_le := fun id => Nat.le_trans (hle id) (h.weight_le id)
    fresh := fun n hn => Nat.le_zero.mp (Nat.le_trans (hle _) (Nat.le_of_eq (h.fresh n hn)))
    outstanding := h.outstanding
    stack := fun tag req pending result hmem =>
      h.stack tag req pending result (hstack.subset hmem)
    events := h.events }

/-- What is noted in between. -/
theorem Inv.note (h : Inv uuid s) {events : List Event}
    (hevents : ∀ tag req call, .called tag req call ∉ events) :
    Inv uuid { s with events := s.events ++ events } := by
  have hweight : ∀ id, ({ s with events := s.events ++ events } : ClientRun).weight id =
      s.weight id := by
    intro id
    have hzero : events.countP (Event.answersTo id) = 0 := by
      refine List.countP_eq_zero.mpr fun event hevent => ?_
      cases event with
      | called tag req call => exact absurd hevent (hevents tag req call)
      | _ => exact Bool.false_ne_true
    simp only [weight, List.countP_append, hzero, Nat.add_zero]
  exact {
    weight_le := fun id => by
      rw [hweight]
      exact h.weight_le id
    fresh := fun n hn => by
      rw [hweight]
      exact h.fresh n hn
    outstanding := fun id req hreq => by
      obtain ⟨hid, hsent⟩ := h.outstanding id req hreq
      exact ⟨hid, List.mem_append_left _ hsent⟩
    stack := fun tag req pending result hmem call hcall =>
      (h.stack tag req pending result hmem call hcall).append _
    events := fun tag req call hmem => by
      rcases List.mem_append.mp hmem with hmem | hmem
      · exact (h.events tag req call hmem).append _
      · exact absurd hmem (hevents tag req call) }

/-- A UUID that is not used. -/
theorem Inv.skip (h : Inv uuid s) : Inv uuid { s with generated := s.generated + 1 } where
  weight_le := h.weight_le
  fresh n hn := h.fresh n (Nat.le_of_succ_le hn)
  outstanding := h.outstanding
  stack := h.stack
  events := h.events

theorem haveOutstandingRequest_insert (c : Client) (id id' : Bytes) (req : OutstandingRequest) :
    ({ c with outstanding := c.outstanding.insert id req } : Client).haveOutstandingRequest id' =
      (decide (id' = id) || c.haveOutstandingRequest id') := by
  rw [Client.haveOutstandingRequest, Client.haveOutstandingRequest]
  by_cases heq : id' = id
  · subst heq
    rw [AList.lookup_insert, decide_eq_true rfl]
    rfl
  · rw [AList.lookup_insert_ne heq, decide_eq_false heq, Bool.false_or]

/-- What is outstanding when one request is taken out. -/
theorem haveOutstandingRequest_erase (c : Client) (id id' : Bytes) :
    ({ c with outstanding := c.outstanding.erase id } : Client).haveOutstandingRequest id' =
      (!decide (id' = id) && c.haveOutstandingRequest id') := by
  rw [Client.haveOutstandingRequest, Client.haveOutstandingRequest]
  by_cases heq : id' = id
  · subst heq
    rw [AList.lookup_erase, decide_eq_true rfl]
    rfl
  · rw [AList.lookup_erase_ne heq, decide_eq_false heq]
    rfl

/-- A new request has a weight of its own. -/
theorem weight_send (uuid : Nat → Bytes) (s : ClientRun) (e : Envelope) (req : OutstandingRequest) (id : Bytes) :
    (s.send uuid e req).weight id ≤ s.weight id + if id = uuid s.generated then 1 else 0 := by
  have hhave := haveOutstandingRequest_insert s.client (uuid s.generated) id
    { req with id := uuid s.generated }
  have hevents : (s.send uuid e req).events.countP (Event.answersTo id) =
      s.events.countP (Event.answersTo id) := by
    rw [send, List.countP_append]
    rfl
  simp only [weight, hevents]
  rw [show (s.send uuid e req).client.haveOutstandingRequest id =
    (decide (id = uuid s.generated) || s.client.haveOutstandingRequest id) from hhave]
  rw [show (s.send uuid e req).stack = s.stack from rfl]
  by_cases heq : id = uuid s.generated
  · rw [if_pos heq]
    split_ifs <;> omega
  · rw [if_neg heq, decide_eq_false heq, Bool.false_or]
    exact Nat.le_refl _

/-- A request that is sent has a new identifier, so it has no weight yet, and gets one. -/
theorem Inv.send (huuid : Function.Injective uuid) (h : Inv uuid s) (e : Envelope)
    (req : OutstandingRequest) : Inv uuid (s.send uuid e req) where
  weight_le id := by
    have hle := weight_send uuid s e req id
    by_cases heq : id = uuid s.generated
    · have hfresh := h.fresh s.generated (Nat.le_refl _)
      rw [← heq] at hfresh
      rw [if_pos heq] at hle
      omega
    · have := h.weight_le id
      rw [if_neg heq] at hle
      omega
  fresh n hn := by
    have hle := weight_send uuid s e req (uuid n)
    have hne : uuid n ≠ uuid s.generated := by
      intro heq
      have hlt : s.generated + 1 ≤ n := hn
      have := huuid heq
      omega
    have hfresh := h.fresh n (Nat.le_of_succ_le hn)
    rw [if_neg hne] at hle
    omega
  outstanding id r hr := by
    rw [show (s.send uuid e req).client.outstanding =
      s.client.outstanding.insert (uuid s.generated) { req with id := uuid s.generated } from rfl]
      at hr
    by_cases heq : id = uuid s.generated
    · subst heq
      rw [AList.lookup_insert] at hr
      cases hr
      exact ⟨rfl, List.mem_append_right _ List.mem_cons_self⟩
    · rw [AList.lookup_insert_ne heq] at hr
      obtain ⟨hid, hsent⟩ := h.outstanding id r hr
      exact ⟨hid, List.mem_append_left _ hsent⟩
  stack tag r pending result hmem call hcall :=
    (h.stack tag r pending result hmem call hcall).append _
  events tag r call hmem := by
    rcases List.mem_append.mp hmem with hmem | hmem
    · exact (h.events tag r call hmem).append _
    · cases List.mem_singleton.mp hmem

/-- A synchronous call waits. -/
theorem Inv.wait (h : Inv uuid s) (id : Bytes) (haveTimer : Bool) :
    Inv uuid (s.wait id haveTimer) := by
  have hweight : ∀ id', ({ s with stack := .synchronous id haveTimer :: s.stack } :
      ClientRun).weight id' = s.weight id' := by
    intro id'
    simp only [weight, List.map_cons, List.sum_cons, Activity.owed, Nat.zero_add]
  have hwaits : Inv uuid { s with stack := .synchronous id haveTimer :: s.stack } := {
    weight_le := fun id' => by
      rw [hweight]
      exact h.weight_le id'
    fresh := fun n hn => by
      rw [hweight]
      exact h.fresh n hn
    outstanding := h.outstanding
    stack := fun tag req pending result hmem => by
      rcases List.mem_cons.mp hmem with heq | hmem
      · cases heq
      · exact h.stack tag req pending result hmem
    events := h.events }
  exact hwaits.note fun tag req call hmem => by cases List.mem_singleton.mp hmem

/-- The next callback: an answer is called that was to be called. -/
theorem Inv.call (h : Inv uuid s) {tag : Option Bytes} {req : Option OutstandingRequest}
    {call : Call} {pending : List Call} {result : Except Fault Bool} {rest : List Activity}
    (hstack : s.stack = .processing tag req (call :: pending) result :: rest) :
    Inv uuid { s with
      stack := .code :: .processing tag req pending result :: rest
      events := s.events ++ [.called tag req (call.reread s.client)] } := by
  have hmatched := h.stack tag req (call :: pending) result
    (by rw [hstack]; exact List.mem_cons_self)
  -- what the activity owed for this call is paid by the event
  have hweight : ∀ id, ({ s with
      stack := .code :: .processing tag req pending result :: rest
      events := s.events ++ [.called tag req (call.reread s.client)] } : ClientRun).weight id =
        s.weight id := by
    intro id
    simp only [weight, hstack, List.map_cons, List.sum_cons, List.countP_append,
      List.countP_singleton]
    cases req with
    | none => simp [Activity.owed, Event.answersTo]
    | some r =>
      simp only [Activity.owed, Event.answersTo, answers_reread, List.countP_cons]
      by_cases hid : r.id = id
      · cases hanswers : call.answers with
        | true =>
          simp [hid]
          omega
        | false => simp [hid]
      · simp [hid]
  exact {
    weight_le := fun id => by
      rw [hweight]
      exact h.weight_le id
    fresh := fun n hn => by
      rw [hweight]
      exact h.fresh n hn
    outstanding := fun id r hr => by
      obtain ⟨hid, hsent⟩ := h.outstanding id r hr
      exact ⟨hid, List.mem_append_left _ hsent⟩
    stack := fun tag' req' pending' result' hmem call' hcall' => by
      rcases List.mem_cons.mp hmem with heq | hmem
      · cases heq
      · rcases List.mem_cons.mp hmem with heq | hmem
        · cases heq
          exact (hmatched call' (List.mem_cons_of_mem _ hcall')).append _
        · have hold := h.stack tag' req' pending' result'
            (by rw [hstack]; exact List.mem_cons_of_mem _ hmem) call' hcall'
          exact hold.append _
    events := fun tag' req' call' hmem => by
      rcases List.mem_append.mp hmem with hmem | hmem
      · exact (h.events tag' req' call' hmem).append _
      · cases List.mem_singleton.mp hmem
        exact ((hmatched call List.mem_cons_self).reread s.client).append _ }

/-- A message takes the request it answers from `outstanding`. -/
theorem Inv.process (h : Inv uuid s) (messages : List Bytes) : Inv uuid (s.process messages) := by
  have hprocessed := s.client.processed messages
  rw [ClientRun.process]
  cases hp : { s.client with calls := [] }.processResponseMessage messages with
  | mk result client =>
  rw [hp] at hprocessed
  dsimp only
  rcases hprocessed with ⟨houtstanding, hcalls⟩ | ⟨id₀, r, htag, hr, houtstanding, hcalls⟩
  · -- nothing is answered
    dsimp only at houtstanding hcalls
    have howed : ∀ id req,
        Activity.owed id (.processing (firstTag messages) req client.calls result) = 0 := by
      intro id req
      cases req with
      | none => rfl
      | some r =>
        rw [Activity.owed, List.countP_eq_zero.mpr fun call hcall => by simp [hcalls call hcall],
          ite_self]
    -- what is outstanding is the same, and the new activity owes nothing
    have hweight : ∀ id, ({ s with
        client := client
        stack := .processing (firstTag messages)
          ((firstTag messages).bind (s.client.outstanding.lookup ·)) client.calls result ::
            s.stack } : ClientRun).weight id = s.weight id := by
      intro id
      have hhave : client.haveOutstandingRequest id = s.client.haveOutstandingRequest id :=
        congrArg (fun outstanding => (outstanding.lookup id).isSome) houtstanding
      simp only [weight, hhave, List.map_cons, List.sum_cons, howed, Nat.zero_add]
    exact {
      weight_le := fun id => by
        rw [hweight]
        exact h.weight_le id
      fresh := fun n hn => by
        rw [hweight]
        exact h.fresh n hn
      outstanding := fun id req hreq => h.outstanding id req (houtstanding ▸ hreq)
      stack := fun tag req pending result' hmem call hcall => by
        rcases List.mem_cons.mp hmem with heq | hmem
        · cases heq
          intro hanswers
          rw [hcalls call hcall] at hanswers
          cases hanswers
        · exact h.stack tag req pending result' hmem call hcall
      events := h.events }
  · -- the entry becomes the answer to be called
    dsimp only at houtstanding hcalls
    obtain ⟨hid, hsent⟩ := h.outstanding id₀ r hr
    rw [htag, Option.bind_some, hr]
    have howed : ∀ id, Activity.owed id (.processing (some id₀) (some r) client.calls result) ≤
        if id = id₀ then 1 else 0 := by
      intro id
      rw [Activity.owed, hid]
      by_cases heq : id = id₀
      · rw [if_pos heq.symm, if_pos heq]
        rcases hcalls with hnil | ⟨call, hone, -⟩
        · rw [hnil]
          exact Nat.zero_le 1
        · rw [hone]
          exact List.countP_le_length
      · rw [if_neg (fun heq' => heq heq'.symm), if_neg heq]
    -- what the client had outstanding for the request, the new activity owes at most
    have hweight : ∀ id, ({ s with
        client := client
        stack := .processing (some id₀) (some r) client.calls result :: s.stack } :
          ClientRun).weight id ≤ s.weight id := by
      intro id
      have hhave : client.haveOutstandingRequest id =
          (!decide (id = id₀) && s.client.haveOutstandingRequest id) := by
        rw [← haveOutstandingRequest_erase]
        rw [Client.haveOutstandingRequest, houtstanding]
        rfl
      have hle := howed id
      simp only [weight, hhave, List.map_cons, List.sum_cons]
      by_cases heq : id = id₀
      · have hhad : s.client.haveOutstandingRequest id = true := by
          rw [heq, Client.haveOutstandingRequest, hr]
          rfl
        rw [if_pos heq] at hle
        rw [decide_eq_true heq, hhad, if_pos rfl, if_neg (by decide)]
        omega
      · rw [if_neg heq] at hle
        rw [decide_eq_false heq]
        simp only [Bool.not_false, Bool.true_and]
        omega
    exact {
      weight_le := fun id => Nat.le_trans (hweight id) (h.weight_le id)
      fresh := fun n hn =>
        Nat.le_zero.mp (Nat.le_trans (hweight _) (Nat.le_of_eq (h.fresh n hn)))
      outstanding := fun id req hreq => by
        dsimp only at hreq
        rw [houtstanding] at hreq
        by_cases heq : id = id₀
        · rw [heq, AList.lookup_erase] at hreq
          cases hreq
        · rw [AList.lookup_erase_ne heq] at hreq
          exact h.outstanding id req hreq
      stack := fun tag req pending result' hmem call hcall => by
        rcases List.mem_cons.mp hmem with heq | hmem
        · cases heq
          rcases hcalls with hnil | ⟨call', hone, hmade⟩
          · rw [hnil] at hcall
            exact absurd hcall List.not_mem_nil
          · rw [hone] at hcall
            obtain rfl := List.mem_singleton.mp hcall
            exact fun _ => ⟨r, rfl, by rw [hid], by rw [hid]; exact hsent, hmade⟩
        · exact h.stack tag req pending result' hmem call hcall
      events := h.events }

/-- **Step lemma**. -/
theorem Inv.step (huuid : Function.Injective uuid) (h : Inv uuid s) (a : Action) :
    Inv uuid (s.step uuid a) := by
  cases s.stepped uuid a with
  | idle hstep =>
    rw [hstep]
    exact h
  | skips hstep =>
    rw [hstep]
    exact h.skip
  | sends e req hstep =>
    rw [hstep]
    exact h.send huuid e req
  | waits e req haveTimer hstack hstep =>
    rw [hstep]
    exact (h.send huuid e req).wait _ haveTimer
  | processes messages ha hpumps hstep =>
    rw [hstep]
    exact h.process messages
  | calls tag req call pending result rest hstack hstep =>
    rw [hstep]
    exact h.call hstack
  | pops removed stack hstack hanswered hreports hcode hstep =>
    rw [hstep]
    exact h.pop (by rw [hstack]; exact List.sublist_append_right _ _)
  | crashes hstep =>
    rw [hstep]
    exact h.pop (List.nil_sublist _)

theorem Inv.foldl (huuid : Function.Injective uuid) (h : Inv uuid s) (actions : List Action) :
    Inv uuid (actions.foldl (ClientRun.step uuid) s) := by
  induction actions generalizing s with
  | nil => exact h
  | cons a actions ih => exact ih (h.step huuid a)

/-- **Run lemma**. -/
theorem inv_run (huuid : Function.Injective uuid) (actions : List Action) :
    Inv uuid (run uuid actions) :=
  inv_init.foldl huuid actions

/-! ## One answer -/

/-- Every request is answered at most once, for a message with its id, and no step takes
another entry out of `outstanding` than the one of the message it processes. -/
structure AtMostOnce (uuid : Nat → Bytes) (actions : List Action) : Prop where
  once : ∀ id, (run uuid actions).events.countP (Event.answersTo id) ≤ 1
  matched : ∀ tag req call, .called tag req call ∈ (run uuid actions).events →
    Matched (run uuid actions).events tag req call
  kept : ∀ a id req, (run uuid actions).client.outstanding.lookup id = some req →
    ((run uuid actions).step uuid a).client.outstanding.lookup id = some req ∨
      ∃ messages, a = .pump messages ∧ firstTag messages = some id

/-- A request that is outstanding stays so when another is sent. -/
theorem lookup_send (h : Inv uuid s) (e : Envelope) {id : Bytes} {req : OutstandingRequest}
    (r : OutstandingRequest) (hreq : s.client.outstanding.lookup id = some req) :
    (s.send uuid e r).client.outstanding.lookup id = some req := by
  have hne : id ≠ uuid s.generated := by
    intro heq
    have hfresh := h.fresh s.generated (Nat.le_refl _)
    rw [← heq, weight, Client.haveOutstandingRequest, hreq] at hfresh
    simp at hfresh
  rw [show (s.send uuid e r).client.outstanding =
    s.client.outstanding.insert (uuid s.generated) { r with id := uuid s.generated } from rfl,
    AList.lookup_insert_ne hne]
  exact hreq

/-- A response takes out at most the request that it answers. -/
theorem lookup_process (s : ClientRun) (messages : List Bytes) {id : Bytes}
    {req : OutstandingRequest} (hreq : s.client.outstanding.lookup id = some req) :
    (s.process messages).client.outstanding.lookup id = some req ∨ firstTag messages = some id := by
  have hprocessed := s.client.processed messages
  rw [ClientRun.process]
  cases hp : { s.client with calls := [] }.processResponseMessage messages with
  | mk result client =>
  rw [hp] at hprocessed
  dsimp only
  rcases hprocessed with ⟨houtstanding, -⟩ | ⟨id₀, r, htag, -, houtstanding, -⟩
  · exact Or.inl (houtstanding ▸ hreq)
  · by_cases heq : id = id₀
    · exact Or.inr (heq ▸ htag)
    · dsimp only at houtstanding
      rw [houtstanding, AList.lookup_erase_ne heq]
      exact Or.inl hreq

/-- **At most one answer** to each request, over all runs of a client: with any nesting of requests,
pumps and callbacks in callbacks, any messages of the server, and exceptions of the application. The
identifiers of the requests differ, as UUIDs do. -/
theorem atMostOnce_run (huuid : Function.Injective uuid) (actions : List Action) :
    AtMostOnce uuid actions := by
  have h := inv_run huuid actions
  refine ⟨fun id => ?_, h.events, fun a id req hreq => ?_⟩
  · exact Nat.le_trans (Nat.le_add_left _ _) (h.weight_le id)
  · cases (run uuid actions).stepped uuid a with
    | sends e r hstep =>
      rw [hstep]
      exact Or.inl (lookup_send h e r hreq)
    | waits e r haveTimer hstack hstep =>
      rw [hstep]
      exact Or.inl (lookup_send h e r hreq)
    | processes messages ha hpumps hstep =>
      rw [hstep]
      exact (lookup_process _ messages hreq).imp_right fun htag => ⟨messages, ha, htag⟩
    | idle hstep | skips hstep | calls _ _ _ _ _ _ _ hstep | pops _ _ _ _ _ _ hstep
    | crashes hstep =>
      rw [hstep]
      exact Or.inl hreq

/-- A ping whose answer comes twice, the second time while the callback pumps. -/
theorem atMostOnce_ping :
    Function.Injective (fun n => List.replicate n (0 : UInt8)) ∧
      AtMostOnce (fun n => List.replicate n 0)
        [.sendRequest (Envelope.ofMessage 0 .pingV1) { cbPing := some 1 } true,
          .pump [((Envelope.ofMessage 0 .pongV1).addTag []).toProtocolZmqMessage], .call,
          .pump [((Envelope.ofMessage 0 .pongV1).addTag []).toProtocolZmqMessage], .finish,
          .finish] := by
  have huuid : Function.Injective (fun n => List.replicate n (0 : UInt8)) :=
    fun n m h => (List.replicate_left_injective 0) h
  exact ⟨huuid, atMostOnce_run huuid _⟩

end ClientRun

end Zippylog
