import Zippylog.StoreWriter

/-!
# The store writer: replies

A REP socket takes a request, then sends its reply, and refuses anything else. A drain of it takes
requests until there are none, and sends a reply for each. The loop sends one more for the last
call, which has found nothing, unless that call has ended the loop by failing.

- `writeAll_spec`: a message is written up to the first payload that the store does not take.
- `processEnvelopeRep_cases`: a drain of the REP socket alternates when it ends with a request that
  fails, and else breaks the alternation for good.
- `rep_alternates_iff`: the same for every run.
-/

namespace Zippylog

open Wire

namespace StoreWriter

/-! ## One message -/

/-- After attempts of which these were taken. -/
def wrote (w : StoreWriter) (bucket set : Bytes) (payloads : List Bytes) (attempts : Nat) :
    StoreWriter :=
  { w with
    attempts := w.attempts + attempts
    written := w.written ++ payloads.map (⟨bucket, set, ·⟩) }

/-- **The write loop** stops at the first payload that the store does not take. -/
theorem writeAll_spec (bucket set : Bytes) (payloads : List Bytes) :
    ∀ w : StoreWriter, ∃ k, (∀ j < k, w.store (w.attempts + j) = .written) ∧
      ((k = payloads.length ∧
          writeAll bucket set payloads w = (some .ok, w.wrote bucket set payloads k)) ∨
        (k < payloads.length ∧ w.store (w.attempts + k) = .failed ∧
          writeAll bucket set payloads w =
            (some .receiveError, w.wrote bucket set (payloads.take k) (k + 1))) ∨
        (k < payloads.length ∧ w.store (w.attempts + k) = .threw ∧
          writeAll bucket set payloads w =
            (none, w.wrote bucket set (payloads.take k) (k + 1)))) := by
  induction payloads with
  | nil =>
    intro w
    refine ⟨0, fun _ hj => absurd hj (Nat.not_lt_zero _), .inl ⟨rfl, ?_⟩⟩
    rw [writeAll, wrote, List.map_nil, List.append_nil, Nat.add_zero]
  | cons data rest ih =>
    intro w
    -- whatever the store does with the first payload
    cases hstore : w.store w.attempts with
    | failed =>
      refine ⟨0, fun _ hj => absurd hj (Nat.not_lt_zero _),
        .inr (.inl ⟨Nat.succ_pos _, hstore, ?_⟩)⟩
      simp [writeAll, hstore, wrote]
    | threw =>
      refine ⟨0, fun _ hj => absurd hj (Nat.not_lt_zero _),
        .inr (.inr ⟨Nat.succ_pos _, hstore, ?_⟩)⟩
      simp [writeAll, hstore, wrote]
    | written =>
      obtain ⟨k, htaken, hk⟩ := ih { w with
        attempts := w.attempts + 1, written := w.written ++ [⟨bucket, set, data⟩] }
      have hall : ∀ j < k + 1, w.store (w.attempts + j) = .written := by
        intro j hj
        cases j with
        | zero => exact hstore
        | succ j =>
          have := htaken j (Nat.lt_of_succ_lt_succ hj)
          rwa [Nat.add_assoc, Nat.add_comm 1] at this
      have hwrote (payloads : List Bytes) (n : Nat) :
          wrote { w with
            attempts := w.attempts + 1, written := w.written ++ [⟨bucket, set, data⟩] }
            bucket set payloads n = w.wrote bucket set (data :: payloads) (n + 1) := by
        simp [wrote, Nat.add_assoc, Nat.add_comm 1]
      have hstep : writeAll bucket set (data :: rest) w = writeAll bucket set rest { w with
          attempts := w.attempts + 1, written := w.written ++ [⟨bucket, set, data⟩] } := by
        rw [writeAll]
        simp only [hstore]
      have hnext : w.attempts + 1 + k = w.attempts + (k + 1) := by omega
      refine ⟨k + 1, hall, ?_⟩
      rw [hstep, List.length_cons, List.take_succ_cons, ← hwrote, ← hwrote]
      simp only [hnext] at hk
      rcases hk with ⟨hk, hw⟩ | ⟨hk, hs, hw⟩ | ⟨hk, hs, hw⟩
      · exact .inl ⟨congrArg (· + 1) hk, hw⟩
      · exact .inr (.inl ⟨Nat.succ_lt_succ hk, hs, hw⟩)
      · exact .inr (.inr ⟨Nat.succ_lt_succ hk, hs, hw⟩)

/-- The payloads are the messages behind the path. -/
theorem target_payloads {memory : Bytes} {messages payloads : List Bytes} {bucket set : Bytes}
    (h : target memory messages = some (bucket, set, payloads)) :
    payloads = messages.drop 1 ∧ payloads ≠ [] := by
  match messages with
  | [] => exact absurd h.symm (Option.some_ne_none _)
  | [_] => exact absurd h.symm (Option.some_ne_none _)
  | path :: payload :: rest =>
    rw [target] at h
    split at h
    · exact absurd h.symm (Option.some_ne_none _)
    · split at h
      · exact absurd h.symm (Option.some_ne_none _)
      · split at h
        · exact absurd h.symm (Option.some_ne_none _)
        · obtain rfl : payload :: rest = payloads :=
            congrArg (Prod.snd ∘ Prod.snd) (Option.some.inj h)
          exact ⟨rfl, List.cons_ne_nil _ _⟩

section Fate

/-! What becomes of a message depends on the numbers of attempts and of messages
before it, as the store and the memory do. -/

variable (store : Nat → WriteResult) (memory : Nat → Bytes)

/-- A message whose payloads the store takes. -/
def Taken (attempts received : Nat) (messages : List Bytes) : Prop :=
  ∃ bucket set payloads, target (memory received) messages = some (bucket, set, payloads) ∧
    ∀ k < payloads.length, store (attempts + k) = .written

/-- A message that has no payloads or no stream set, or of which the store fails to
take a payload. -/
def Refused (attempts received : Nat) (messages : List Bytes) : Prop :=
  ∀ bucket set payloads, target (memory received) messages = some (bucket, set, payloads) →
    ∃ k < payloads.length, store (attempts + k) = .failed ∧
      ∀ j < k, store (attempts + j) = .written

/-- The requests on the socket begin with some that are taken, and then comes one
that is refused. The last part of none of these is empty. -/
def EndsInError : Nat → Nat → List Request → Prop
  | _, _, [] => False
  | attempts, received, request :: rest =>
    ∃ container tail,
      ZeroMQ.receiveMessage (ZeroMQ.multipart request.parts) = some (container, tail) ∧
      (Refused store memory attempts received container.messages ∨
        (Taken store memory attempts received container.messages ∧
          EndsInError (attempts + (container.messages.length - 1)) (received + 1) rest))

theorem not_endsInError_cons {attempts received : Nat} {request : Request} {rest : List Request}
    (h : ZeroMQ.receiveMessage (ZeroMQ.multipart request.parts) = none) :
    ¬ EndsInError store memory attempts received (request :: rest) := by
  rintro ⟨container, tail, hreceive, -⟩
  exact absurd (h.symm.trans hreceive).symm (Option.some_ne_none _)

/-- A request is refused, or one behind it is. -/
theorem endsInError_cons {attempts received : Nat} {request : Request} {rest : List Request}
    {container : MessageContainer} {tail : List Frame}
    (h : ZeroMQ.receiveMessage (ZeroMQ.multipart request.parts) = some (container, tail)) :
    EndsInError store memory attempts received (request :: rest) ↔
      Refused store memory attempts received container.messages ∨
        (Taken store memory attempts received container.messages ∧
          EndsInError store memory (attempts + (container.messages.length - 1)) (received + 1)
            rest) := by
  constructor
  · rintro ⟨container', tail', hreceive, hfate⟩
    obtain ⟨rfl, rfl⟩ := Prod.mk.inj (Option.some.inj (h.symm.trans hreceive))
    exact hfate
  · exact fun hfate => ⟨container, tail, h, hfate⟩

theorem not_refused_of_taken {attempts received : Nat} {messages : List Bytes}
    (h : Taken store memory attempts received messages) :
    ¬ Refused store memory attempts received messages := by
  obtain ⟨bucket, set, payloads, htarget, htaken⟩ := h
  intro hrefused
  obtain ⟨k, hk, hfailed, -⟩ := hrefused bucket set payloads htarget
  exact absurd ((htaken k hk).symm.trans hfailed) (by decide)

end Fate

/-- Every payload of a request was written, and there is one. -/
def AllWritten (container : MessageContainer) (written : List StoreWrite) : Prop :=
  written ≠ [] ∧ written.map StoreWrite.data = container.messages.drop 1

/-- Of a message that was received only what follows from it has changed. -/
structure Receives (w w' : StoreWriter) (client : Nat) (container : MessageContainer)
    (written : List StoreWrite) : Prop where
  store : w'.store = w.store
  memory : w'.memory = w.memory
  received : w'.received = w.received + 1
  pending : w'.pending = some client
  events : w'.events = w.events ++ [.received container written]

theorem map_data (bucket set : Bytes) (payloads : List Bytes) :
    (payloads.map (StoreWrite.mk bucket set ·)).map StoreWrite.data = payloads := by
  rw [List.map_map]
  exact List.map_id _

/-- What the request leaves when it was written up to some payload. -/
theorem receives_wrote (w : StoreWriter) (client : Nat) (container : MessageContainer)
    (bucket set : Bytes) (payloads : List Bytes) (n : Nat) {w' : StoreWriter}
    (hw' : w' = wrote { w with pending := some client, received := w.received + 1 } bucket set
      payloads n) :
    Receives w { w' with
        events := w.events ++ [.received container (w'.written.drop w.written.length)] }
      client container (payloads.map (⟨bucket, set, ·⟩)) := by
  subst hw'
  constructor <;> try rfl
  show w.events ++ [RepEvent.received container
    ((w.written ++ payloads.map (StoreWrite.mk bucket set ·)).drop w.written.length)] = _
  rw [List.drop_left]

/-- **A request** is taken, refused, or the store throws. -/
theorem receive_cases (w : StoreWriter) (client : Nat) (container : MessageContainer) :
    ∃ written, Receives w (w.receive client container).2 client container written ∧
      ((Taken w.store w.memory w.attempts w.received container.messages ∧
          (w.receive client container).1 = some .ok ∧
          (w.receive client container).2.attempts =
            w.attempts + (container.messages.length - 1) ∧
          AllWritten container written) ∨
        (Refused w.store w.memory w.attempts w.received container.messages ∧
          (w.receive client container).1 = some .receiveError ∧
          ¬ AllWritten container written) ∨
        (¬ Taken w.store w.memory w.attempts w.received container.messages ∧
          ¬ Refused w.store w.memory w.attempts w.received container.messages ∧
          (w.receive client container).1 = none)) := by
  cases htarget : target (w.memory w.received) container.messages with
  | none =>
    refine ⟨[], ?_, .inr (.inl ⟨?_, ?_, fun h => h.1 rfl⟩)⟩
    · simp only [receive, receiveAndWrite, htarget]
      constructor <;> try rfl
      rw [List.drop_length]
    · intro bucket set payloads h
      exact absurd (htarget.symm.trans h).symm (Option.some_ne_none _)
    · simp only [receive, receiveAndWrite, htarget]
  | some t =>
    obtain ⟨bucket, set, payloads⟩ := t
    obtain ⟨hpayloads, hne⟩ := target_payloads htarget
    have hunique {bucket' set' : Bytes} {payloads' : List Bytes}
        (h : target (w.memory w.received) container.messages = some (bucket', set', payloads')) :
        payloads' = payloads :=
      (congrArg (Prod.snd ∘ Prod.snd) (Option.some.inj (htarget.symm.trans h))).symm
    obtain ⟨k, htaken, hk⟩ := writeAll_spec bucket set payloads
      { w with pending := some client, received := w.received + 1 }
    have hreceive : w.receive client container =
        ((writeAll bucket set payloads
            { w with pending := some client, received := w.received + 1 }).1,
          { (writeAll bucket set payloads
              { w with pending := some client, received := w.received + 1 }).2 with
            events := w.events ++ [.received container
              ((writeAll bucket set payloads
                { w with pending := some client, received := w.received + 1 }).2.written.drop
                  w.written.length)] }) := by
      simp only [receive, receiveAndWrite, htarget]
    rw [hreceive]
    rcases hk with ⟨rfl, hw⟩ | ⟨hk, hstore, hw⟩ | ⟨hk, hstore, hw⟩
    -- all are written
    · refine ⟨_, receives_wrote w client container bucket set payloads payloads.length
        (congrArg Prod.snd hw), .inl ⟨?_, congrArg Prod.fst hw, ?_, ?_, ?_⟩⟩
      · exact ⟨bucket, set, payloads, htarget, htaken⟩
      · rw [hw, hpayloads, List.length_drop]
        rfl
      · exact fun h => hne (List.map_eq_nil_iff.mp h)
      · rw [map_data, hpayloads]
    -- the store fails at `k`, so fewer are written than there are
    · refine ⟨_, receives_wrote w client container bucket set (payloads.take k) (k + 1)
        (congrArg Prod.snd hw), .inr (.inl ⟨?_, congrArg Prod.fst hw, ?_⟩)⟩
      · intro bucket' set' payloads' h
        rw [hunique h]
        exact ⟨k, hk, hstore, htaken⟩
      · rintro ⟨-, hdata⟩
        rw [map_data, ← hpayloads] at hdata
        have hlength := congrArg List.length hdata
        rw [List.length_take] at hlength
        omega
    -- it throws at `k`, and did not fail before
    · refine ⟨_, receives_wrote w client container bucket set (payloads.take k) (k + 1)
        (congrArg Prod.snd hw), .inr (.inr ⟨?_, ?_, congrArg Prod.fst hw⟩)⟩
      · rintro ⟨bucket', set', payloads', h, hall⟩
        rw [hunique h] at hall
        exact absurd ((hall k hk).symm.trans hstore) (by decide)
      · intro hrefused
        obtain ⟨j, -, hfailed, hbefore⟩ := hrefused bucket set payloads htarget
        rcases Nat.lt_trichotomy j k with hjk | rfl | hkj
        · exact absurd ((htaken j hjk).symm.trans hfailed) (by decide)
        · exact absurd (hstore.symm.trans hfailed) (by decide)
        · exact absurd ((hbefore k hkj).symm.trans hstore) (by decide)

/-! ## A drain of the REP socket -/

/-- Every request gets a reply before the next is received, and nothing else is
sent. The reply is empty when all of the request was written. -/
def Alternates : List RepEvent → Prop
  | [] => True
  | .received container written :: .sent _ reply :: rest =>
    (reply = [] ↔ AllWritten container written) ∧ Alternates rest
  | _ => False

/-- Whatever comes behind these, the events do not alternate. -/
def Broken (es : List RepEvent) : Prop := ∀ more, ¬ Alternates (es ++ more)

/-- What is behind events that alternate has to alternate by itself. -/
theorem alternates_append {es : List RepEvent} (h : Alternates es) (more : List RepEvent) :
    Alternates (es ++ more) ↔ Alternates more := by
  induction es using Alternates.induct with
  | case1 => rfl
  | case2 container written client reply rest ih =>
    obtain ⟨hreply, hrest⟩ := h
    constructor
    · exact fun hmore => (ih hrest).mp hmore.2
    · exact fun hmore => ⟨hreply, (ih hrest).mpr hmore⟩
  | case3 es hnil hcons =>
    unfold Alternates at h
    split at h
    · exact absurd rfl hnil
    · exact absurd rfl (hcons _ _ _ _ _)
    · exact h.elim

theorem Broken.append {es es' : List RepEvent} (hes : Alternates es) (h : Broken es') :
    Broken (es ++ es') := by
  intro more
  rw [List.append_assoc, alternates_append hes]
  exact h more

theorem broken_sendRefused : Broken [.sendRefused] := fun _ h => h

theorem broken_recvRefused : Broken [.recvRefused] := fun _ h => h

theorem broken_storeThrew (container : MessageContainer) (written : List StoreWrite) :
    Broken [.received container written, .storeThrew] := fun _ h => h

theorem reply_of_pending {w : StoreWriter} {client : Nat} (h : w.pending = some client)
    (data : Bytes) :
    w.reply data =
      (true, { w with pending := none, events := w.events ++ [.sent client data] }) := by
  rw [reply, h]

/-- **A drain** alternates when it ends with a request that is refused, and else
nothing can mend it. -/
theorem processEnvelopeRep_cases (requests : List Request) :
    ∀ w : StoreWriter, w.pending = none → ∃ es,
      (processEnvelopeRep requests w).2.events = w.events ++ es ∧
      (processEnvelopeRep requests w).2.store = w.store ∧
      (processEnvelopeRep requests w).2.memory = w.memory ∧
      ((EndsInError w.store w.memory w.attempts w.received requests ∧ Alternates es ∧
          (processEnvelopeRep requests w).2.pending = none) ∨
        (¬ EndsInError w.store w.memory w.attempts w.received requests ∧ Broken es)) := by
  induction requests with
  | nil =>
    intro w hpending
    -- no message is left: the empty reply is sent all the same
    have hreply : w.reply [] = (false, { w with events := w.events ++ [.sendRefused] }) := by
      rw [reply, hpending]
    rw [processEnvelopeRep, hreply]
    exact ⟨[.sendRefused], rfl, rfl, rfl, .inr ⟨fun h => h, broken_sendRefused⟩⟩
  | cons request rest ih =>
    intro w hpending
    rw [processEnvelopeRep]
    cases hreceive : ZeroMQ.receiveMessage (ZeroMQ.multipart request.parts) with
    | none =>
      -- the last part was empty, and the rest of the message is waited for
      exact ⟨[.recvRefused], rfl, rfl, rfl,
        .inr ⟨not_endsInError_cons _ _ hreceive, broken_recvRefused⟩⟩
    | some received =>
      obtain ⟨container, tail⟩ := received
      have hends : EndsInError w.store w.memory w.attempts w.received (request :: rest) ↔ _ :=
        endsInError_cons _ _ hreceive
      obtain ⟨written, hreceives, hcase⟩ := w.receive_cases request.client container
      have hexchange (data : Bytes) : (w.receive request.client container).2.events ++
          [.sent request.client data] =
          w.events ++ [.received container written, .sent request.client data] := by
        rw [hreceives.events, List.append_assoc]
        rfl
      dsimp only
      rcases hcase with ⟨htaken, hresult, hattempts, hall⟩ | ⟨hrefused, hresult, hall⟩ |
        ⟨hnottaken, hnotrefused, hresult⟩
      · -- the reply is empty, and the drain goes on
        rw [hresult, reply_of_pending hreceives.pending []]
        simp only [if_true]
        obtain ⟨es, hevents, hstore, hmemory, hes⟩ := ih
          { (w.receive request.client container).2 with
            pending := none
            events := (w.receive request.client container).2.events ++
              [.sent request.client []] } rfl
        have hpair : Alternates [.received container written, .sent request.client []] :=
          ⟨iff_of_true rfl hall, trivial⟩
        refine ⟨[.received container written, .sent request.client []] ++ es, ?_,
          hstore.trans hreceives.store, hmemory.trans hreceives.memory, ?_⟩
        · rw [hevents, hexchange, List.append_assoc]
        · have hnext : EndsInError (w.receive request.client container).2.store
              (w.receive request.client container).2.memory
              (w.receive request.client container).2.attempts
              (w.receive request.client container).2.received rest ↔
              EndsInError w.store w.memory (w.attempts + (container.messages.length - 1))
                (w.received + 1) rest := by
            rw [hreceives.store, hreceives.memory, hreceives.received, hattempts]
          rcases hes with ⟨hrest, halternates, hnone⟩ | ⟨hrest, hbroken⟩
          · exact .inl ⟨hends.mpr (.inr ⟨htaken, hnext.mp hrest⟩),
              (alternates_append hpair es).mpr halternates, hnone⟩
          · refine .inr ⟨fun h => ?_, hbroken.append hpair⟩
            rcases hends.mp h with hrefused | ⟨-, h⟩
            · exact not_refused_of_taken _ _ htaken hrefused
            · exact hrest (hnext.mpr h)
      · -- the reply is the error, and the drain ends
        rw [hresult, reply_of_pending hreceives.pending (str "unknown error")]
        refine ⟨[.received container written, .sent request.client (str "unknown error")],
          hexchange _, hreceives.store, hreceives.memory,
          .inl ⟨hends.mpr (.inl hrefused), ?_, rfl⟩⟩
        exact ⟨iff_of_false (by decide) hall, trivial⟩
      · -- an exception: the request has no reply
        rw [hresult]
        refine ⟨[.received container written, .storeThrew], ?_, hreceives.store,
          hreceives.memory, .inr ⟨?_, broken_storeThrew _ _⟩⟩
        · show (w.receive request.client container).2.events ++ [.storeThrew] = _
          rw [hreceives.events, List.append_assoc]
          rfl
        · intro h
          rcases hends.mp h with hrefused | ⟨htaken, -⟩
          · exact hnotrefused hrefused
          · exact hnottaken htaken

/-! ## The PULL socket -/

/-- The REP socket of `w'` is that of `w`, and so are the store and the memory. -/
structure SameRep (w w' : StoreWriter) : Prop where
  store : w'.store = w.store
  memory : w'.memory = w.memory
  rep : w'.rep = w.rep
  pending : w'.pending = w.pending
  events : w'.events = w.events

theorem SameRep.refl (w : StoreWriter) : SameRep w w := ⟨rfl, rfl, rfl, rfl, rfl⟩

theorem SameRep.trans {w w' w'' : StoreWriter} (h : SameRep w w') (h' : SameRep w' w'') :
    SameRep w w'' where
  store := h'.store.trans h.store
  memory := h'.memory.trans h.memory
  rep := h'.rep.trans h.rep
  pending := h'.pending.trans h.pending
  events := h'.events.trans h.events

theorem sameRep_writeAll (bucket set : Bytes) (payloads : List Bytes) (w : StoreWriter) :
    SameRep w (writeAll bucket set payloads w).2 := by
  obtain ⟨k, -, ⟨-, hw⟩ | ⟨-, -, hw⟩ | ⟨-, -, hw⟩⟩ := writeAll_spec bucket set payloads w <;>
    rw [hw] <;> exact ⟨rfl, rfl, rfl, rfl, rfl⟩

theorem sameRep_receiveAndWrite (w : StoreWriter) (container : MessageContainer) :
    SameRep w (w.receiveAndWrite container).2 := by
  have hreceived : SameRep w { w with received := w.received + 1 } := ⟨rfl, rfl, rfl, rfl, rfl⟩
  rw [receiveAndWrite]
  split
  · exact hreceived
  · exact hreceived.trans (sameRep_writeAll _ _ _ _)

/-- **A drain of the PULL socket**: it ends without a message or behind one, or
goes on behind one. -/
theorem processEnvelopePull_rule {P : List Frame → StoreWriter → StoreWriter → Prop}
    (hnone : ∀ frames w, ZeroMQ.receiveMessage frames = none → P frames w { w with pull := [] })
    (hlast : ∀ frames w container rest,
      ZeroMQ.receiveMessage frames = some (container, rest) →
      P frames w { (w.receiveAndWrite container).2 with pull := rest })
    (hnext : ∀ frames w container rest w',
      ZeroMQ.receiveMessage frames = some (container, rest) →
      P rest (w.receiveAndWrite container).2 w' → P frames w w') (frames : List Frame)
    (w : StoreWriter) : P frames w (processEnvelopePull frames w).2 := by
  induction hn : frames.length using Nat.strong_induction_on generalizing frames w with
  | _ n ih =>
    rw [processEnvelopePull]
    split
    · rename_i hreceive
      exact hnone frames w hreceive
    · rename_i container rest hreceive
      have hlt := ZeroMQ.length_receiveMessage_lt hreceive
      dsimp only
      split
      · exact hlast frames w container rest hreceive
      · exact hlast frames w container rest hreceive
      · exact hnext frames w container rest _ hreceive (ih _ (hn ▸ hlt) rest _ rfl)

theorem sameRep_processEnvelopePull (frames : List Frame) (w : StoreWriter) :
    SameRep w (processEnvelopePull frames w).2 := by
  refine processEnvelopePull_rule (P := fun _ w w' => SameRep w w') ?_ ?_ ?_ frames w
  · exact fun _ _ _ => ⟨rfl, rfl, rfl, rfl, rfl⟩
  · intro _ w container _ _
    have h := sameRep_receiveAndWrite w container
    exact ⟨h.store, h.memory, h.rep, h.pending, h.events⟩
  · exact fun _ w container _ _ _ h => (sameRep_receiveAndWrite w container).trans h

theorem sameRep_pumpPull (w : StoreWriter) : SameRep w w.pumpPull.2 := by
  rw [pumpPull]
  split
  · exact SameRep.refl w
  · exact sameRep_processEnvelopePull _ w

/-! ## A run -/

/-- When `Pump` comes to the REP socket and finds requests there, they end in an
error. -/
def DrainsToError (w : StoreWriter) : Prop :=
  w.pumpPull.1 = true → w.rep ≠ [] →
    EndsInError w.store w.memory w.pumpPull.2.attempts w.pumpPull.2.received w.rep

/-- A condition on the state before each call of `Pump`. -/
def EachPump (P : StoreWriter → Prop) : StoreWriter → List Arrivals → Prop
  | _, [] => True
  | w, arrivals :: rest => P (w.arrive arrivals) ∧ EachPump P (w.arrive arrivals).pump rest

/-- **One call of `Pump`**. -/
theorem pump_cases {w : StoreWriter} (hpending : w.pending = none) :
    ∃ es, w.pump.events = w.events ++ es ∧
      ((DrainsToError w ∧ Alternates es ∧ w.pump.pending = none) ∨
        (¬ DrainsToError w ∧ Broken es)) := by
  have hsame := sameRep_pumpPull w
  rw [pump]
  by_cases hpull : w.pumpPull.1 = true
  · rw [if_pos hpull, pumpRep, hsame.rep]
    have hnone := hsame.pending.trans hpending
    by_cases hrep : w.rep = []
    · rw [if_pos (.inl hrep)]
      refine ⟨[], by rw [hsame.events, List.append_nil], .inl ⟨?_, trivial, hnone⟩⟩
      exact fun _ h => absurd hrep h
    -- requests are waiting, and none of them has been received
    · rw [if_neg (not_or.mpr ⟨hrep, fun h => h hnone⟩)]
      obtain ⟨es, hevents, -, -, hcase⟩ := processEnvelopeRep_cases w.rep _ hnone
      rw [hsame.store, hsame.memory] at hcase
      refine ⟨es, by rw [hevents, hsame.events], ?_⟩
      rcases hcase with ⟨hends, halternates, hdone⟩ | ⟨hends, hbroken⟩
      · exact .inl ⟨fun _ _ => hends, halternates, hdone⟩
      · exact .inr ⟨fun h => hends (h hpull hrep), hbroken⟩
  · rw [if_neg hpull]
    refine ⟨[], by rw [hsame.events, List.append_nil], .inl ⟨?_, trivial, ?_⟩⟩
    · exact fun h => absurd h hpull
    · exact hsame.pending.trans hpending

/-- Events are only ever added. -/
theorem events_pump (w : StoreWriter) : ∃ es, w.pump.events = w.events ++ es := by
  cases hpending : w.pending with
  | none =>
    obtain ⟨es, hevents, -⟩ := pump_cases hpending
    exact ⟨es, hevents⟩
  | some client =>
    have hsame := sameRep_pumpPull w
    have hsome : w.pumpPull.2.pending ≠ none := by
      rw [hsame.pending, hpending]
      exact Option.some_ne_none _
    -- the REP socket does not poll as readable
    have hskip : w.pumpPull.2.pumpRep = w.pumpPull.2 := by
      rw [pumpRep, if_pos (.inr hsome)]
    refine ⟨[], ?_⟩
    rw [pump, hskip, ite_self, hsame.events, List.append_nil]

/-- Events are only added. -/
theorem events_run (arrivals : List Arrivals) :
    ∀ w : StoreWriter, ∃ es, (w.run arrivals).events = w.events ++ es := by
  induction arrivals with
  | nil => exact fun w => ⟨[], (List.append_nil _).symm⟩
  | cons a rest ih =>
    intro w
    obtain ⟨es, hes⟩ := events_pump (w.arrive a)
    obtain ⟨es', hes'⟩ := ih (w.arrive a).pump
    refine ⟨es ++ es', ?_⟩
    rw [run, hes', hes, List.append_assoc]
    rfl

/-- **A run** from a state without a pending request. -/
theorem alternates_run (arrivals : List Arrivals) :
    ∀ w : StoreWriter, w.pending = none → ∃ es, (w.run arrivals).events = w.events ++ es ∧
      (Alternates es ↔ EachPump DrainsToError w arrivals) := by
  induction arrivals with
  | nil => exact fun w _ => ⟨[], (List.append_nil _).symm, Iff.rfl⟩
  | cons a rest ih =>
    intro w hpending
    obtain ⟨es, hes, ⟨hdrains, halternates, hnone⟩ | ⟨hdrains, hbroken⟩⟩ :=
      pump_cases (w := w.arrive a) hpending
    · obtain ⟨es', hes', hrest⟩ := ih _ hnone
      refine ⟨es ++ es', ?_, ?_⟩
      · rw [run, hes', hes, List.append_assoc]
        rfl
      · rw [alternates_append halternates, hrest]
        exact ⟨fun h => ⟨hdrains, h⟩, fun h => h.2⟩
    -- it is broken, whatever follows
    · obtain ⟨es', hes'⟩ := events_run rest (w.arrive a).pump
      refine ⟨es ++ es', ?_, ?_⟩
      · rw [run, hes', hes, List.append_assoc]
        rfl
      · exact ⟨fun h => absurd h (hbroken es'), fun h => absurd h.1 hdrains⟩

/-- **The REP socket alternates** in a run, a reply behind each request and none without one,
exactly when every drain of it ends with a request that is refused. The requests in front of that
one are written as they should be, and none has an empty last part. -/
theorem rep_alternates_iff (store : Nat → WriteResult) (memory : Nat → Bytes)
    (arrivals : List Arrivals) :
    Alternates (run { store, memory } arrivals).events ↔
      EachPump DrainsToError { store, memory } arrivals := by
  obtain ⟨es, hes, h⟩ := alternates_run arrivals { store, memory } rfl
  rw [hes]
  exact h

/-- A request that a store takes, with a delimiter in front of its path. -/
def takenRequest : Request where
  client := 0
  parts := [[], str "/b/s", [8, 1]]
  ne_nil := List.cons_ne_nil _ _

/-- The reply to it is sent twice, the second time without a request. -/
theorem not_rep_alternates_taken :
    ¬ Alternates (run { store := fun _ => .written, memory := fun _ => [] }
      [⟨[], [takenRequest]⟩]).events := by
  have hevents : (run { store := fun _ => .written, memory := fun _ => [] }
      [⟨[], [takenRequest]⟩]).events =
      [.received ⟨[], [str "/b/s", [8, 1]]⟩ [⟨str "b", str "s", [8, 1]⟩], .sent 0 [],
        .sendRefused] := by
    decide +kernel
  rw [hevents]
  exact fun h => h.2

end StoreWriter

end Zippylog
