import Zippylog.StoreWriterProof

/-!
# The store writer: delivery

An envelope that is delivered to a store writer is to be written to the stream of its path, once and
in the order of the calls. A message of the sender has a path and an envelope, and no delimiter in
front. The writer takes both for identities, and an envelope that serialises to nothing for the
delimiter of the next message.

- `processEnvelopePull_consumes`: a drain writes fewer payloads than it takes messages off the
  socket. What it writes is counted, since one message can be written under the path of another.
- `delivered_iff`: so no sequence of calls is delivered but the empty one.
-/

namespace Zippylog

open Wire

namespace Delivery

open StoreWriterSender

/-- What a call wants to have written. -/
def write (call : StoreWriterSender.Call) : StoreWrite :=
  ⟨call.bucket, call.set, ZeroMQ.encode call.e false⟩

/-- The calls are done: every envelope was appended once, in the order of its
sender, to the stream set of its call, and `WriteEnvelope` returned true for the
envelopes that were written. -/
structure Delivered (d : Delivery) : Prop where
  appended : ∃ order : List StoreWriterSender.Call, order.Perm d.calls ∧
    (∀ sender, order.filter (·.sender = sender) = d.calls.filter (·.sender = sender)) ∧
    d.writer.written = order.map write
  acknowledged : ∀ r ∈ d.returned, r.2 = some true ↔ write r.1 ∈ d.writer.written

/-! ## Receiving -/

/-- The frames of messages that have a path and an envelope each. -/
def frames (messages : List (Bytes × Bytes)) : List Frame :=
  messages.flatMap fun message => ZeroMQ.multipart [message.1, message.2]

/-- Behind a delimiter, paths and empty envelopes are taken until an envelope is
not empty. -/
theorem receiveFrom_frames {messages : List (Bytes × Bytes)} (h : ∀ m ∈ messages, m.1 ≠ []) :
    ∀ container : MessageContainer,
      ZeroMQ.receiveFrom false container (frames messages) = none ∨
        ∃ taken rest container', messages = taken ++ rest ∧
          ZeroMQ.receiveFrom false container (frames messages) =
            some (container', frames rest) ∧
          container'.messages.length = container.messages.length + taken.length + 1 := by
  induction messages with
  | nil => exact fun _ => .inl rfl
  | cons m messages ih =>
    intro container
    obtain ⟨path, e⟩ := m
    obtain ⟨hpath, hpaths⟩ := List.forall_mem_cons.mp h
    have hframes : frames ((path, e) :: messages) = ⟨path, true⟩ :: ⟨e, false⟩ :: frames messages :=
      rfl
    by_cases he : e = []
    -- the empty envelope is a delimiter, and what is behind it goes on the same message
    · have hstep : ZeroMQ.receiveFrom false container (frames ((path, e) :: messages)) =
          ZeroMQ.receiveFrom false
            { container with messages := container.messages ++ [path] } (frames messages) := by
        rw [hframes, ZeroMQ.receiveFrom, if_neg hpath]
        simp only [if_true]
        rw [ZeroMQ.receiveFrom, if_pos he]
        rfl
      rw [hstep]
      rcases ih hpaths { container with messages := container.messages ++ [path] } with
        hnone | ⟨taken, rest, container', rfl, hreceive, hlength⟩
      · exact .inl hnone
      · refine .inr ⟨(path, e) :: taken, rest, container', rfl, hreceive, ?_⟩
        rw [hlength, List.length_append, List.length_singleton, List.length_cons]
        omega
    · refine .inr ⟨[(path, e)], messages,
        { container with messages := container.messages ++ [path] ++ [e] }, rfl, ?_, ?_⟩
      · rw [hframes, ZeroMQ.receiveFrom, if_neg hpath]
        simp only [if_true]
        rw [ZeroMQ.receiveFrom, if_neg he]
        rfl
      · simp

/-- **A message that is received** has no more parts than were sent as messages. -/
theorem receiveMessage_frames {messages : List (Bytes × Bytes)} (h : ∀ m ∈ messages, m.1 ≠ []) :
    ZeroMQ.receiveMessage (frames messages) = none ∨
      ∃ taken rest container, messages = taken ++ rest ∧ taken ≠ [] ∧
        ZeroMQ.receiveMessage (frames messages) = some (container, frames rest) ∧
        container.messages.length ≤ taken.length := by
  cases messages with
  | nil => exact .inl rfl
  | cons m messages =>
    obtain ⟨path, e⟩ := m
    obtain ⟨hpath, hpaths⟩ := List.forall_mem_cons.mp h
    have hframes : frames ((path, e) :: messages) = ⟨path, true⟩ :: ⟨e, false⟩ :: frames messages :=
      rfl
    by_cases he : e = []
    -- only behind the delimiter are there messages, and their first is a path
    · have hstep : ZeroMQ.receiveMessage (frames ((path, e) :: messages)) =
          ZeroMQ.receiveFrom false ⟨[path], []⟩ (frames messages) := by
        rw [hframes, ZeroMQ.receiveMessage, ZeroMQ.receiveFrom, if_neg hpath]
        simp only [if_true]
        rw [ZeroMQ.receiveFrom, if_pos he]
        rfl
      rw [hstep]
      rcases receiveFrom_frames hpaths ⟨[path], []⟩ with
        hnone | ⟨taken, rest, container, rfl, hreceive, hlength⟩
      · exact .inl hnone
      · refine .inr ⟨(path, e) :: taken, rest, container, rfl, List.cons_ne_nil _ _, hreceive, ?_⟩
        rw [hlength, List.length_cons, List.length_nil]
        omega
    · refine .inr ⟨[(path, e)], messages, ⟨[path, e], []⟩, rfl, List.cons_ne_nil _ _, ?_,
        Nat.zero_le _⟩
      rw [hframes, ZeroMQ.receiveMessage, ZeroMQ.receiveFrom, if_neg hpath]
      simp only [if_true]
      rw [ZeroMQ.receiveFrom, if_neg he]
      rfl

/-- What is received was sent as messages, at least one, and the others still wait. -/
theorem taken_of_receiveMessage {messages : List (Bytes × Bytes)} {container : MessageContainer}
    {fs : List Frame} (hpaths : ∀ m ∈ messages, m.1 ≠ [])
    (h : ZeroMQ.receiveMessage (frames messages) = some (container, fs)) :
    ∃ taken rest, messages = taken ++ rest ∧ fs = frames rest ∧ (∀ m ∈ rest, m.1 ≠ []) ∧
      0 < taken.length ∧ container.messages.length ≤ taken.length := by
  rcases receiveMessage_frames hpaths with
    hnone | ⟨taken, rest, container', rfl, hne, hsome, hlength⟩
  · exact absurd (hnone.symm.trans h).symm (Option.some_ne_none _)
  · obtain ⟨rfl, rfl⟩ := Prod.mk.inj (Option.some.inj (hsome.symm.trans h))
    exact ⟨taken, rest, rfl, rfl, fun m hm => hpaths m (List.mem_append_right _ hm),
      List.length_pos_of_ne_nil hne, hlength⟩

/-! ## Writing -/

/-- One message is fewer payloads than parts. -/
theorem length_written_receiveAndWrite (w : StoreWriter) (container : MessageContainer) :
    (w.receiveAndWrite container).2.written.length ≤
      w.written.length + (container.messages.length - 1) := by
  rw [StoreWriter.receiveAndWrite]
  split
  · exact Nat.le_add_right _ _
  · rename_i bucket set payloads htarget
    obtain ⟨hpayloads, -⟩ := StoreWriter.target_payloads htarget
    have hlength : payloads.length = container.messages.length - 1 := by
      rw [hpayloads, List.length_drop]
    obtain ⟨k, -, ⟨-, hw⟩ | ⟨-, -, hw⟩ | ⟨-, -, hw⟩⟩ :=
      StoreWriter.writeAll_spec bucket set payloads { w with received := w.received + 1 } <;>
      rw [hw, StoreWriter.wrote] <;>
      simp only [List.length_append, List.length_map, List.length_take] <;> omega

/-- What a drain leaves of messages, and how much it writes. -/
def Consumes (messages : List (Bytes × Bytes)) (w w' : StoreWriter) : Prop :=
  ∃ rest, w'.pull = frames rest ∧ (∀ m ∈ rest, m.1 ≠ []) ∧
    w'.written.length + rest.length ≤ w.written.length + messages.length ∧
    (messages ≠ [] → w'.written.length + rest.length < w.written.length + messages.length)

/-- **A drain** writes fewer payloads than it takes messages off the socket. -/
theorem processEnvelopePull_consumes {messages : List (Bytes × Bytes)}
    (hpaths : ∀ m ∈ messages, m.1 ≠ []) (w : StoreWriter) :
    Consumes messages w (StoreWriter.processEnvelopePull (frames messages) w).2 := by
  refine StoreWriter.processEnvelopePull_rule (P := fun fs w w' => ∀ messages,
    fs = frames messages → (∀ m ∈ messages, m.1 ≠ []) → Consumes messages w w')
    ?_ ?_ ?_ (frames messages) w messages rfl hpaths
  · intro _ w _ messages _ _
    refine ⟨[], rfl, List.forall_mem_nil _, ?_, fun hne => ?_⟩
    · exact Nat.le_add_right _ _
    · exact Nat.add_lt_add_left (List.length_pos_of_ne_nil hne) _
  · rintro _ w container fs' hreceive messages rfl hpaths
    obtain ⟨taken, rest, rfl, rfl, hrest, hpos, hlength⟩ := taken_of_receiveMessage hpaths hreceive
    -- of at least one message taken, the first part is no payload
    have hwritten := length_written_receiveAndWrite w container
    refine ⟨rest, rfl, hrest, ?_, fun _ => ?_⟩ <;>
      rw [List.length_append] <;> dsimp only <;> omega
  · rintro _ w container fs' w' hreceive hrest messages rfl hpaths
    obtain ⟨taken, rest, rfl, rfl, hpaths, hpos, hlength⟩ :=
      taken_of_receiveMessage hpaths hreceive
    have hwritten := length_written_receiveAndWrite w container
    obtain ⟨rest', hpull, hpaths', hle, -⟩ := hrest rest rfl hpaths
    refine ⟨rest', hpull, hpaths', ?_, fun _ => ?_⟩ <;> rw [List.length_append] <;> omega

/-! ## Requests -/

theorem path_ne_nil (call : StoreWriterSender.Call) :
    Store.streamsetPath call.bucket call.set ≠ [] :=
  List.cons_ne_nil _ _

/-- A request of the sender has nothing but identities. -/
theorem receiveMessage_parts (call : StoreWriterSender.Call) :
    ZeroMQ.receiveMessage (ZeroMQ.multipart (parts call)) = none ∨
      ZeroMQ.receiveMessage (ZeroMQ.multipart (parts call)) = some (⟨parts call, []⟩, []) := by
  have hframes : ZeroMQ.multipart (parts call) =
      [⟨Store.streamsetPath call.bucket call.set, true⟩, ⟨ZeroMQ.encode call.e false, false⟩] := rfl
  rw [hframes, ZeroMQ.receiveMessage, ZeroMQ.receiveFrom, if_neg (path_ne_nil call)]
  simp only [if_true]
  rw [ZeroMQ.receiveFrom]
  split
  · exact .inl rfl
  · exact .inr rfl

/-- **The REP socket**: requests of the sender are not written. -/
theorem processEnvelopeRep_parts {requests : List Request}
    (h : ∀ r ∈ requests, ∃ call, r.parts = parts call) (w : StoreWriter) :
    (StoreWriter.processEnvelopeRep requests w).2.written = w.written ∧
      (StoreWriter.processEnvelopeRep requests w).2.pull = w.pull ∧
      ∀ r ∈ (StoreWriter.processEnvelopeRep requests w).2.rep, r ∈ requests := by
  have hreply (data : Bytes) (w : StoreWriter) :
      (w.reply data).2.written = w.written ∧ (w.reply data).2.pull = w.pull := by
    unfold StoreWriter.reply
    split <;> exact ⟨rfl, rfl⟩
  cases requests with
  | nil =>
    rw [StoreWriter.processEnvelopeRep]
    exact ⟨(hreply [] w).1, (hreply [] w).2, List.forall_mem_nil _⟩
  | cons request rest =>
    obtain ⟨call, hparts⟩ := h request List.mem_cons_self
    rw [StoreWriter.processEnvelopeRep, hparts]
    -- a drain ends with its first request
    rcases receiveMessage_parts call with hnone | hsome
    · rw [hnone]
      exact ⟨rfl, rfl, fun _ => List.mem_cons_of_mem _⟩
    · have hreceive : (w.receive request.client ⟨parts call, []⟩).1 = some .receiveError := rfl
      have hrest := hreply (str "unknown error") (w.receive request.client ⟨parts call, []⟩).2
      rw [hsome]
      simp only [hreceive]
      exact ⟨hrest.1, hrest.2, fun _ => List.mem_cons_of_mem _⟩

theorem frames_eq_nil_iff {messages : List (Bytes × Bytes)} :
    frames messages = [] ↔ messages = [] := by
  cases messages with
  | nil => exact iff_of_true rfl rfl
  | cons => exact iff_of_false (List.cons_ne_nil _ _) (List.cons_ne_nil _ _)

/-- **`Pump`** writes nothing, or less than it takes off the socket. -/
theorem pump_consumes {messages : List (Bytes × Bytes)} {w : StoreWriter}
    (hpull : w.pull = frames messages) (hpaths : ∀ m ∈ messages, m.1 ≠ [])
    (hrep : ∀ r ∈ w.rep, ∃ call, r.parts = parts call) :
    ∃ rest, w.pump.pull = frames rest ∧ (∀ m ∈ rest, m.1 ≠ []) ∧
      (w.pump.written = w.written ∧ rest = messages ∨
        w.pump.written.length + rest.length < w.written.length + messages.length) ∧
      ∀ r ∈ w.pump.rep, r ∈ w.rep := by
  have hsame := StoreWriter.sameRep_pumpPull w
  have hpumpPull : ∃ rest, w.pumpPull.2.pull = frames rest ∧ (∀ m ∈ rest, m.1 ≠ []) ∧
      (w.pumpPull.2.written = w.written ∧ rest = messages ∨
        w.pumpPull.2.written.length + rest.length < w.written.length + messages.length) := by
    rw [StoreWriter.pumpPull]
    split
    · exact ⟨messages, hpull, hpaths, .inl ⟨rfl, rfl⟩⟩
    · rename_i hne
      rw [hpull] at hne ⊢
      obtain ⟨rest, hrest, hpaths', -, hlt⟩ := processEnvelopePull_consumes hpaths w
      exact ⟨rest, hrest, hpaths', .inr (hlt fun h => hne (frames_eq_nil_iff.mpr h))⟩
  obtain ⟨rest, hrest, hpaths', hwritten⟩ := hpumpPull
  have hpumpRep : w.pumpPull.2.pumpRep.written = w.pumpPull.2.written ∧
      w.pumpPull.2.pumpRep.pull = w.pumpPull.2.pull ∧
      ∀ r ∈ w.pumpPull.2.pumpRep.rep, r ∈ w.pumpPull.2.rep := by
    rw [StoreWriter.pumpRep]
    split
    · exact ⟨rfl, rfl, fun _ h => h⟩
    · exact processEnvelopeRep_parts (hsame.rep ▸ hrep) _
  refine ⟨rest, ?_⟩
  rw [StoreWriter.pump, ← hsame.rep]
  split
  · rw [hpumpRep.1, hpumpRep.2.1]
    exact ⟨hrest, hpaths', hwritten, hpumpRep.2.2⟩
  · exact ⟨hrest, hpaths', hwritten, fun _ h => h⟩

/-! ## Runs -/

/-- More was called for than is written or on its way, once something is written. -/
structure Valid (d : Delivery) : Prop where
  pull : ∃ messages, d.writer.pull = frames messages ∧ (∀ m ∈ messages, m.1 ≠ []) ∧
    d.writer.written.length + messages.length ≤ d.calls.length ∧
    (d.writer.written ≠ [] → d.writer.written.length + messages.length < d.calls.length)
  rep : ∀ r ∈ d.writer.rep, ∃ call, r.parts = parts call
  idle : d.calls = [] → (∀ sender, d.waiting sender = none) ∧ d.returned = []

theorem valid_start (writer : StoreWriter) (hpull : writer.pull = []) (hrep : writer.rep = [])
    (hwritten : writer.written = []) : Valid { writer := writer } where
  pull := by
    refine ⟨[], hpull, List.forall_mem_nil _, ?_, fun h => absurd hwritten h⟩
    rw [hwritten]
    exact Nat.le_refl _
  rep := by
    rw [hrep]
    exact List.forall_mem_nil _
  idle := fun _ => ⟨fun _ => rfl, rfl⟩

/-- What a reply changes. -/
theorem answer_foldl (events : List RepEvent) :
    ∀ d : Delivery, (events.foldl answer d).writer = d.writer ∧
      (events.foldl answer d).calls = d.calls ∧
      ((∀ sender, d.waiting sender = none) → events.foldl answer d = d) := by
  induction events with
  | nil => exact fun _ => ⟨rfl, rfl, fun _ => rfl⟩
  | cons event events ih =>
    intro d
    have hevent : (d.answer event).writer = d.writer ∧ (d.answer event).calls = d.calls ∧
        ((∀ sender, d.waiting sender = none) → d.answer event = d) := by
      cases event with
      | sent client reply =>
        rw [answer]
        split
        · exact ⟨rfl, rfl, fun _ => rfl⟩
        · rename_i call hcall
          exact ⟨rfl, rfl, fun h => absurd (hcall.symm.trans (h client)) (Option.some_ne_none _)⟩
      | _ => exact ⟨rfl, rfl, fun _ => rfl⟩
    obtain ⟨hwriter, hcalls, hsame⟩ := ih (d.answer event)
    refine ⟨hwriter.trans hevent.1, hcalls.trans hevent.2.1, fun h => ?_⟩
    have hanswer := hevent.2.2 h
    rw [hanswer] at hsame
    rw [List.foldl_cons, hanswer, hsame h]

theorem calls_pump (d : Delivery) : (d.step .pump).calls = d.calls := (answer_foldl _ _).2.1

/-- **One step** keeps it so. -/
theorem Valid.step {d : Delivery} (h : Valid d) (s : Step) : Valid (d.step s) := by
  obtain ⟨messages, hpull, hpaths, hle, hlt⟩ := h.pull
  cases s with
  | deliverEnvelope call =>
    rw [Delivery.step]
    split
    · exact h
    · refine ⟨⟨messages ++ [(Store.streamsetPath call.bucket call.set,
        ZeroMQ.encode call.e false)], ?_, ?_, ?_, fun hne => ?_⟩, h.rep, ?_⟩
      · show d.writer.pull ++ ZeroMQ.multipart (parts call) = _
        rw [hpull, frames, frames, List.flatMap_append]
        rfl
      · exact List.forall_mem_append.mpr
          ⟨hpaths, List.forall_mem_singleton.mpr (path_ne_nil call)⟩
      · simp only [List.length_append, List.length_singleton]
        omega
      · have := hlt hne
        simp only [List.length_append, List.length_singleton]
        omega
      · exact fun hnil => absurd hnil (List.append_ne_nil_of_right_ne_nil _ (List.cons_ne_nil _ _))
  | writeEnvelope call =>
    rw [Delivery.step]
    split
    · exact h
    · refine ⟨⟨messages, hpull, hpaths, ?_, fun hne => ?_⟩, ?_, ?_⟩
      · simp only [List.length_append, List.length_singleton]
        omega
      · have := hlt hne
        simp only [List.length_append, List.length_singleton]
        omega
      · exact List.forall_mem_append.mpr ⟨h.rep, List.forall_mem_singleton.mpr ⟨call, rfl⟩⟩
      · exact fun hnil => absurd hnil (List.append_ne_nil_of_right_ne_nil _ (List.cons_ne_nil _ _))
  | pump =>
    obtain ⟨rest, hrest, hpaths', hwritten, hrep⟩ := pump_consumes hpull hpaths h.rep
    obtain ⟨hwriter, hcalls, hsame⟩ := answer_foldl
      (d.writer.pump.events.drop d.writer.events.length) { d with writer := d.writer.pump }
    rw [Delivery.step]
    -- replies change neither the writer nor the calls
    refine ⟨⟨rest, ?_, hpaths', ?_, ?_⟩, ?_, ?_⟩
    · rw [hwriter]
      exact hrest
    · rw [hwriter, hcalls]
      rcases hwritten with ⟨heq, rfl⟩ | hless
      · rw [heq]
        exact hle
      · exact Nat.le_trans (Nat.le_of_lt hless) hle
    · rw [hwriter, hcalls]
      rcases hwritten with ⟨heq, rfl⟩ | hless
      · rw [heq]
        exact hlt
      · exact fun _ => Nat.lt_of_lt_of_le hless hle
    · rw [hwriter]
      exact fun r hr => h.rep r (hrep r hr)
    · rw [hcalls]
      intro hnil
      obtain ⟨hwaiting, hreturned⟩ := h.idle hnil
      rw [hsame hwaiting]
      exact ⟨hwaiting, hreturned⟩

theorem Valid.run {d : Delivery} (h : Valid d) (steps : List Step) : Valid (d.run steps) := by
  induction steps generalizing d with
  | nil => exact h
  | cons s steps ih => exact ih (h.step s)

/-- A sequence without calls. -/
def Idle (steps : List Step) : Prop := ∀ s ∈ steps, s = .pump

/-- The first call is made, and a call that was made stays. -/
theorem Valid.calls_eq_nil_iff {d : Delivery} (h : Valid d) (steps : List Step) :
    (d.run steps).calls = [] ↔ d.calls = [] ∧ Idle steps := by
  induction steps generalizing d with
  | nil => exact ⟨fun hnil => ⟨hnil, List.forall_mem_nil _⟩, fun hnil => hnil.1⟩
  | cons s steps ih =>
    have hstep : (d.step s).calls = [] ↔ d.calls = [] ∧ s = .pump := by
      cases s with
      | pump =>
        rw [calls_pump]
        exact ⟨fun hnil => ⟨hnil, rfl⟩, fun hnil => hnil.1⟩
      | _ =>
        constructor
        · intro hnil
          rw [Delivery.step] at hnil
          split at hnil
          · rename_i hwaiting
            exact absurd ((h.idle hnil).1 _) hwaiting
          · exact absurd hnil (List.append_ne_nil_of_right_ne_nil _ (List.cons_ne_nil _ _))
        · rintro ⟨-, hpump⟩
          cases hpump
    rw [Delivery.run, List.foldl_cons]
    refine (ih (h.step s)).trans ?_
    rw [hstep, and_assoc]
    exact and_congr_right fun _ => (List.forall_mem_cons (p := fun s => s = Step.pump)).symm

/-- What is written cannot be all that was called for. -/
theorem Valid.calls_eq_nil_of_delivered {d : Delivery} (h : Valid d) (hdelivered : Delivered d) :
    d.calls = [] := by
  obtain ⟨order, hperm, -, hwritten⟩ := hdelivered.appended
  obtain ⟨messages, -, -, -, hlt⟩ := h.pull
  have hlength : d.writer.written.length = d.calls.length := by
    rw [hwritten, List.length_map, hperm.length_eq]
  by_contra hne
  have hpos := List.length_pos_of_ne_nil hne
  have hwrittenNe : d.writer.written ≠ [] := by
    intro hnil
    rw [hnil, List.length_nil] at hlength
    omega
  have := hlt hwrittenNe
  omega

theorem Valid.delivered_of_calls_eq_nil {d : Delivery} (h : Valid d) (hnil : d.calls = []) :
    Delivered d := by
  obtain ⟨messages, -, -, hle, -⟩ := h.pull
  have hwritten : d.writer.written = [] := by
    rw [hnil, List.length_nil] at hle
    exact List.length_eq_zero_iff.mp (by omega)
  constructor
  · refine ⟨[], ?_, ?_, hwritten⟩
    · rw [hnil]
    · rw [hnil]
      exact fun _ => rfl
  · rw [(h.idle hnil).2]
    exact List.forall_mem_nil _

/-- **Delivery**: with any number of calls of `Pump` behind them, from any senders and over both
sockets, the calls are delivered exactly when there are none: every message costs more than it
brings. -/
theorem delivered_iff (store : Nat → WriteResult) (memory : Nat → Bytes) (steps : List Step) :
    (∃ n, Delivered (Delivery.run { writer := { store, memory } }
      (steps ++ List.replicate n .pump))) ↔ Idle steps := by
  have hstart : Valid { writer := { store, memory } } := valid_start _ rfl rfl rfl
  constructor
  · rintro ⟨n, hdelivered⟩
    have hnil := (hstart.run _).calls_eq_nil_of_delivered hdelivered
    have hidle := ((hstart.calls_eq_nil_iff _).mp hnil).2
    exact fun s hs => hidle s (List.mem_append_left _ hs)
  · intro hidle
    refine ⟨0, ?_⟩
    rw [List.replicate_zero, List.append_nil]
    exact (hstart.run steps).delivered_of_calls_eq_nil
      ((hstart.calls_eq_nil_iff steps).mpr ⟨rfl, hidle⟩)

/-- One envelope for a stream set. -/
def oneCall : StoreWriterSender.Call where
  sender := 0
  bucket := str "b"
  set := str "s"
  e := { version := some 1 }

/-- A store that takes every write, and an envelope that is delivered to it. -/
theorem not_delivered_one :
    ¬ ∃ n, Delivered (Delivery.run
      { writer := { store := fun _ => .written, memory := fun _ => [] } }
      ([.deliverEnvelope oneCall] ++ List.replicate n .pump)) := by
  rintro ⟨n, hdelivered⟩
  have hstart : Valid { writer := { store := fun _ => .written, memory := fun _ => [] } } :=
    valid_start _ rfl rfl rfl
  have hnil := (hstart.run _).calls_eq_nil_of_delivered hdelivered
  have hidle := ((hstart.calls_eq_nil_iff _).mp hnil).2
  cases hidle (.deliverEnvelope oneCall) List.mem_cons_self

end Delivery

end Zippylog
