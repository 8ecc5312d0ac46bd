import Zippylog.ClientRobustness
import Zippylog.LinuxTimer

/-!
# The timers of subscriptions

`client.cpp`: the timer that is started when a subscription is accepted, and `RenewSubscriptions`,
which is to send one keepalive for the subscriptions whose timers are due and to start these again.

- `subscriptions[id] = sub` copies the timer of a local variable, which is deleted with the
  variable: what is stored is the number of a timer that the system does not have any more.
- Other code of the process has timers too, and may be given a handle again. So a number that is
  stored can come to be that of a timer of somebody else.
- `Lease`: what the subscriptions are due for, from the acceptances and renewals alone.
- `keeps_iff`: the timers do what they are for exactly as long as none is stored.
-/

namespace Zippylog

open Wire Linux

/-- Whose a timer is: the subscription with an id, or other code. -/
abbrev TimerOwner := Option Bytes

/-- A client with the timers of its subscriptions, and the timers of its process. -/
structure SubscriptionTimers where
  client : Client := {}
  /-- `subscriptions[id].expiration_timer` -/
  timers : AList fun _ : Bytes => Linux.Timer := ∅
  os : TimerTable TimerOwner := fun _ => none

namespace SubscriptionTimers

/-- The case of `SubscriptionAcceptAckV1` in `HandleRequestResponse`, with the handle that
`timer_create` is about to return. -/
def accept (s : SubscriptionTimers) (req : OutstandingRequest) (ack : SubscriptionAcceptAckV1)
    (created : Option Nat) (now : Nat) : Except Fault Bool × SubscriptionTimers :=
  let sub : Linux.Timer := {}
  let ttl := ack.ttl * 1000
  if ttl < s.client.subscriptionRenewalOffset then
    (.error (.exception (.generic "subscription TTL less than configured time offset")), s)
  else
    match sub.start s.os now (some ack.id) created (ttl - s.client.subscriptionRenewalOffset) with
    | .error f => (.error f, s)
    | .ok (_, sub, os) =>
      let client := { s.client with subscriptions := s.client.subscriptions.insert ack.id {
        id := ack.id
        expirationTimer := ttl - s.client.subscriptionRenewalOffset
        cb := req.callbacks
        data := req.data } }
      match client.callAsserted req.cbSubscription fun cb => .subscription cb ack req.data with
      -- the destructor of the local variable is not reached
      | (.error f, client) =>
        (.error f, { client := client, timers := s.timers.insert ack.id sub, os := os })
      | (.ok result, client) => (.ok result, {
        client := client
        timers := s.timers.insert ack.id sub
        os := sub.destroy os })

/-- The loop of `RenewSubscriptions`, with the ids added so far. -/
def renewLoop (force : Bool) (now : Nat) :
    List Bytes → List Bytes → SubscriptionTimers → Except Fault (List Bytes) × SubscriptionTimers
  | [], renewed, s => (.ok renewed, s)
  | id :: ids, renewed, s =>
    match s.timers.lookup id with
    | none => renewLoop force now ids renewed s
    | some timer =>
      match if force then .ok (true, timer) else timer.hasSignaled s.os now with
      | .error f => (.error f, s)
      | .ok (false, timer) =>
        renewLoop force now ids renewed { s with timers := s.timers.insert id timer }
      | .ok (true, timer) =>
        match timer.start s.os now (some id) none 0 with
        | .error f => (.error f, { s with timers := s.timers.insert id timer })
        | .ok (_, timer, os) =>
          renewLoop force now ids (renewed ++ [id])
            { s with timers := s.timers.insert id timer, os := os }

/-- The ids of the subscriptions, in the order of the map. -/
def ids (s : SubscriptionTimers) : List Bytes := s.timers.keys.mergeSort fun id id' => id ≤ id'

/-- `RenewSubscriptions`: the ids of the keepalive. -/
def renewIds (s : SubscriptionTimers) (force : Bool) (now : Nat) :
    Except Fault (List Bytes) × SubscriptionTimers :=
  renewLoop force now s.ids [] s

/-- `RenewSubscriptions`: what is sent. -/
def renewSubscriptions (s : SubscriptionTimers) (force : Bool) (now : Nat) (createTime : UInt64) :
    Except Fault (List Frame) × SubscriptionTimers :=
  match s.renewIds force now with
  | (.error f, s) => (.error f, s)
  | (.ok ids, s) => (.ok (ZeroMQ.sendEnvelope
      (Envelope.ofMessage createTime (.subscribeKeepaliveV1 ids)) true false), s)

theorem sub_pos {ttl offset : UInt32} (hshort : ¬ ttl < offset) (hne : ttl ≠ offset) :
    0 < ttl - offset := by
  have hle : offset ≤ ttl := UInt32.not_lt.mp hshort
  have hlt : offset.toNat < ttl.toNat :=
    Nat.lt_of_le_of_ne hle fun heq => hne (UInt32.toNat_inj.mp heq.symm)
  rw [UInt32.lt_iff_toNat_lt, UInt32.toNat_sub_of_le _ _ hle]
  exact Nat.sub_pos_of_lt hlt

/-- Without the timers it is the case that `Client` has, if `timer_create` succeeds and
the interval is not zero. -/
theorem accept_client {s : SubscriptionTimers} {req : OutstandingRequest} {e : Envelope}
    {ack : SubscriptionAcceptAckV1} {created : Option Nat} {now : Nat} {messages : List Bytes}
    (hm : e.getMessage 0 = some (.subscriptionAcceptAckV1 ack))
    (hcreate : s.os.create (some ack.id) created ≠ none)
    (hpos : ack.ttl * 1000 ≠ s.client.subscriptionRenewalOffset) :
    ((s.accept req ack created now).1, (s.accept req ack created now).2.client) =
      s.client.handleMessage req e .subscriptionAcceptAckV1 messages := by
  obtain ⟨⟨handle, os⟩, hcreate⟩ := Option.ne_none_iff_exists'.mp hcreate
  rw [Client.handleMessage_ack_eq hm, accept]
  split_ifs with hshort
  · rfl
  · dsimp only
    rw [Timer.start_new (sub_pos hshort hpos) hcreate]
    cases req.cbSubscription <;> rfl

/-! ## Leases -/

/-- A subscription that was accepted for `ttl` milliseconds, or renewed, at a time. -/
structure Lease where
  ttl : UInt32
  since : Nat

/-- The time since then has reached the TTL minus the renewal offset. -/
def Lease.Due (lease : Lease) (offset : UInt32) (now : Nat) : Prop :=
  (lease.ttl.toNat * 1000 - offset.toNat) * 1000 ≤ now - lease.since

instance (lease : Lease) (offset : UInt32) (now : Nat) : Decidable (lease.Due offset now) :=
  inferInstanceAs (Decidable (_ ≤ _))

abbrev Leases := Bytes → Option Lease

def Leases.accept (leases : Leases) (ack : SubscriptionAcceptAckV1) (now : Nat) : Leases :=
  Function.update leases ack.id (some ⟨ack.ttl, now⟩)

def Leases.renew (leases : Leases) (offset : UInt32) (now : Nat) : Leases := fun id =>
  (leases id).map fun lease => if lease.Due offset now then { lease with since := now } else lease

/-! ## Runs -/

/-- A step of the process. -/
inductive Action where
  /-- a `SubscriptionAcceptAckV1` is processed, for a request with a callback -/
  | accept (req : OutstandingRequest) (callback : Nat) (ack : SubscriptionAcceptAckV1)
      (created : Option Nat) (now : Nat)
  /-- `RenewSubscriptions(false)` -/
  | renew (now : Nat)
  /-- other code makes a timer, sets one it has, or deletes one it has -/
  | create (created : Option Nat)
  | set (handle now value : Nat)
  | delete (handle : Nat)

/-- A run with the leases of its subscriptions. -/
structure Run where
  state : SubscriptionTimers := {}
  leases : Leases := fun _ => none

namespace Run

def accepted (r : Run) (req : OutstandingRequest) (callback : Nat)
    (ack : SubscriptionAcceptAckV1) (created : Option Nat) (now : Nat) :
    Except Fault Bool × SubscriptionTimers :=
  r.state.accept { req with cbSubscription := some callback } ack created now

def step (r : Run) : Action → Run
  | .accept req callback ack created now =>
    match r.accepted req callback ack created now with
    | (.ok _, s) => { state := s, leases := r.leases.accept ack now }
    | (.error _, s) => { r with state := s }
  | .renew now =>
    match r.state.renewIds false now with
    | (.ok _, s) =>
      { state := s, leases := r.leases.renew r.state.client.subscriptionRenewalOffset now }
    | (.error _, s) => { r with state := s }
  | .create created =>
    match r.state.os.create none created with
    | none => r
    | some (_, os) => { r with state := { r.state with os := os } }
  | .set handle now value =>
    if (r.state.os handle).map OsTimer.owner = some none then
      match r.state.os.settime handle now value with
      | none => r
      | some os => { r with state := { r.state with os := os } }
    else r
  | .delete handle =>
    if (r.state.os handle).map OsTimer.owner = some none then
      { r with state := { r.state with os := r.state.os.delete handle } }
    else r

/-- The run of a process with a new client. -/
def run (actions : List Action) : Run := actions.foldl step {}

theorem run_append (actions : List Action) (a : Action) :
    run (actions ++ [a]) = (run actions).step a := by
  rw [run, List.foldl_append]
  rfl

end Run

/-- Every stored subscription has a timer of its own, which exists and is running. -/
def Owned (s : SubscriptionTimers) : Prop :=
  ∀ id sub, s.client.subscriptions.lookup id = some sub → ∃ timer,
    s.timers.lookup id = some timer ∧ timer.initialized = true ∧ timer.running = true ∧
      (s.os timer.timer).map OsTimer.owner = some (some id)

/-- What the timers are for, over a run. -/
structure Keeps (actions : List Action) : Prop where
  defined : ∀ past req callback ack created now,
    past ++ [.accept req callback ack created now] <+: actions →
    ((Run.run past).accepted req callback ack created now).1 ≠ .error .undefinedBehavior
  owned : ∀ past, past <+: actions → (Run.run past).state.Owned
  renewed : ∀ past now, past ++ [.renew now] <+: actions → ∃ ids,
    ((Run.run past).state.renewIds false now).1 = .ok ids ∧ ids.Nodup ∧
      ∀ id, id ∈ ids ↔ ∃ lease, (Run.run past).leases id = some lease ∧
        lease.Due (Run.run past).state.client.subscriptionRenewalOffset now

/-- An acceptance that stores nothing: its TTL is refused, or there is no timer. -/
def Refuses (s : SubscriptionTimers) : Action → Prop
  | .accept _ _ ack created _ => ack.ttl * 1000 < s.client.subscriptionRenewalOffset ∨
      s.os.create (some ack.id) created = none
  | _ => True

/-! ## No subscription owns its timer -/

/-- What holds in any run: all timers that exist belong to other code, and the copies of
those that were deleted are running. -/
structure Inv (s : SubscriptionTimers) : Prop where
  foreign : ∀ handle timer, s.os handle = some timer → timer.owner = none
  started : ∀ id timer, s.timers.lookup id = some timer → timer.Started

theorem inv_init : Inv {} where
  foreign _ _ h := by cases h
  started _ _ h := by cases h

variable {s : SubscriptionTimers}

/-- An acceptance that is not refused stores a timer that is deleted, unless it starts it
with no interval. -/
theorem accept_eq (req : OutstandingRequest) (callback now : Nat) {ack : SubscriptionAcceptAckV1}
    {created : Option Nat} {handle : Nat} {os : TimerTable TimerOwner}
    (hshort : ¬ ack.ttl * 1000 < s.client.subscriptionRenewalOffset)
    (hne : ack.ttl * 1000 ≠ s.client.subscriptionRenewalOffset)
    (hcreate : s.os.create (some ack.id) created = some (handle, os)) :
    ∃ client sub, s.accept { req with cbSubscription := some callback } ack created now =
      (.ok true, {
        client := client
        timers := s.timers.insert ack.id {
          microseconds := some (ack.ttl * 1000 - s.client.subscriptionRenewalOffset)
          running := true
          initialized := true
          timer := handle }
        os := s.os.delete handle }) ∧
      client.subscriptions = s.client.subscriptions.insert ack.id sub ∧
      client.subscriptionRenewalOffset = s.client.subscriptionRenewalOffset := by
  have hpos := sub_pos hshort hne
  let sub : Subscription := {
    id := ack.id
    expirationTimer := ack.ttl * 1000 - s.client.subscriptionRenewalOffset
    cb := req.callbacks
    data := req.data }
  refine ⟨{ s.client with subscriptions := s.client.subscriptions.insert ack.id sub }.call
    (.subscription callback ack req.data), sub, ?_, rfl, rfl⟩
  rw [accept]
  dsimp only
  rw [if_neg hshort, Timer.start_new hpos hcreate]
  refine congrArg (Prod.mk _) ?_
  -- the timer that was just set is deleted
  simp only [Timer.destroy, TimerTable.delete, Function.update_idem]
  rfl

/-- An acceptance that is refused changes nothing. -/
theorem accept_of_refuses (req : OutstandingRequest) {ack : SubscriptionAcceptAckV1}
    {created : Option Nat} (now : Nat)
    (h : ack.ttl * 1000 < s.client.subscriptionRenewalOffset ∨
      s.os.create (some ack.id) created = none) :
    ∃ e, s.accept req ack created now = (.error (.exception e), s) := by
  rw [accept]
  dsimp only
  split_ifs with hshort
  · exact ⟨_, rfl⟩
  · rw [Timer.start_of_create_eq_none (h.resolve_left hshort)]
    exact ⟨_, rfl⟩

/-- With an interval of zero the timer is started with none. -/
theorem accept_zero {req : OutstandingRequest} {ack : SubscriptionAcceptAckV1}
    {created : Option Nat} {now handle : Nat} {os : TimerTable TimerOwner}
    (heq : ack.ttl * 1000 = s.client.subscriptionRenewalOffset)
    (hcreate : s.os.create (some ack.id) created = some (handle, os)) :
    s.accept req ack created now = (.error .undefinedBehavior, s) := by
  rw [accept, heq]
  dsimp only
  rw [if_neg (UInt32.lt_irrefl _), UInt32.sub_self, Timer.start_new_zero hcreate]

theorem Inv.delete (h : Inv s) (handle : Nat) : Inv { s with os := s.os.delete handle } where
  foreign x timer hx := by
    by_cases heq : x = handle
    · rw [heq] at hx
      have hnone : s.os.delete handle handle = none := TimerTable.delete_self handle
      cases hnone.symm.trans hx
    · exact h.foreign x timer ((TimerTable.delete_of_ne heq).symm.trans hx)
  started := h.started

/-- A change of the table that leaves the owners as they are. -/
theorem Inv.owners (h : Inv s) {os : TimerTable TimerOwner}
    (hos : ∀ x, (os x).map OsTimer.owner = (s.os x).map OsTimer.owner) :
    Inv { s with os := os } where
  foreign x timer hx := by
    have howner := hos x
    rw [show os x = some timer from hx] at howner
    obtain ⟨timer', htimer', heq⟩ := Option.map_eq_some_iff.mp howner.symm
    rw [← heq]
    exact h.foreign x timer' htimer'
  started := h.started

/-- A timer that was started can be stored. -/
theorem Inv.insert (h : Inv s) {timer : Linux.Timer} (htimer : timer.Started) (id : Bytes) :
    Inv { s with timers := s.timers.insert id timer } where
  foreign := h.foreign
  started id' timer' hlookup := by
    by_cases heq : id' = id
    · rw [heq, AList.lookup_insert] at hlookup
      cases hlookup
      exact htimer
    · rw [AList.lookup_insert_ne heq] at hlookup
      exact h.started id' timer' hlookup

/-- An acceptance changes nothing, or leaves a copy of a timer that is deleted. -/
theorem accept_cases (s : SubscriptionTimers) (req : OutstandingRequest) (callback : Nat)
    (ack : SubscriptionAcceptAckV1) (created : Option Nat) (now : Nat) :
    (∃ f, s.accept { req with cbSubscription := some callback } ack created now = (.error f, s)) ∨
      ∃ client timer handle, s.accept { req with cbSubscription := some callback } ack created now =
        (.ok true, {
          client := client
          timers := s.timers.insert ack.id timer
          os := s.os.delete handle }) ∧ timer.Started := by
  by_cases hrefuses : ack.ttl * 1000 < s.client.subscriptionRenewalOffset ∨
    s.os.create (some ack.id) created = none
  · obtain ⟨e, heq⟩ :=
      accept_of_refuses { req with cbSubscription := some callback } now hrefuses
    exact Or.inl ⟨_, heq⟩
  · obtain ⟨hshort, hcreate⟩ := not_or.mp hrefuses
    obtain ⟨⟨handle, os⟩, hcreate⟩ := Option.ne_none_iff_exists'.mp hcreate
    by_cases hne : ack.ttl * 1000 = s.client.subscriptionRenewalOffset
    · exact Or.inl ⟨_, accept_zero hne hcreate⟩
    · obtain ⟨client, sub, heq, -, -⟩ := accept_eq req callback now hshort hne hcreate
      exact Or.inr ⟨client, _, handle, heq, rfl, rfl, rfl, Option.some_ne_none _⟩

/-- An acceptance stores a copy of a timer that was started, if any. -/
theorem Inv.accept (h : Inv s) (req : OutstandingRequest) (callback : Nat)
    (ack : SubscriptionAcceptAckV1) (created : Option Nat) (now : Nat) :
    Inv (s.accept { req with cbSubscription := some callback } ack created now).2 := by
  rcases accept_cases s req callback ack created now with
    ⟨f, heq⟩ | ⟨client, timer, handle, heq, hstarted⟩
  · rw [heq]
    exact h
  · rw [heq]
    have hinv := (h.delete handle).insert hstarted ack.id
    exact ⟨hinv.foreign, hinv.started⟩

/-- The timer of an acceptance is deleted before the acceptance ends. -/
theorem accept_os (hnone : ∀ x, s.os x = none) (req : OutstandingRequest) (callback : Nat)
    (ack : SubscriptionAcceptAckV1) (created : Option Nat) (now x : Nat) :
    (s.accept { req with cbSubscription := some callback } ack created now).2.os x = none := by
  rcases accept_cases s req callback ack created now with
    ⟨f, heq⟩ | ⟨client, timer, handle, heq, -⟩
  · rw [heq]
    exact hnone x
  · rw [heq]
    dsimp only
    by_cases hx : x = handle
    · rw [hx, TimerTable.delete_self]
    · rw [TimerTable.delete_of_ne hx, hnone x]

/-! ## The loop -/

/-- Another state with the same handles, of which the same are valid and for the same
owners. -/
structure SameHandles (s s' : SubscriptionTimers) : Prop where
  client : s'.client = s.client
  timers : ∀ id, (s'.timers.lookup id).map Linux.Timer.timer =
    (s.timers.lookup id).map Linux.Timer.timer
  os : ∀ x, (s'.os x).map OsTimer.owner = (s.os x).map OsTimer.owner

theorem SameHandles.refl (s : SubscriptionTimers) : SameHandles s s :=
  ⟨rfl, fun _ => rfl, fun _ => rfl⟩

theorem SameHandles.trans {s' s'' : SubscriptionTimers} (h : SameHandles s s')
    (h' : SameHandles s' s'') : SameHandles s s'' :=
  ⟨h'.client.trans h.client, fun id => (h'.timers id).trans (h.timers id),
    fun x => (h'.os x).trans (h.os x)⟩

/-- The handle of a stored timer is no longer valid. -/
def Invalid (s : SubscriptionTimers) (id : Bytes) : Prop :=
  ∃ handle, (s.timers.lookup id).map Linux.Timer.timer = some handle ∧ s.os handle = none

theorem SameHandles.invalid {s' : SubscriptionTimers} (h : SameHandles s s') (id : Bytes) :
    s'.Invalid id ↔ s.Invalid id := by
  have hos : ∀ x, s'.os x = none ↔ s.os x = none := by
    intro x
    rw [← Option.map_eq_none_iff (f := OsTimer.owner), h.os x, Option.map_eq_none_iff]
  simp only [Invalid, h.timers id, hos]

/-- Starting a timer again changes neither its handle nor who has it. -/
theorem sameHandles_insert {id : Bytes} {timer : Linux.Timer}
    (hlookup : s.timers.lookup id = some timer) {os : TimerTable TimerOwner}
    (hos : ∀ x, (os x).map OsTimer.owner = (s.os x).map OsTimer.owner) :
    SameHandles s { s with timers := s.timers.insert id timer, os := os } where
  client := rfl
  timers id' := by
    by_cases heq : id' = id
    · rw [heq, AList.lookup_insert, hlookup]
    · rw [AList.lookup_insert_ne heq]
  os := hos

/-- The loop throws if it comes to a handle that is not valid, and keeps the handles. -/
theorem renewLoop_spec (h : Inv s) (now : Nat) (ids renewed : List Bytes) :
    Inv (renewLoop false now ids renewed s).2 ∧
      SameHandles s (renewLoop false now ids renewed s).2 ∧
      ((∃ f, (renewLoop false now ids renewed s).1 = .error f) ↔ ∃ id ∈ ids, s.Invalid id) := by
  induction ids generalizing s renewed with
  | nil => exact ⟨h, .refl s, by simp [renewLoop]⟩
  | cons id ids ih =>
    -- a timer that is kept or restarted leaves the rest of the loop as it was
    have hnext : ∀ (s' : SubscriptionTimers) (renewed' : List Bytes), Inv s' → SameHandles s s' →
        ¬ s.Invalid id → Inv (renewLoop false now ids renewed' s').2 ∧
          SameHandles s (renewLoop false now ids renewed' s').2 ∧
          ((∃ f, (renewLoop false now ids renewed' s').1 = .error f) ↔
            ∃ id' ∈ id :: ids, s.Invalid id') := by
      intro s' renewed' hinv hsame hvalid
      obtain ⟨hinv', hsame', herror⟩ := ih hinv renewed'
      refine ⟨hinv', hsame.trans hsame', herror.trans ?_⟩
      simp only [hsame.invalid, List.exists_mem_cons_iff, hvalid, false_or]
    rw [renewLoop]
    cases hlookup : s.timers.lookup id with
    | none =>
      exact hnext s renewed h (.refl s) fun ⟨handle, hhandle, _⟩ => by
        rw [hlookup] at hhandle
        cases hhandle
    | some timer =>
      have hstarted := h.started id timer hlookup
      simp only [Bool.false_eq_true, if_false]
      cases hos : s.os timer.timer with
      | none =>
        rw [hstarted.hasSignaled_of_none hos]
        refine ⟨h, .refl s, fun _ => ⟨id, List.mem_cons_self, timer.timer, ?_, hos⟩, fun _ => ⟨_, rfl⟩⟩
        rw [hlookup]
        rfl
      | some osTimer =>
        have hvalid : ¬ s.Invalid id := by
          rintro ⟨handle, hhandle, hnone⟩
          rw [hlookup] at hhandle
          cases hhandle
          cases hos.symm.trans hnone
        rw [hstarted.hasSignaled hos]
        by_cases hdue : osTimer.expires.getD now ≤ now
        · rw [decide_eq_true hdue]
          obtain ⟨expires, hrestart⟩ := hstarted.restart hos now (some id) none
          dsimp only
          rw [hrestart]
          have howners : ∀ x, (Function.update s.os timer.timer
              (some { osTimer with expires := expires }) x).map OsTimer.owner =
                (s.os x).map OsTimer.owner := by
            intro x
            by_cases hx : x = timer.timer
            · rw [hx, Function.update_self, hos]
              rfl
            · rw [Function.update_of_ne hx]
          exact hnext _ _ ((h.owners howners).insert hstarted id)
            (sameHandles_insert hlookup howners) hvalid
        · have hsame : ({ timer with signaled := false } : Linux.Timer) = timer := by
            rw [← hstarted.signaled]
          rw [decide_eq_false hdue, hsame]
          exact hnext _ _ (h.insert hstarted id) (sameHandles_insert hlookup fun _ => rfl) hvalid

/-- **When a renewal throws**: a handle of a stored timer is not valid. -/
theorem renewIds_error_iff (h : Inv s) (now : Nat) :
    (∃ f, (s.renewIds false now).1 = .error f) ↔ ∃ id, s.Invalid id := by
  refine (renewLoop_spec h now s.ids []).2.2.trans ⟨fun ⟨id, _, hid⟩ => ⟨id, hid⟩, ?_⟩
  rintro ⟨id, handle, hhandle, hnone⟩
  obtain ⟨timer, htimer, -⟩ := Option.map_eq_some_iff.mp hhandle
  have hmem : id ∈ s.timers := AList.lookup_isSome.mp (by rw [htimer]; rfl)
  exact ⟨id, List.mem_mergeSort.mpr (AList.mem_keys.mp hmem), handle, hhandle, hnone⟩

theorem renewIds_of_empty (h : s.timers = ∅) (now : Nat) :
    s.renewIds false now = (.ok [], s) := by
  rw [renewIds, ids, h]
  simp [renewLoop]

/-! ## All runs -/

/-- **The step lemma** for the timers that are stored. -/
theorem Inv.step {r : Run} (h : Inv r.state) (a : Action) : Inv (r.step a).state := by
  cases a with
  | accept req callback ack created now =>
    have haccept := h.accept req callback ack created now
    rw [Run.step, Run.accepted]
    split <;> rename_i heq <;> rw [heq] at haccept <;> exact haccept
  | renew now =>
    have hrenew := (renewLoop_spec h now r.state.ids []).1
    rw [Run.step, renewIds]
    split <;> rename_i heq <;> rw [heq] at hrenew <;> exact hrenew
  | create created =>
    rw [Run.step]
    split
    · exact h
    · rename_i handle os hcreate
      obtain ⟨-, -, rfl⟩ := TimerTable.create_eq_some hcreate
      refine ⟨fun x timer hx => ?_, h.started⟩
      by_cases heq : x = handle
      · rw [heq] at hx
        cases (Function.update_self handle _ r.state.os).symm.trans hx
        rfl
      · exact h.foreign x timer ((Function.update_of_ne heq _ r.state.os).symm.trans hx)
  | set handle now value =>
    rw [Run.step]
    split_ifs
    · split
      · exact h
      · rename_i os hset
        exact h.owners (TimerTable.settime_owner hset)
    · exact h
  | delete handle =>
    rw [Run.step]
    split_ifs
    · exact h.delete handle
    · exact h

/-- **Run lemma**. -/
theorem inv_run (actions : List Action) : Inv (Run.run actions).state := by
  induction actions using List.reverseRecOn with
  | nil => exact inv_init
  | append_singleton actions a ih =>
    rw [Run.run_append]
    exact ih.step a

/-- Between the steps of the client no timer of it exists. -/
theorem os_of_not_create {actions : List Action} (hother : ∀ created, .create created ∉ actions)
    (handle : Nat) : (Run.run actions).state.os handle = none := by
  induction actions using List.reverseRecOn generalizing handle with
  | nil => rfl
  | append_singleton actions a ih =>
    have hnone := ih fun created hmem => hother created (List.mem_append_left _ hmem)
    rw [Run.run_append]
    cases a with
    | accept req callback ack created now =>
      rw [Run.step, Run.accepted]
      have hos : ((Run.run actions).state.accept { req with cbSubscription := some callback } ack
          created now).2.os handle = none := accept_os hnone req callback ack created now handle
      split <;> rename_i heq <;> rw [heq] at hos <;> exact hos
    | renew now =>
      have hos := (renewLoop_spec (inv_run actions) now (Run.run actions).state.ids []).2.1.os handle
      rw [hnone handle] at hos
      rw [Run.step, renewIds]
      split <;> rename_i heq <;> rw [heq] at hos <;> exact Option.map_eq_none_iff.mp hos
    | create created => exact absurd (List.mem_append_right _ List.mem_cons_self) (hother created)
    | set handle' now value | delete handle' =>
      rw [Run.step, hnone handle', if_neg (by simp)]
      exact hnone handle

/-- An acceptance that is not refused is the end of what the timers are for. -/
theorem not_keeps_of_not_refuses {past actions : List Action} {a : Action}
    (hpast : past ++ [a] <+: actions) (hrefuses : ¬ (Run.run past).state.Refuses a) :
    ¬ Keeps actions := by
  intro hkeeps
  cases a with
  | accept req callback ack created now =>
    obtain ⟨hshort, hcreate⟩ := not_or.mp hrefuses
    obtain ⟨⟨handle, os⟩, hcreate⟩ := Option.ne_none_iff_exists'.mp hcreate
    by_cases hne : ack.ttl * 1000 = (Run.run past).state.client.subscriptionRenewalOffset
    · exact hkeeps.defined past req callback ack created now hpast (by
        rw [Run.accepted, accept_zero hne hcreate])
    · obtain ⟨client, sub, heq, hsubscriptions, -⟩ :=
        accept_eq req callback now hshort hne hcreate
      have howned := hkeeps.owned _ hpast
      have hinv := inv_run (past ++ [.accept req callback ack created now])
      rw [Run.run_append, Run.step, Run.accepted, heq] at howned hinv
      obtain ⟨timer, -, -, -, howner⟩ := howned ack.id sub (by
        dsimp only
        rw [hsubscriptions, AList.lookup_insert])
      obtain ⟨osTimer, hos, howner⟩ := Option.map_eq_some_iff.mp howner
      rw [hinv.foreign _ osTimer hos] at howner
      cases howner
  | _ => exact hrefuses trivial

/-- As long as every acceptance is refused nothing is stored. -/
theorem run_of_refuses {actions : List Action}
    (h : ∀ past a, past ++ [a] <+: actions → (Run.run past).state.Refuses a) :
    (Run.run actions).state.client.subscriptions = ∅ ∧ (Run.run actions).state.timers = ∅ ∧
      ∀ id, (Run.run actions).leases id = none := by
  induction actions using List.reverseRecOn with
  | nil => exact ⟨rfl, rfl, fun _ => rfl⟩
  | append_singleton actions a ih =>
    obtain ⟨hsubscriptions, htimers, hleases⟩ := ih fun past b hb =>
      h past b (hb.trans (List.prefix_append _ _))
    have hrefuses := h actions a (List.prefix_refl _)
    rw [Run.run_append]
    cases a with
    | accept req callback ack created now =>
      obtain ⟨e, heq⟩ := accept_of_refuses { req with cbSubscription := some callback } now hrefuses
      rw [Run.step, Run.accepted, heq]
      exact ⟨hsubscriptions, htimers, hleases⟩
    | renew now =>
      rw [Run.step, renewIds_of_empty htimers]
      refine ⟨hsubscriptions, htimers, fun id => ?_⟩
      dsimp only
      rw [Leases.renew, hleases id]
      rfl
    | create created =>
      rw [Run.step]
      split <;> exact ⟨hsubscriptions, htimers, hleases⟩
    | set handle now value =>
      rw [Run.step]
      split_ifs
      · split <;> exact ⟨hsubscriptions, htimers, hleases⟩
      · exact ⟨hsubscriptions, htimers, hleases⟩
    | delete handle =>
      rw [Run.step]
      split_ifs <;> exact ⟨hsubscriptions, htimers, hleases⟩

/-- **The renewal timers** do what they are for, in every state of a run, exactly in the runs in
which every acceptance is refused: because the TTL is below the offset of the client, or because the
system has no timer to give. The first subscription that is stored has no timer of its own. -/
theorem keeps_iff (actions : List Action) :
    Keeps actions ↔ ∀ past a, past ++ [a] <+: actions → (Run.run past).state.Refuses a := by
  constructor
  · intro hkeeps past a hpast
    by_contra hrefuses
    exact not_keeps_of_not_refuses hpast hrefuses hkeeps
  · intro h
    have hempty : ∀ past, past <+: actions → (Run.run past).state.client.subscriptions = ∅ ∧
        (Run.run past).state.timers = ∅ ∧ ∀ id, (Run.run past).leases id = none :=
      fun past hpast => run_of_refuses fun past' a ha => h past' a (ha.trans hpast)
    exact {
      defined := fun past req callback ack created now hpast => by
        obtain ⟨e, heq⟩ := accept_of_refuses { req with cbSubscription := some callback } now
          (h past _ hpast)
        rw [Run.accepted, heq]
        exact fun hfault => by cases hfault
      owned := fun past hpast id sub hsub => by
        rw [(hempty past hpast).1] at hsub
        cases hsub
      renewed := fun past now hpast => by
        obtain ⟨-, htimers, hleases⟩ := hempty past ((List.prefix_append _ _).trans hpast)
        refine ⟨[], by rw [renewIds_of_empty htimers], List.nodup_nil, fun id => ?_⟩
        constructor
        · exact fun hid => absurd hid List.not_mem_nil
        · rintro ⟨lease, hlease, -⟩
          rw [hleases id] at hlease
          cases hlease }

/-- **With one subscription stored** and no timers of other code, every renewal throws. -/
theorem renewIds_throws {actions : List Action} (hother : ∀ created, .create created ∉ actions)
    {id : Bytes} {timer : Linux.Timer} (hid : (Run.run actions).state.timers.lookup id = some timer)
    (now : Nat) : ∃ f, ((Run.run actions).state.renewIds false now).1 = .error f := by
  refine (renewIds_error_iff (inv_run actions) now).mpr ⟨id, timer.timer, ?_, ?_⟩
  · rw [hid]
    rfl
  · exact os_of_not_create hother _

/-- A subscription is accepted, and renewed when it is due. -/
theorem not_keeps_accept :
    ¬ Keeps [.accept {} 1 ⟨[1], 15000⟩ (some 7) 0, .renew 20000000000] := by
  intro hkeeps
  obtain ⟨ids, hids, -⟩ := hkeeps.renewed [.accept {} 1 ⟨[1], 15000⟩ (some 7) 0] 20000000000
    (List.prefix_refl _)
  have hstored : (Run.run [.accept {} 1 ⟨[1], 15000⟩ (some 7) 0]).state.timers.lookup [1] ≠ none := by
    decide
  obtain ⟨timer, htimer⟩ := Option.ne_none_iff_exists'.mp hstored
  obtain ⟨f, hthrows⟩ := renewIds_throws (by simp) htimer 20000000000
  cases hids.symm.trans hthrows

end SubscriptionTimers

end Zippylog
