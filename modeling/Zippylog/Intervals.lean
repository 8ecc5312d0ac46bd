import Zippylog.Durations
import Zippylog.SubscriptionLifetime
import Zippylog.SubscriptionTimers

/-!
# Intervals

Milliseconds as they are given to timers: the TTL of subscriptions in the persisted state manager
and in the client, and the timeout of a synchronous request. Timers take microseconds, so each is
multiplied by 1000; the client takes an offset off, so that it renews before the server forgets.

- The products are taken in 32 bits; a signed one that does not fit is undefined.
- Only the call itself sets the timer that it waits with.
- `intervals_iff`: for which TTLs, offsets and timeouts the timers are set to what they
  stand for.
-/

namespace Zippylog

open Wire Linux

/-- A TTL in microseconds, in 32 bits. -/
theorem toNat_mul_thousand (ttl : UInt32) : (ttl * 1000).toNat = ttl.toNat * 1000 % 2 ^ 32 := by
  rw [UInt32.toNat_mul]
  rfl

theorem toNat_mul_thousand_eq_iff (ttl : UInt32) :
    (ttl * 1000).toNat = ttl.toNat * 1000 ↔ ttl.toNat ≤ 4294967 := by
  have hlt := ttl.toNat_lt
  rw [toNat_mul_thousand]
  omega

/-! ## The persisted state manager -/

namespace Lifetimes

/-- In any run each subscription has a timer that is due the TTL after it was registered or
last renewed. -/
def ArmsExactly (ttl : UInt32) : Prop :=
  ∀ os l, Reachable ttl os l → ∀ r ∈ l.manager.subscriptions, ∀ since,
    l.leases r.id = some since →
      ∃ timer, l.manager.os r.expirationTimer.timer = some timer ∧
        timer.expires.getD since = since + ttl.toNat * 1000 * 1000

theorem dueAt?_getD (interval : UInt32) (since : Nat) :
    (Timer.dueAt? interval since).getD since = since + interval.toNat * 1000 := by
  rw [Timer.dueAt?]
  split_ifs with hzero
  · rw [hzero]
    rfl
  · rfl

/-- A manager with one subscription. -/
theorem exists_registered (ttl : UInt32) :
    ∃ l r, Reachable ttl (fun _ => none) l ∧ r ∈ l.manager.subscriptions ∧
      l.leases r.id = some 0 := by
  let subscription : SubscriptionInfo := { id := [0] }
  let l : Lifetimes := { manager := { subscriptionTtl := ttl, os := fun _ => none } }
  have hnew : ¬ (subscription.id = [] ∨ l.manager.hasSubscription subscription.id = true) := by
    simp [subscription, l, TimedManager.hasSubscription]
  have hfree : l.manager.os 0 = none := rfl
  have hregister := TimedManager.registerSubscription_ok hnew hfree 0
  have hstep : Step l (l.register 0 0 subscription) := .register subscription le_rfl rfl
  refine ⟨_, ⟨subscription, l.manager.startedTimer 0⟩, .single hstep, ?_, ?_⟩
  · rw [register, hregister]
    exact List.mem_append_right _ List.mem_cons_self
  · rw [register, hregister]
    simp [subscription, TimedSubscription.id]

theorem armsExactly_iff (ttl : UInt32) : ArmsExactly ttl ↔ ttl.toNat ≤ 4294967 := by
  have hdue {os : TimerTable Bytes} {l : Lifetimes} (hl : Reachable ttl os l)
      {r : TimedSubscription} (hr : r ∈ l.manager.subscriptions) {since : Nat}
      (hsince : l.leases r.id = some since) :
      ∃ timer, l.manager.os r.expirationTimer.timer = some timer ∧
        timer.expires.getD since = since + (ttl * 1000).toNat * 1000 := by
    obtain ⟨since', hlease, hrun⟩ := hl.inv.leased r hr
    obtain rfl : since' = since := Option.some.inj (hlease.symm.trans hsince)
    refine ⟨_, hrun.armed, ?_⟩
    rw [dueAt?_getD, TimedManager.interval, hl.inv.ttl]
  rw [← toNat_mul_thousand_eq_iff]
  constructor
  · intro h
    obtain ⟨l, r, hl, hr, hsince⟩ := exists_registered ttl
    obtain ⟨timer, htimer, hexact⟩ := h _ l hl r hr 0 hsince
    obtain ⟨timer', htimer', hdue⟩ := hdue hl hr hsince
    obtain rfl : timer = timer' := Option.some.inj (htimer.symm.trans htimer')
    omega
  · intro hexact os l hl r hr since hsince
    obtain ⟨timer, htimer, hdue⟩ := hdue hl hr hsince
    exact ⟨timer, htimer, by rw [hdue, hexact]⟩

end Lifetimes

/-! ## The client -/

namespace SubscriptionTimers

/-- An acceptance starts a timer with the TTL without the renewal offset, which is shorter
than that of the server. -/
def ArmsShorter (ttl offset : UInt32) : Prop :=
  ∀ (s : SubscriptionTimers) (req : OutstandingRequest) (ack : SubscriptionAcceptAckV1)
    (handle now : Nat), s.client.subscriptionRenewalOffset = offset → ack.ttl = ttl →
      s.os handle = none →
      ∃ t interval, (s.accept req ack (some handle) now).2.timers.lookup ack.id = some t ∧
        t.microseconds = some interval ∧ interval.toNat + offset.toNat = ttl.toNat * 1000 ∧
        interval.toNat < ttl.toNat * 1000

section Accept

variable {s : SubscriptionTimers} {ack : SubscriptionAcceptAckV1} {handle : Nat}

/-- The interval that an acceptance is stored with. -/
theorem lookup_accept (req : OutstandingRequest) (hfree : s.os handle = none) (now : Nat)
    (hshort : ¬ ack.ttl * 1000 < s.client.subscriptionRenewalOffset)
    (hne : ack.ttl * 1000 ≠ s.client.subscriptionRenewalOffset) :
    ∃ t, (s.accept req ack (some handle) now).2.timers.lookup ack.id = some t ∧
      t.microseconds = some (ack.ttl * 1000 - s.client.subscriptionRenewalOffset) := by
  have hcreate : s.os.create (some ack.id) (some handle) = some (handle,
      Function.update s.os handle (some { owner := some ack.id })) := by
    simp [TimerTable.create, hfree]
  have hstart := @Timer.start_new _ _ _ now _ _ _ _ (sub_pos hshort hne) hcreate
  refine ⟨{
    microseconds := some (ack.ttl * 1000 - s.client.subscriptionRenewalOffset)
    running := true
    initialized := true
    timer := handle }, ?_, rfl⟩
  rw [accept]
  dsimp only
  rw [if_neg hshort, hstart]
  dsimp only
  split <;> exact AList.lookup_insert _

/-- Any other acceptance stores none. -/
theorem timers_accept (req : OutstandingRequest) (hfree : s.os handle = none) (now : Nat)
    (h : ack.ttl * 1000 ≤ s.client.subscriptionRenewalOffset) :
    (s.accept req ack (some handle) now).2 = s := by
  have hcreate : s.os.create (some ack.id) (some handle) = some (handle,
      Function.update s.os handle (some { owner := some ack.id })) := by
    simp [TimerTable.create, hfree]
  by_cases hshort : ack.ttl * 1000 < s.client.subscriptionRenewalOffset
  · obtain ⟨e, haccept⟩ : ∃ e, s.accept req ack (some handle) now = (.error (.exception e), s) :=
      accept_of_refuses req now (Or.inl hshort)
    rw [haccept]
  · have heq := UInt32.le_antisymm h (UInt32.not_lt.mp hshort)
    rw [accept_zero heq hcreate]

end Accept

/-- The offset of a client is not zero: it is set once, to five seconds. -/
theorem armsShorter_iff (ttl offset : UInt32) (hle : offset.toNat ≤ ttl.toNat * 1000) :
    ArmsShorter ttl offset ↔
      ttl.toNat ≤ 4294967 ∧ offset.toNat < ttl.toNat * 1000 ∧ 0 < offset.toNat := by
  rw [← toNat_mul_thousand_eq_iff]
  constructor
  · intro h
    obtain ⟨s, rfl, hfree, htimers⟩ : ∃ s : SubscriptionTimers,
        s.client.subscriptionRenewalOffset = offset ∧ s.os 0 = none ∧ s.timers = ∅ :=
      ⟨{ client := { subscriptionRenewalOffset := offset } }, rfl, rfl, rfl⟩
    obtain ⟨ack, rfl⟩ : ∃ ack : SubscriptionAcceptAckV1, ack.ttl = ttl := ⟨⟨[], ttl⟩, rfl⟩
    obtain ⟨t, interval, hlookup, hinterval, hexact, hlt⟩ := h s {} ack 0 0 rfl rfl hfree
    by_cases hshort : ack.ttl * 1000 ≤ s.client.subscriptionRenewalOffset
    · rw [timers_accept _ hfree 0 hshort, htimers] at hlookup
      cases hlookup
    · have hlong : s.client.subscriptionRenewalOffset < ack.ttl * 1000 := UInt32.not_le.mp hshort
      obtain ⟨t', hlookup', hinterval'⟩ := lookup_accept {} hfree 0
        (UInt32.not_lt.mpr (UInt32.le_of_lt hlong)) (UInt32.ne_of_lt hlong).symm
      obtain rfl : t = t' := Option.some.inj (hlookup.symm.trans hlookup')
      obtain rfl := Option.some.inj (hinterval.symm.trans hinterval')
      have hsub := UInt32.toNat_sub_of_le _ _ (UInt32.le_of_lt hlong)
      have hlong' := UInt32.lt_iff_toNat_lt.mp hlong
      omega
  · rintro ⟨hexact, hlt, hpos⟩ s req ack handle now rfl rfl hfree
    have hlong : s.client.subscriptionRenewalOffset < ack.ttl * 1000 :=
      UInt32.lt_iff_toNat_lt.mpr (hexact ▸ hlt)
    obtain ⟨t, hlookup, hinterval⟩ := lookup_accept req hfree now
      (UInt32.not_lt.mpr (UInt32.le_of_lt hlong)) (UInt32.ne_of_lt hlong).symm
    have hsub := UInt32.toNat_sub_of_le _ _ (UInt32.le_of_lt hlong)
    exact ⟨t, _, hlookup, hinterval, by omega, by omega⟩

end SubscriptionTimers

/-! ## Synchronous requests -/

namespace Client

/-- One round of the loop: what `Pump` receives within its 25 milliseconds, and the time at
which `Signaled` is called. -/
structure Round where
  arrived : Option (Option MessageContainer) := none
  now : Nat

/-- How the wait for a response ends. -/
inductive Awaited where
  | answered
  | gaveUp (now : Nat)
  | throws (f : Fault)
  /-- the rounds end before it does -/
  | waiting

/-- `Pump`. -/
def pump (c : Client) (arrived : Option (Option MessageContainer)) : Handled Int :=
  match arrived with
  | none => (.ok 0, c)
  | some received =>
    match c.processPendingMessage received with
    | (.error f, c) => (.error f, c)
    | (.ok processed, c) => (.ok (if processed then 1 else -1), c)

/-- The loop of `SendAndProcessSynchronousRequest`. -/
def awaitTimed (id : Bytes) (haveTimer : Bool) (os : TimerTable TimerOwner) :
    List Round → Client → Linux.Timer → Awaited
  | [], _, _ => .waiting
  | round :: rounds, c, timer =>
    match c.pump round.arrived with
    | (.error f, _) => .throws f
    | (.ok _, c) =>
      if !c.haveOutstandingRequest id then .answered
      else if !haveTimer then awaitTimed id haveTimer os rounds c timer
      else match timer.hasSignaled os round.now with
        | .error f => .throws f
        | .ok (true, _) => .gaveUp round.now
        | .ok (false, timer) => awaitTimed id haveTimer os rounds c timer

/-- `timeout * 1000`, an `int32`, as the parameter of `Timer`. -/
def timeoutInterval (timeout : Int32) : Except Fault UInt32 :=
  let product := timeout.toInt * 1000
  if -2 ^ 31 ≤ product ∧ product < 2 ^ 31 then .ok (UInt32.ofInt product)
  else .error .undefinedBehavior

/-- `SendAndProcessSynchronousRequest` once the request is sent. -/
def awaitSynchronous (c : Client) (id : Bytes) (timeout : Int32) (os : TimerTable TimerOwner)
    (now : Nat) (created : Option Nat) (rounds : List Round) : Awaited :=
  match timeoutInterval timeout with
  | .error f => .throws f
  | .ok interval =>
    let timer : Linux.Timer := { microseconds := some interval }
    match timer.start os now none created 0 with
    | .error f => .throws f
    | .ok (_, timer, os) => awaitTimed id (decide (0 < timeout)) os rounds c timer

/-- The timer of the call, with its own handle. -/
theorem start_timer {os : TimerTable TimerOwner} {handle : Nat} (hfree : os handle = none)
    (now : Nat) (interval : UInt32) :
    ({ microseconds := some interval } : Linux.Timer).start os now none (some handle) 0 = .ok (true,
      { microseconds := some interval, running := true, initialized := true, timer := handle },
      Function.update os handle
        (some { owner := none, expires := Timer.dueAt? interval now })) := by
  have hzero (t : Linux.Timer) (ht : t.microseconds = some interval)
      (os : TimerTable TimerOwner) : t.arm os now 0 = t.arm os now interval := by
    have hself : t.requested 0 = t.requested interval := by
      rw [Timer.requested, Timer.requested, ht, if_neg (UInt32.lt_irrefl 0), ite_self]
    rw [Timer.arm_eq, Timer.arm_eq, hself]
  have hcreate : os.create none (some handle) =
      some (handle, Function.update os handle (some { owner := none })) := by
    simp [TimerTable.create, hfree]
  rw [← Timer.start_constructed hfree now none interval]
  simp only [Timer.start, Timer.initializeTimer, hcreate, Bool.false_eq_true, if_false]
  exact hzero _ rfl _

/-- **Loop lemma**: the call gives up when its timer is due. -/
theorem expires_of_gaveUp {os : TimerTable TimerOwner} {timer : Linux.Timer}
    (hstarted : timer.Started) {armed : OsTimer TimerOwner} (hos : os timer.timer = some armed)
    {id : Bytes} {haveTimer : Bool} {rounds : List Round} {c : Client} {later : Nat}
    (h : awaitTimed id haveTimer os rounds c timer = .gaveUp later) :
    armed.expires.getD later ≤ later := by
  induction rounds generalizing c with
  | nil => cases h
  | cons round rounds ih =>
    rw [awaitTimed] at h
    split at h
    · cases h
    · split_ifs at h
      · exact ih h
      · rw [hstarted.hasSignaled hos] at h
        by_cases hdue : armed.expires.getD round.now ≤ round.now
        · rw [decide_eq_true hdue] at h
          cases h
          exact hdue
        · have hsame : { timer with signaled := false } = timer := by
            rw [← hstarted.signaled]
          rw [decide_eq_false hdue, hsame] at h
          exact ih h

/-- A call without an answer waits at least the milliseconds it is given. -/
structure WaitsFor (timeout : Int32) : Prop where
  defined : ∃ interval, timeoutInterval timeout = .ok interval
  waits : ∀ (c : Client) (id : Bytes) (os : TimerTable TimerOwner) (now : Nat)
    (created : Option Nat) (rounds : List Round) (later : Nat),
      c.awaitSynchronous id timeout os now created rounds = .gaveUp later →
        now + timeout.toInt.toNat * 1000 * 1000 ≤ later

theorem waitsFor_iff {timeout : Int32} (hpos : 0 < timeout) :
    WaitsFor timeout ↔ timeout.toInt ≤ 2147483 := by
  have hpos' : 0 < timeout.toInt := Int32.lt_iff_toInt_lt.mp hpos
  have hfits : (-2 ^ 31 ≤ timeout.toInt * 1000 ∧ timeout.toInt * 1000 < 2 ^ 31) ↔
      timeout.toInt ≤ 2147483 := by omega
  rw [← hfits]
  constructor
  · rintro ⟨⟨interval, hinterval⟩, -⟩
    by_contra hover
    rw [timeoutInterval, if_neg hover] at hinterval
    cases hinterval
  · intro hproduct
    have hinterval : timeoutInterval timeout = .ok (UInt32.ofInt (timeout.toInt * 1000)) :=
      if_pos hproduct
    refine ⟨⟨_, hinterval⟩, fun c id os now created rounds later h => ?_⟩
    -- the product fits, so what the timer is given is what it stands for
    have hexact : (UInt32.ofInt (timeout.toInt * 1000)).toNat = timeout.toInt.toNat * 1000 := by
      rw [UInt32.ofInt, Int.emod_eq_of_lt (by omega) (by omega),
        UInt32.toNat_ofNat_of_lt' (show _ < 2 ^ 32 by omega)]
      omega
    generalize UInt32.ofInt (timeout.toInt * 1000) = interval at hinterval hexact
    rw [awaitSynchronous, hinterval] at h
    dsimp only at h
    cases hcreate : os.create none created with
    | none =>
      simp only [Timer.start, Timer.initializeTimer, hcreate, Bool.false_eq_true, if_false] at h
      cases h
    | some p =>
      obtain ⟨handle, os₁⟩ := p
      obtain ⟨rfl, hfree, -⟩ := TimerTable.create_eq_some hcreate
      rw [start_timer hfree] at h
      dsimp only at h
      have hstarted : Timer.Started {
          microseconds := some interval
          running := true
          initialized := true
          timer := handle } := ⟨rfl, rfl, rfl, Option.some_ne_none _⟩
      have hdue := expires_of_gaveUp hstarted (Function.update_self ..) h
      have hne : interval ≠ 0 := by
        rintro rfl
        rw [UInt32.toNat_zero] at hexact
        omega
      rw [Timer.dueAt?, if_neg hne, Option.getD_some, hexact] at hdue
      exact hdue

end Client

/-! ## All of them -/

/-- **Intervals** are what they stand for: of the manager, for every registration and renewal of a
run, exactly when the TTL times 1000 fits 32 bits; of the client when also the offset is taken off
and leaves something; of a synchronous request exactly when the timeout times 1000 fits an `int`. -/
theorem intervals_iff (ttl offset : UInt32) (timeout : Int32) :
    (Lifetimes.ArmsExactly ttl ↔ ttl.toNat ≤ 4294967) ∧
    (offset.toNat ≤ ttl.toNat * 1000 →
      (SubscriptionTimers.ArmsShorter ttl offset ↔
        ttl.toNat ≤ 4294967 ∧ offset.toNat < ttl.toNat * 1000 ∧ 0 < offset.toNat)) ∧
    (0 < timeout → (Client.WaitsFor timeout ↔ timeout.toInt ≤ 2147483)) :=
  ⟨Lifetimes.armsExactly_iff ttl, SubscriptionTimers.armsShorter_iff ttl offset,
    Client.waitsFor_iff⟩

/-- A TTL of 4294968 milliseconds, and a timeout of 2147484. -/
theorem not_intervals_hours :
    ¬ Lifetimes.ArmsExactly 4294968 ∧ ¬ SubscriptionTimers.ArmsShorter 4294968 5000000 ∧
      ¬ Client.WaitsFor 2147484 := by
  rw [Lifetimes.armsExactly_iff, SubscriptionTimers.armsShorter_iff _ _ (by decide),
    Client.waitsFor_iff (by decide)]
  decide

end Zippylog
