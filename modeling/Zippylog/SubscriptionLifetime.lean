import Zippylog.LinuxTimer
import Zippylog.PersistedStateManager

/-!
# How long subscriptions live

`RegisterSubscription`, `RenewSubscriptions` and `RemoveExpiredSubscriptions` of
`persisted_state_manager.cpp`, on the timers of Linux. A subscription is to live for the TTL from
its registration or its last renewal, and no longer: `Lease` is that moment, kept beside the manager
by the calls alone, and no timer is looked at for it.

- A record holds its timer, and is only pointed to, so no timer is copied.
- A timer can be made: `timer_create` returns a handle that is free. Erased records are not
  deleted, so their timers stay.
- Subscriptions are a list, which a map is gone through in some order.
- `Lifetimes`: a manager with what was registered, renewed and removed so far.
- `lifetime`: what is left is what was registered or renewed less than the TTL ago.

The invariant of the runs is that each registered subscription has a lease, and a timer of its own
in the system which is due when the lease ends. A step goes on with a time that is not before the
last one.
-/

namespace Zippylog

open Wire Linux

/-- `PersistedStateManagerSubscriptionRecord`. -/
structure TimedSubscription where
  si : SubscriptionInfo
  expirationTimer : Linux.Timer

/-- The key in the map. -/
def TimedSubscription.id (r : TimedSubscription) : Bytes := r.si.id

structure TimedManager where
  /-- in milliseconds -/
  subscriptionTtl : UInt32
  subscriptions : List TimedSubscription := []
  os : TimerTable Bytes

namespace TimedManager

/-- The interval of the timers, in microseconds. -/
def interval (m : TimedManager) : UInt32 := m.subscriptionTtl * 1000

/-- `HasSubscription`. -/
def hasSubscription (m : TimedManager) (id : Bytes) : Bool :=
  (m.subscriptions.map TimedSubscription.id).contains id

/-- `RegisterSubscription`, with the handle that `timer_create` is about to return. -/
def registerSubscription (m : TimedManager) (now : Nat) (created : Option Nat)
    (subscription : SubscriptionInfo) : Except Fault Unit × TimedManager :=
  if subscription.id.isEmpty then
    (.error (.exception (.invalidArgument "subscription must have id defined")), m)
  else if m.hasSubscription subscription.id then
    (.error (.exception (.generic "subscription with that ID is already registered")), m)
  else
    let timer : Linux.Timer := { microseconds := some m.interval }
    match timer.start m.os now subscription.id created m.interval with
    -- the record is in the map before its timer is started
    | .error f =>
      (.error f, { m with subscriptions := m.subscriptions ++ [⟨subscription, timer⟩] })
    | .ok (_, timer, os) =>
      (.ok (), { m with subscriptions := m.subscriptions ++ [⟨subscription, timer⟩], os := os })

/-- The loop of `RenewSubscriptions`. -/
def renewLoop (interval : UInt32) (now : Nat) (ids : List Bytes) :
    List TimedSubscription → TimerTable Bytes →
      Except Fault Unit × List TimedSubscription × TimerTable Bytes
  | [], os => (.ok (), [], os)
  | r :: rs, os =>
    if ids.contains r.id then
      match r.expirationTimer.start os now r.id none interval with
      | .error f => (.error f, r :: rs, os)
      | .ok (_, timer, os) =>
        let (result, rs, os) := renewLoop interval now ids rs os
        (result, { r with expirationTimer := timer } :: rs, os)
    else
      let (result, rs, os) := renewLoop interval now ids rs os
      (result, r :: rs, os)

/-- `RenewSubscriptions`; it returns true. -/
def renewSubscriptions (m : TimedManager) (now : Nat) (ids : List Bytes) :
    Except Fault Unit × TimedManager :=
  let (result, subscriptions, os) := renewLoop m.interval now ids m.subscriptions m.os
  (result, { m with subscriptions := subscriptions, os := os })

/-- The loop of `RemoveExpiredSubscriptions`, with the number removed so far. -/
def removeLoop (os : TimerTable Bytes) (now : Nat) :
    List TimedSubscription → Int32 → Except Fault Int32 × List TimedSubscription
  | [], removed => (.ok removed, [])
  | r :: rs, removed =>
    match r.expirationTimer.hasSignaled os now with
    | .error f => (.error f, r :: rs)
    | .ok (true, _) => removeLoop os now rs (removed + 1)
    | .ok (false, timer) =>
      let (result, rs) := removeLoop os now rs removed
      (result, { r with expirationTimer := timer } :: rs)

/-- `RemoveExpiredSubscriptions`. -/
def removeExpiredSubscriptions (m : TimedManager) (now : Nat) :
    Except Fault Int32 × TimedManager :=
  let (result, subscriptions) := removeLoop m.os now m.subscriptions 0
  (result, { m with subscriptions := subscriptions })

theorem hasSubscription_iff {m : TimedManager} {id : Bytes} :
    m.hasSubscription id = true ↔ id ∈ m.subscriptions.map TimedSubscription.id :=
  List.contains_iff_mem

/-- An id that is empty or there already: nothing happens. -/
theorem registerSubscription_throws {m : TimedManager} {subscription : SubscriptionInfo}
    (h : subscription.id = [] ∨ m.hasSubscription subscription.id = true) (now : Nat)
    (created : Option Nat) :
    ∃ e, m.registerSubscription now created subscription = (.error (.exception e), m) := by
  rw [registerSubscription]
  by_cases hempty : subscription.id.isEmpty = true
  · rw [if_pos hempty]
    exact ⟨_, rfl⟩
  · have hhas := h.resolve_left fun hnil => hempty (List.isEmpty_iff.mpr hnil)
    rw [if_neg hempty, if_pos hhas]
    exact ⟨_, rfl⟩

/-- The timer of a new record. -/
def startedTimer (m : TimedManager) (handle : Nat) : Linux.Timer where
  microseconds := some m.interval
  running := true
  initialized := true
  timer := handle

/-- Any other id is registered. -/
theorem registerSubscription_ok {m : TimedManager} {subscription : SubscriptionInfo}
    (h : ¬ (subscription.id = [] ∨ m.hasSubscription subscription.id = true)) {handle : Nat}
    (hfree : m.os handle = none) (now : Nat) :
    m.registerSubscription now (some handle) subscription = (.ok (),
      { m with
        subscriptions := m.subscriptions ++ [⟨subscription, m.startedTimer handle⟩]
        os := Function.update m.os handle
          (some { owner := subscription.id, expires := Timer.dueAt? m.interval now }) }) := by
  obtain ⟨hne, hnew⟩ := not_or.mp h
  have hempty : ¬ subscription.id.isEmpty = true := fun hnil => hne (List.isEmpty_iff.mp hnil)
  rw [registerSubscription, if_neg hempty, if_neg hnew]
  dsimp only
  rw [Timer.start_constructed hfree]
  rfl

end TimedManager

/-! ## Runs -/

/-- A manager, with the time at which each subscription that was registered, and not removed
since, was registered or last renewed. -/
structure Lifetimes where
  manager : TimedManager
  leases : Bytes → Option Nat := fun _ => none
  clock : Nat := 0

namespace Lifetimes

def register (l : Lifetimes) (now handle : Nat) (subscription : SubscriptionInfo) : Lifetimes :=
  match l.manager.registerSubscription now (some handle) subscription with
  | (.ok _, m) =>
    { manager := m, leases := Function.update l.leases subscription.id (some now), clock := now }
  | (.error _, m) => { l with manager := m, clock := now }

def renew (l : Lifetimes) (now : Nat) (ids : List Bytes) : Lifetimes where
  manager := (l.manager.renewSubscriptions now ids).2
  leases id := if ids.contains id then (l.leases id).map fun _ => now else l.leases id
  clock := now

/-- What is no longer there has been removed. -/
def removeExpired (l : Lifetimes) (now : Nat) : Lifetimes where
  manager := (l.manager.removeExpiredSubscriptions now).2
  leases id :=
    if l.manager.hasSubscription id &&
        !(l.manager.removeExpiredSubscriptions now).2.hasSubscription id then none
    else l.leases id
  clock := now

/-- A call, not before the last one. -/
inductive Step : Lifetimes → Lifetimes → Prop where
  | register {l : Lifetimes} {now handle : Nat} (subscription : SubscriptionInfo) :
      l.clock ≤ now → l.manager.os handle = none → Step l (l.register now handle subscription)
  | renew {l : Lifetimes} {now : Nat} (ids : List Bytes) :
      l.clock ≤ now → Step l (l.renew now ids)
  | removeExpired {l : Lifetimes} {now : Nat} : l.clock ≤ now → Step l (l.removeExpired now)

/-- What comes of a new manager, in a process that may have other timers. -/
def Reachable (ttl : UInt32) (os : TimerTable Bytes) : Lifetimes → Prop :=
  Relation.ReflTransGen Step { manager := { subscriptionTtl := ttl, os := os } }

/-! ## The timers -/

/-- The timer of a record runs, and was started at some time. -/
structure Running (interval : UInt32) (os : TimerTable Bytes) (r : TimedSubscription)
    (since : Nat) : Prop where
  started : r.expirationTimer.Started
  microseconds : r.expirationTimer.microseconds = some interval
  armed : os r.expirationTimer.timer =
    some { owner := r.id, expires := Timer.dueAt? interval since }

variable {interval : UInt32} {os os' : TimerTable Bytes} {r r' : TimedSubscription} {now since : Nat}

/-- The interval has elapsed. -/
def Elapsed (interval : UInt32) (now since : Nat) : Prop :=
  since + interval.toNat * 1000 ≤ now

instance : Decidable (Elapsed interval now since) := inferInstanceAs (Decidable (_ ≤ _))

/-- The timer of a record says that it has elapsed when the interval has passed since it was
started. -/
theorem Running.hasSignaled (h : Running interval os r since) (hnow : since ≤ now) :
    r.expirationTimer.hasSignaled os now = .ok (decide (Elapsed interval now since),
      { r.expirationTimer with signaled := decide (Elapsed interval now since) }) := by
  have hdue : (Timer.dueAt? interval since).getD now ≤ now ↔ Elapsed interval now since := by
    rw [Timer.dueAt?, Elapsed]
    split_ifs with hzero
    · subst hzero
      simpa using hnow
    · rfl
  rw [h.started.hasSignaled h.armed, decide_eq_decide.mpr hdue]

/-- Records with different ids have different timers. -/
theorem Running.handle_ne {since' : Nat} (h : Running interval os r since)
    (h' : Running interval os r' since') (hid : r.id ≠ r'.id) :
    r.expirationTimer.timer ≠ r'.expirationTimer.timer := by
  intro heq
  have hsame := h.armed
  rw [heq, h'.armed] at hsame
  exact hid (congrArg OsTimer.owner (Option.some.inj hsame)).symm

theorem Running.congr (h : Running interval os r since)
    (hos : os' r.expirationTimer.timer = os r.expirationTimer.timer) :
    Running interval os' r since :=
  ⟨h.started, h.microseconds, hos.trans h.armed⟩

/-- Every record has a lease, and a timer that was started then. -/
def Leased (interval : UInt32) (os : TimerTable Bytes) (leases : Bytes → Option Nat)
    (rs : List TimedSubscription) : Prop :=
  ∀ r ∈ rs, ∃ since, leases r.id = some since ∧ Running interval os r since

variable {leases : Bytes → Option Nat} {rs : List TimedSubscription}

/-- What is renewed: the timers of these ids start again, and nothing else happens. -/
theorem renewLoop_spec (h : ∀ r ∈ rs, ∃ since, Running interval os r since)
    (hnodup : (rs.map TimedSubscription.id).Nodup) (now : Nat) (ids : List Bytes) :
    ∃ os', TimedManager.renewLoop interval now ids rs os = (.ok (), rs, os') ∧
      (∀ r ∈ rs, r.id ∈ ids → Running interval os' r now) ∧
      ∀ handle, (∀ r ∈ rs, r.id ∈ ids → r.expirationTimer.timer ≠ handle) →
        os' handle = os handle := by
  induction rs generalizing os with
  | nil => exact ⟨os, rfl, nofun, fun _ _ => rfl⟩
  | cons r rs ih =>
    obtain ⟨⟨since, hr⟩, hrs⟩ := List.forall_mem_cons.mp h
    obtain ⟨hid, hnodup⟩ := List.nodup_cons.mp hnodup
    have hne : ∀ r' ∈ rs, r'.expirationTimer.timer ≠ r.expirationTimer.timer := by
      intro r' hr' heq
      obtain ⟨since', hrun⟩ := hrs r' hr'
      refine hr.handle_ne hrun ?_ heq.symm
      exact fun heq => hid (List.mem_map.mpr ⟨r', hr', heq.symm⟩)
    rw [TimedManager.renewLoop]
    by_cases hmem : r.id ∈ ids
    · rw [if_pos (List.contains_iff_mem.mpr hmem),
        hr.started.start hr.microseconds hr.armed now r.id none]
      -- the rest of the list does not see this timer
      have htail : ∀ r' ∈ rs, ∃ since, Running interval
          (Function.update os r.expirationTimer.timer
            (some { owner := r.id, expires := Timer.dueAt? interval now })) r' since :=
        fun r' hr' => (hrs r' hr').imp fun _ hrun =>
          hrun.congr (Function.update_of_ne (hne r' hr') ..)
      obtain ⟨os', hloop, hrenewed, hkept⟩ := ih htail hnodup
      dsimp only
      refine ⟨os', by rw [hloop], ?_, ?_⟩
      · refine List.forall_mem_cons.mpr ⟨fun _ => ?_, hrenewed⟩
        refine ⟨hr.started, hr.microseconds, ?_⟩
        rw [hkept _ fun r' hr' _ => hne r' hr', Function.update_self]
      · intro handle hother
        obtain ⟨hhere, hothers⟩ := List.forall_mem_cons.mp hother
        rw [hkept handle hothers, Function.update_of_ne (hhere hmem).symm]
    · rw [if_neg fun hcontains => hmem (List.contains_iff_mem.mp hcontains)]
      obtain ⟨os', hloop, hrenewed, hkept⟩ := ih hrs hnodup
      refine ⟨os', by rw [hloop], ?_, ?_⟩
      · exact List.forall_mem_cons.mpr ⟨fun hmem' => absurd hmem' hmem, hrenewed⟩
      · exact fun handle hother => hkept handle (List.forall_mem_cons.mp hother).2

/-- The lease of an id has run out. -/
def expired (interval : UInt32) (now : Nat) (leases : Bytes → Option Nat)
    (r : TimedSubscription) : Bool :=
  (leases r.id).any fun since => Elapsed interval now since

/-- What is removed: the records whose lease has run out. -/
theorem removeLoop_spec (h : Leased interval os leases rs)
    (hnow : ∀ id since, leases id = some since → since ≤ now) (removed : Int32) :
    TimedManager.removeLoop os now rs removed =
      (.ok (removed + Int32.ofNat (rs.countP (expired interval now leases))),
        rs.filter fun r => !expired interval now leases r) := by
  induction rs generalizing removed with
  | nil =>
    rw [TimedManager.removeLoop]
    simp
  | cons r rs ih =>
    obtain ⟨⟨since, hlease, hr⟩, hrs⟩ := List.forall_mem_cons.mp h
    have hexpired : expired interval now leases r = decide (Elapsed interval now since) := by
      simp [expired, hlease]
    rw [TimedManager.removeLoop, hr.hasSignaled (hnow _ _ hlease)]
    by_cases helapsed : Elapsed interval now since
    · rw [decide_eq_true helapsed] at hexpired ⊢
      dsimp only
      rw [ih hrs, List.countP_cons_of_pos hexpired, List.filter_cons_of_neg (by simp [hexpired]),
        Nat.add_comm, Int32.ofNat_add, Int32.add_assoc]
      rfl
    · rw [decide_eq_false helapsed] at hexpired ⊢
      dsimp only
      rw [ih hrs, List.countP_cons_of_neg (by simp [hexpired]),
        List.filter_cons_of_pos (by simp [hexpired])]
      have hsame : { r.expirationTimer with signaled := false } = r.expirationTimer := by
        rw [← hr.started.signaled]
      rw [hsame]

/-! ## The invariant -/

structure Inv (ttl : UInt32) (l : Lifetimes) : Prop where
  ttl : l.manager.subscriptionTtl = ttl
  nodup : (l.manager.subscriptions.map TimedSubscription.id).Nodup
  leased : Leased l.manager.interval l.manager.os l.leases l.manager.subscriptions
  registered : ∀ id since, l.leases id = some since → l.manager.hasSubscription id = true
  clock : ∀ id since, l.leases id = some since → since ≤ l.clock

variable {ttl : UInt32} {l l' : Lifetimes}

/-- A new subscription has a timer of its own. -/
theorem Inv.register (h : l.Inv ttl) (hnow : l.clock ≤ now) {handle : Nat}
    (hfree : l.manager.os handle = none) (subscription : SubscriptionInfo) :
    (l.register now handle subscription).Inv ttl := by
  by_cases hthrows : subscription.id = [] ∨ l.manager.hasSubscription subscription.id = true
  · obtain ⟨e, hregister⟩ :=
      TimedManager.registerSubscription_throws hthrows now (some handle)
    rw [Lifetimes.register, hregister]
    exact { h with clock := fun id since hs => (h.clock id since hs).trans hnow }
  -- the new subscription has a new id, and a handle that is free
  · have hid : subscription.id ∉ l.manager.subscriptions.map TimedSubscription.id :=
      fun hmem => hthrows (.inr (TimedManager.hasSubscription_iff.mpr hmem))
    rw [Lifetimes.register, TimedManager.registerSubscription_ok hthrows hfree]
    dsimp only
    constructor
    · exact h.ttl
    · simp only [List.map_append, List.map_cons, List.map_nil]
      exact List.Nodup.append h.nodup (List.nodup_singleton _)
        (List.disjoint_singleton.mpr hid)
    · intro r hr
      obtain hr | hr := List.mem_append.mp hr
      · -- the others keep their lease, and their timers are other ones
        obtain ⟨since, hlease, hrun⟩ := h.leased r hr
        have hother : r.id ≠ subscription.id := fun heq => hid (heq ▸ List.mem_map_of_mem hr)
        refine ⟨since, (Function.update_of_ne hother ..).trans hlease, hrun.congr ?_⟩
        refine Function.update_of_ne ?_ ..
        rintro rfl
        exact Option.some_ne_none _ (hrun.armed.symm.trans hfree)
      · obtain rfl := List.mem_singleton.mp hr
        refine ⟨now, Function.update_self .., ⟨rfl, rfl, rfl, Option.some_ne_none _⟩, rfl, ?_⟩
        exact Function.update_self ..
    · intro id since hlease
      dsimp only at hlease
      refine TimedManager.hasSubscription_iff.mpr ?_
      rw [List.map_append]
      by_cases hsame : id = subscription.id
      · rw [hsame]
        exact List.mem_append_right _ List.mem_cons_self
      · rw [Function.update_of_ne hsame] at hlease
        exact List.mem_append_left _
          (TimedManager.hasSubscription_iff.mp (h.registered id since hlease))
    · intro id since hlease
      dsimp only at hlease
      by_cases hsame : id = subscription.id
      · rw [hsame, Function.update_self] at hlease
        exact (Option.some.inj hlease).symm.le
      · rw [Function.update_of_ne hsame] at hlease
        exact (h.clock id since hlease).trans hnow

/-- A renewal starts the timers of the records that it finds again. -/
theorem Inv.renew (h : l.Inv ttl) (hnow : l.clock ≤ now) (ids : List Bytes) :
    (l.renew now ids).Inv ttl := by
  obtain ⟨os', hloop, hrenewed, hkept⟩ := renewLoop_spec
    (fun r hr => (h.leased r hr).imp fun _ hrun => hrun.2) h.nodup now ids
  have hmanager : (l.manager.renewSubscriptions now ids).2 = { l.manager with os := os' } := by
    rw [TimedManager.renewSubscriptions, hloop]
  rw [Lifetimes.renew, hmanager]
  constructor
  · exact h.ttl
  · exact h.nodup
  · intro r hr
    obtain ⟨since, hlease, hrun⟩ := h.leased r hr
    by_cases hid : r.id ∈ ids
    · refine ⟨now, ?_, hrenewed r hr hid⟩
      dsimp only
      rw [if_pos (List.contains_iff_mem.mpr hid), hlease]
      rfl
    · refine ⟨since, ?_, hrun.congr ?_⟩
      · dsimp only
        rw [if_neg fun hcontains => hid (List.contains_iff_mem.mp hcontains)]
        exact hlease
      · refine hkept _ fun r' hr' hid' => ?_
        obtain ⟨since', -, hrun'⟩ := h.leased r' hr'
        exact hrun'.handle_ne hrun fun heq => hid (heq ▸ hid')
  · intro id since hlease
    dsimp only at hlease
    split_ifs at hlease
    · obtain ⟨since', hlease, -⟩ := Option.map_eq_some_iff.mp hlease
      exact h.registered id since' hlease
    · exact h.registered id since hlease
  · intro id since hlease
    dsimp only at hlease
    split_ifs at hlease
    · obtain ⟨since', -, rfl⟩ := Option.map_eq_some_iff.mp hlease
      exact le_rfl
    · exact (h.clock id since hlease).trans hnow

/-- The manager without the records whose lease has run out. -/
def cleared (l : Lifetimes) (now : Nat) : TimedManager :=
  { l.manager with
    subscriptions := l.manager.subscriptions.filter fun r =>
      !expired l.manager.interval now l.leases r }

/-- What `RemoveExpiredSubscriptions` does. -/
theorem Inv.removes (h : l.Inv ttl) (hnow : l.clock ≤ now) :
    l.manager.removeExpiredSubscriptions now =
      (.ok (Int32.ofNat
        (l.manager.subscriptions.countP (expired l.manager.interval now l.leases))),
        l.cleared now) := by
  rw [TimedManager.removeExpiredSubscriptions, removeLoop_spec h.leased
    fun id since hs => (h.clock id since hs).trans hnow]
  simp only [Int32.zero_add, cleared]

/-- What is removed is what has elapsed. The timers of the others stay as they are. -/
theorem Inv.removeExpired (h : l.Inv ttl) (hnow : l.clock ≤ now) :
    (l.removeExpired now).Inv ttl := by
  rw [Lifetimes.removeExpired, h.removes hnow]
  have hle : ∀ id since, (if l.manager.hasSubscription id && !(l.cleared now).hasSubscription id
      then none else l.leases id) = some since → l.leases id = some since := by
    intro id since hlease
    split_ifs at hlease
    exact hlease
  constructor
  · exact h.ttl
  · exact h.nodup.sublist (List.filter_sublist.map _)
  · intro r hr
    obtain ⟨since, hlease, hrun⟩ := h.leased r (List.mem_of_mem_filter hr)
    refine ⟨since, ?_, hrun⟩
    dsimp only
    rw [TimedManager.hasSubscription_iff.mpr (List.mem_map_of_mem hr)]
    simpa using hlease
  · intro id since hlease
    have hhas := h.registered id since (hle id since hlease)
    by_contra hgone
    dsimp only at hlease hgone
    rw [hhas, Bool.eq_false_of_not_eq_true hgone] at hlease
    cases hlease
  · exact fun id since hlease => (h.clock id since (hle id since hlease)).trans hnow

theorem Inv.step (h : l.Inv ttl) (hstep : Step l l') : l'.Inv ttl := by
  cases hstep with
  | register subscription hnow hfree => exact h.register hnow hfree subscription
  | renew ids hnow => exact h.renew hnow ids
  | removeExpired hnow => exact h.removeExpired hnow

theorem Reachable.inv (h : Reachable ttl os l) : l.Inv ttl := by
  induction h with
  | refl => exact ⟨rfl, List.nodup_nil, nofun, nofun, nofun⟩
  | tail _ hstep ih => exact ih.step hstep

/-- The interval is the TTL, unless it overflows. -/
theorem Inv.elapsed_iff (h : l.Inv ttl) (httl : ttl.toNat * 1000 < 2 ^ 32) :
    Elapsed l.manager.interval now since ↔ ¬ now < since + ttl.toNat * 1000000 := by
  have hinterval : l.manager.interval.toNat = ttl.toNat * 1000 := by
    simp only [TimedManager.interval, h.ttl, UInt32.toNat_mul, UInt32.reduceToNat]
    exact Nat.mod_eq_of_lt httl
  rw [Elapsed, hinterval]
  omega

/-- **What is left lives**: after `RemoveExpiredSubscriptions` a subscription is there if and
only if it was registered, has not been removed since, and was registered or last renewed
less than the TTL ago. -/
theorem Inv.hasSubscription_removeExpired (h : l.Inv ttl) (httl : ttl.toNat * 1000 < 2 ^ 32)
    (hnow : l.clock ≤ now) (id : Bytes) :
    (l.manager.removeExpiredSubscriptions now).2.hasSubscription id = true ↔
      ∃ since, l.leases id = some since ∧ now < since + ttl.toNat * 1000000 := by
  rw [h.removes hnow, TimedManager.hasSubscription_iff, List.mem_map]
  constructor
  · rintro ⟨r, hr, rfl⟩
    obtain ⟨hmem, hlive⟩ := List.mem_filter.mp hr
    obtain ⟨since, hlease, -⟩ := h.leased r hmem
    refine ⟨since, hlease, ?_⟩
    by_contra hover
    simp [expired, hlease, (h.elapsed_iff httl).mpr hover] at hlive
  · rintro ⟨since, hlease, hlt⟩
    obtain ⟨r, hr, rfl⟩ := List.mem_map.mp
      (TimedManager.hasSubscription_iff.mp (h.registered id since hlease))
    refine ⟨r, List.mem_filter.mpr ⟨hr, ?_⟩, rfl⟩
    have hlive : ¬ Elapsed l.manager.interval now since :=
      fun helapsed => (h.elapsed_iff httl).mp helapsed hlt
    simp [expired, hlease, hlive]

/-- **The lifetime of subscriptions**: in every manager that can be reached,
`RemoveExpiredSubscriptions` leaves those that were registered or renewed less than the TTL ago and
removes all others, and returns how many it removed. An empty id and one that is registered are
refused by an exception, without a trace. The TTL in milliseconds has to fit the 32 bits that it is
multiplied in. -/
theorem lifetime (ttl : UInt32) (httl : ttl.toNat * 1000 < 2 ^ 32) (os : TimerTable Bytes)
    (l : Lifetimes) (h : Reachable ttl os l) (now : Nat) (hnow : l.clock ≤ now) :
    (∀ id, (l.manager.removeExpiredSubscriptions now).2.hasSubscription id = true ↔
      ∃ since, l.leases id = some since ∧ now < since + ttl.toNat * 1000000) ∧
    (l.manager.removeExpiredSubscriptions now).1 =
      .ok (Int32.ofNat (l.manager.subscriptions.length -
        (l.manager.removeExpiredSubscriptions now).2.subscriptions.length)) ∧
    ∀ (subscription : SubscriptionInfo) (created : Option Nat),
      subscription.id = [] ∨ l.manager.hasSubscription subscription.id = true →
        ∃ e, l.manager.registerSubscription now created subscription =
          (.error (.exception e), l.manager) := by
  have hinv := h.inv
  refine ⟨hinv.hasSubscription_removeExpired httl hnow, ?_,
    fun subscription created hthrows => TimedManager.registerSubscription_throws hthrows now created⟩
  rw [hinv.removes hnow]
  refine congrArg (fun n => Except.ok (Int32.ofNat n)) ?_
  have hcount := List.length_eq_countP_add_countP
    (expired l.manager.interval now l.leases) (l := l.manager.subscriptions)
  simp only [cleared, ← List.countP_eq_length_filter]
  simp only [Bool.not_eq_true, Bool.decide_eq_false] at hcount
  omega

/-- A subscription with a TTL of one second, half a second after it was registered. -/
theorem lifetime_second :
    ((Lifetimes.register { manager := { subscriptionTtl := 1000, os := fun _ => none } } 0 7
      { id := str "id" }).manager.removeExpiredSubscriptions 500000000).2.hasSubscription
        (str "id") = true := by
  refine ((lifetime 1000 (by decide) (fun _ => none) _
    (Relation.ReflTransGen.single (Step.register _ le_rfl rfl)) 500000000 (by decide)).1 _).mpr ?_
  exact ⟨0, by decide, by decide⟩

end Lifetimes

end Zippylog
