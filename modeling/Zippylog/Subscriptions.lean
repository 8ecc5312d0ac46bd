import Zippylog.PersistedStateManager
import Zippylog.Store.Components

/-!
# Subscriptions by path and by id

The persisted state manager is asked two things of its subscriptions: whether there is one for a
path, which decides whether a change has to be told to anybody, and to renew some by their ids.

- A subscription covers the paths at and below its own. `IsPathSubscribed` compares the texts of the
  paths and does not look whether a component ends where the shorter one does.
- `isPathSubscribed_iff`: a subscription is found for a path where one covers it exactly when
  the paths are told apart as texts (`ToldApart`).
- `renewed_iff`: `RenewSubscriptions` renews the subscriptions it is given, and its answer is
  right exactly when it is given no other: it always answers that all were renewed.
-/

namespace Zippylog

open Wire

namespace PersistedStateManager

/-! ## Paths -/

/-- `HaveStoreChangeSubscriptions` and `HaveEnvelopeSubscription` of a path. -/
def haveSubscription (m : PersistedStateManager) (type : SubscriptionType) (path : Bytes) : Bool :=
  m.subscriptions.any (covers type path)

/-- `HaveStoreChangeSubscriptions`. -/
def haveStoreChangeSubscriptions (m : PersistedStateManager) (path : Bytes) : Bool :=
  m.haveSubscription .storeChange path

/-- `HaveEnvelopeSubscription`. -/
def haveEnvelopeSubscription (m : PersistedStateManager) (path : Bytes) : Bool :=
  m.haveSubscription .envelope path

/-- One of the paths is above the path, or is the path. -/
def Subscribed (paths : List Bytes) (path : Bytes) : Prop :=
  ∃ p ∈ paths, Store.components p <+: Store.components path

/-- The paths of the subscriptions of a type. -/
def pathsOf (m : PersistedStateManager) (type : SubscriptionType) : List Bytes :=
  (m.subscriptions.filter fun r => r.si.type = type).flatMap fun r => r.si.paths

/-- If a path begins with one that is subscribed to, it does so with one that does not end inside
a name, or one is the path with more at its end; and if one is, it begins with another. -/
structure ToldApart (paths : List Bytes) (path : Bytes) : Prop where
  begins : (∃ p ∈ paths, p <+: path) →
    ∃ p ∈ paths, (p <+: path ∧ ¬ Store.EndsInside p path) ∨ Store.Longer p path
  longer : (∃ p ∈ paths, Store.Longer p path) → ∃ p ∈ paths, p <+: path

theorem subscribed_iff {paths : List Bytes} {path : Bytes}
    (hpaths : ∀ p ∈ paths, Store.validatePath p = true) (hpath : Store.validatePath path = true) :
    Subscribed paths path ↔
      ∃ p ∈ paths, (p <+: path ∧ ¬ Store.EndsInside p path) ∨ Store.Longer p path :=
  exists_congr fun p =>
    and_congr_right fun hp => Store.components_prefix_iff (hpaths p hp) hpath

/-- Paths that are compared as texts are compared by their components where they are told
apart. -/
theorem begins_iff_subscribed_iff {paths : List Bytes} {path : Bytes}
    (hpaths : ∀ p ∈ paths, Store.validatePath p = true) (hpath : Store.validatePath path = true) :
    ((∃ p ∈ paths, p <+: path) ↔ Subscribed paths path) ↔ ToldApart paths path := by
  rw [subscribed_iff hpaths hpath]
  constructor
  · intro h
    refine ⟨h.mp, ?_⟩
    rintro ⟨p, hp, hlonger⟩
    exact h.mpr ⟨p, hp, .inr hlonger⟩
  · intro h
    refine ⟨h.begins, ?_⟩
    rintro ⟨p, hp, ⟨hstarts, -⟩ | hlonger⟩
    · exact ⟨p, hp, hstarts⟩
    · exact h.longer ⟨p, hp, hlonger⟩

theorem isPathSubscribed_eq_true {path : Bytes} {r : PersistedStateManagerSubscriptionRecord} :
    isPathSubscribed path r = true ↔ ∃ p ∈ r.si.paths, p <+: path := by
  simp only [isPathSubscribed, List.any_eq_true, List.isPrefixOf_iff_prefix]

theorem haveSubscription_eq_true {m : PersistedStateManager} {type : SubscriptionType}
    {path : Bytes} : m.haveSubscription type path = true ↔ ∃ p ∈ m.pathsOf type, p <+: path := by
  simp only [haveSubscription, List.any_eq_true, covers, Bool.and_eq_true, decide_eq_true_eq,
    isPathSubscribed_eq_true, pathsOf, List.mem_flatMap, List.mem_filter]
  constructor
  · rintro ⟨r, hr, htype, p, hp, hprefix⟩
    exact ⟨p, ⟨r, ⟨hr, htype⟩, hp⟩, hprefix⟩
  · rintro ⟨p, ⟨r, ⟨hr, htype⟩, hp⟩, hprefix⟩
    exact ⟨r, hr, htype, p, hp, hprefix⟩

/-- A subscription of the type covers the path. -/
theorem subscribed_pathsOf {m : PersistedStateManager} {type : SubscriptionType} {path : Bytes} :
    Subscribed (m.pathsOf type) path ↔
      ∃ r ∈ m.subscriptions, r.si.type = type ∧ Subscribed r.si.paths path := by
  simp only [Subscribed, pathsOf, List.mem_flatMap, List.mem_filter, decide_eq_true_eq]
  constructor
  · rintro ⟨p, ⟨r, ⟨hr, htype⟩, hp⟩, hprefix⟩
    exact ⟨r, hr, htype, p, hp, hprefix⟩
  · rintro ⟨r, hr, htype, p, hp, hprefix⟩
    exact ⟨p, ⟨r, ⟨hr, htype⟩, hp⟩, hprefix⟩

/-- The paths that were subscribed to are valid. -/
def ValidPaths (m : PersistedStateManager) : Prop :=
  ∀ r ∈ m.subscriptions, ∀ p ∈ r.si.paths, Store.validatePath p = true

theorem ValidPaths.pathsOf {m : PersistedStateManager} (h : m.ValidPaths)
    (type : SubscriptionType) : ∀ p ∈ m.pathsOf type, Store.validatePath p = true := by
  intro p hp
  obtain ⟨r, hr, hp⟩ := List.mem_flatMap.mp hp
  exact h r (List.mem_filter.mp hr).1 p hp

theorem haveSubscription_iff {m : PersistedStateManager} (h : m.ValidPaths) {path : Bytes}
    (hpath : Store.validatePath path = true) (type : SubscriptionType) :
    (m.haveSubscription type path = true ↔
        ∃ r ∈ m.subscriptions, r.si.type = type ∧ Subscribed r.si.paths path) ↔
      ToldApart (m.pathsOf type) path := by
  rw [haveSubscription_eq_true, ← subscribed_pathsOf]
  exact begins_iff_subscribed_iff (h.pathsOf type) hpath

/-- **Subscriptions to a path** are the ones that cover it exactly when the paths are told apart as
texts: for `IsPathSubscribed` of any lists of paths that parse, and for the two questions of the
manager that are made of it. -/
theorem isPathSubscribed_iff {path : Bytes} (hpath : Store.validatePath path = true) :
    (∀ r : PersistedStateManagerSubscriptionRecord,
      (∀ p ∈ r.si.paths, Store.validatePath p = true) →
      ((isPathSubscribed path r = true ↔ Subscribed r.si.paths path) ↔
        ToldApart r.si.paths path)) ∧
    ∀ m : PersistedStateManager, m.ValidPaths →
      ((m.haveStoreChangeSubscriptions path = true ↔
          ∃ r ∈ m.subscriptions, r.si.type = .storeChange ∧ Subscribed r.si.paths path) ↔
        ToldApart (m.pathsOf .storeChange) path) ∧
      ((m.haveEnvelopeSubscription path = true ↔
          ∃ r ∈ m.subscriptions, r.si.type = .envelope ∧ Subscribed r.si.paths path) ↔
        ToldApart (m.pathsOf .envelope) path) := by
  refine ⟨fun r hr => ?_, fun m hm => ⟨?_, ?_⟩⟩
  · rw [isPathSubscribed_eq_true]
    exact begins_iff_subscribed_iff hr hpath
  · exact haveSubscription_iff hm hpath .storeChange
  · exact haveSubscription_iff hm hpath .envelope

/-- A record of a subscription to stores. -/
def subscriptionTo (paths : List Bytes) : PersistedStateManagerSubscriptionRecord where
  si := { type := .storeChange, paths }
  expirationTimer := Platform.Timer.new 0

theorem isPathSubscribed_bucket :
    (isPathSubscribed (str "/foo/bar") (subscriptionTo [str "/foo"]) = true ↔
        Subscribed [str "/foo"] (str "/foo/bar")) ↔
      ToldApart [str "/foo"] (str "/foo/bar") :=
  (isPathSubscribed_iff (by decide +kernel)).1 (subscriptionTo [str "/foo"])
    (by decide +kernel)

/-- One name begins with another. -/
theorem not_isPathSubscribed_longer_name :
    ¬ (isPathSubscribed (str "/foobar") (subscriptionTo [str "/foo"]) = true ↔
        Subscribed [str "/foo"] (str "/foobar")) := by
  intro h
  obtain ⟨p, hp, hprefix⟩ := h.mp (by decide +kernel)
  obtain rfl := List.mem_singleton.mp hp
  revert hprefix
  decide +kernel

/-! ## Renewals -/

/-- The inner loop of `RenewSubscriptions`, over the ids. -/
def renewOne (m : PersistedStateManager) (now : Nat) (r : PersistedStateManagerSubscriptionRecord) :
    List Bytes → PersistedStateManagerSubscriptionRecord
  | [] => r
  | id :: ids => if r.id = id then r.restart now m.interval else renewOne m now r ids

/-- The outer loop, over the subscriptions. -/
def renewEach (m : PersistedStateManager) (now : Nat) (ids : List Bytes) :
    List PersistedStateManagerSubscriptionRecord → List PersistedStateManagerSubscriptionRecord
  | [] => []
  | r :: rs => renewOne m now r ids :: renewEach m now ids rs

theorem renewOne_eq (m : PersistedStateManager) (now : Nat)
    (r : PersistedStateManagerSubscriptionRecord) (ids : List Bytes) :
    renewOne m now r ids = if ids.contains r.id then r.restart now m.interval else r := by
  induction ids with
  | nil => rfl
  | cons id ids ih =>
    rw [renewOne, ih]
    by_cases h : r.id = id
    · simp [h]
    · simp [h]

/-- The loops do what `renewSubscriptions` says. -/
theorem renewEach_eq (m : PersistedStateManager) (now : Nat) (ids : List Bytes) :
    renewEach m now ids m.subscriptions = (m.renewSubscriptions now ids).subscriptions := by
  rw [renewSubscriptions]
  dsimp only
  induction m.subscriptions with
  | nil => rfl
  | cons r rs ih => rw [renewEach, ih, renewOne_eq, List.map_cons]

/-- `RenewSubscriptions` with its result. -/
def renewSubscriptionsResult (m : PersistedStateManager) (now : Nat) (ids : List Bytes) :
    Bool × PersistedStateManager :=
  (true, { m with
    subscriptions := renewEach m now ids m.subscriptions
    nodup := renewEach_eq m now ids ▸ (m.renewSubscriptions now ids).nodup })

/-- `RenewSubscription`. -/
def renewSubscription (m : PersistedStateManager) (now : Nat) (id : Bytes) :
    Bool × PersistedStateManager :=
  m.renewSubscriptionsResult now [id]

theorem renewSubscriptionsResult_eq (m : PersistedStateManager) (now : Nat) (ids : List Bytes) :
    m.renewSubscriptionsResult now ids = (true, m.renewSubscriptions now ids) := by
  rw [renewSubscriptionsResult]
  simp only [renewEach_eq]
  rfl

/-- The subscriptions with the given ids are started again and nothing else has changed; the
answer says whether all of the ids are registered. -/
structure Renewed (m : PersistedStateManager) (now : Nat) (ids : List Bytes)
    (result : Bool × PersistedStateManager) : Prop where
  registered : result.2.subscriptions.map PersistedStateManagerSubscriptionRecord.id =
    m.subscriptions.map PersistedStateManagerSubscriptionRecord.id
  restarted : ∀ r ∈ m.subscriptions, r.id ∈ ids →
    r.restart now m.interval ∈ result.2.subscriptions
  kept : ∀ r ∈ m.subscriptions, r.id ∉ ids → r ∈ result.2.subscriptions
  ttl : result.2.subscriptionTtl = m.subscriptionTtl
  offsets : result.2.streamReadOffsets = m.streamReadOffsets
  answer : result.1 = true ↔ ∀ id ∈ ids, m.hasSubscription id = true

/-- All but the answer is always so. -/
theorem renewed_of_registered {m : PersistedStateManager} {now : Nat} {ids : List Bytes}
    (hall : ∀ id ∈ ids, m.hasSubscription id = true) :
    Renewed m now ids (m.renewSubscriptionsResult now ids) := by
  rw [renewSubscriptionsResult_eq]
  refine ⟨?_, fun r hr hid => ?_, fun r hr hid => ?_, rfl, rfl, iff_of_true rfl hall⟩
  · simp only [renewSubscriptions, List.map_map]
    refine List.map_congr_left fun r _ => ?_
    rw [Function.comp_apply]
    split <;> rfl
  · simp only [renewSubscriptions, List.mem_map]
    exact ⟨r, hr, if_pos (List.contains_iff_mem.mpr hid)⟩
  · simp only [renewSubscriptions, List.mem_map]
    exact ⟨r, hr, if_neg (mt List.contains_iff_mem.mp hid)⟩

/-- `RenewSubscription` of a subscription that is there. -/
theorem renewSubscription_registered {m : PersistedStateManager} {now : Nat} {id : Bytes}
    (hid : m.hasSubscription id = true) : Renewed m now [id] (m.renewSubscription now id) :=
  renewed_of_registered (List.forall_mem_singleton.mpr hid)

/-- **`RenewSubscriptions`** restarts the timers of the subscriptions that it is given and of no
others, for every manager and list of ids, and its answer says whether it found them all exactly
when every id is registered. -/
theorem renewed_iff (m : PersistedStateManager) (now : Nat) (ids : List Bytes) :
    Renewed m now ids (m.renewSubscriptionsResult now ids) ↔
      ∀ id ∈ ids, m.hasSubscription id = true :=
  ⟨fun h => h.answer.mp rfl, renewed_of_registered⟩

/-- A manager without subscriptions. -/
def withoutSubscriptions : PersistedStateManager where
  subscriptionTtl := 60000
  subscriptions := []
  nodup := List.nodup_nil

/-- An id that no subscription has. -/
theorem not_renewed_unknown : ¬ Renewed withoutSubscriptions 0 [[1]]
    (withoutSubscriptions.renewSubscriptionsResult 0 [[1]]) := by
  intro h
  exact absurd (h.answer.mp rfl [1] (List.mem_singleton_self _)) (by decide)

end PersistedStateManager

end Zippylog
