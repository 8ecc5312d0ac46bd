import Mathlib.Data.List.Nodup
import Mathlib.Data.Prod.Lex
import Zippylog.Envelope
import Zippylog.OrderedMap

/-!
# The message registrar

`message_registrar.cpp`. A registrar has a message of each registered type, of which `GetMessage`
makes new ones, and deletes them in the end. A type is known by its namespace and its number, and is
registered by any part of the program, perhaps more than once.

- A message is told by its address. There is one registrar, or none, which is as one without
  types.
- `registered_first`: what is registered is what was registered first. A second registration of a
  number is refused;
- `deleted_once`: which messages are deleted. A refused one is not, as nobody has it any more.
- Using or deleting a message that was deleted is undefined, and ends a run.
-/

namespace Zippylog

/-- `pair<uint32, uint32>`: a namespace, and an enumeration in it. -/
structure MessageKey where
  ns : UInt32
  enumeration : UInt32

namespace MessageKey

def rank (k : MessageKey) : ℕ ×ₗ ℕ := toLex (k.ns.toNat, k.enumeration.toNat)

theorem rank_injective : Function.Injective rank := by
  intro k k' h
  obtain ⟨hns, henumeration⟩ := Prod.mk.inj (toLex.injective h)
  cases k
  cases k'
  congr
  · exact UInt32.toNat.inj hns
  · exact UInt32.toNat.inj henumeration

instance : LinearOrder MessageKey := LinearOrder.lift' rank rank_injective

/-- `operator<`. -/
theorem lt_iff (k k' : MessageKey) :
    k < k' ↔ k.ns < k'.ns ∨ k.ns = k'.ns ∧ k.enumeration < k'.enumeration := by
  refine Iff.trans (Prod.Lex.lt_iff (x := rank k) (y := rank k')) ?_
  exact or_congr Iff.rfl (and_congr UInt32.toNat_inj Iff.rfl)

end MessageKey

/-- The `_types` of the registrar, and the messages that it deleted. -/
structure Prototypes where
  types : OrderedMap MessageKey Nat := .empty
  deleted : List Nat := []

namespace Prototypes

open OrderedMap (findEntry)

/-- `register_message`. -/
def registerMessage (ns enumeration : UInt32) (message : Nat) (s : Prototypes) :
    Bool × Prototypes :=
  match s.types.find? ⟨ns, enumeration⟩ with
  | some _ => (false, s)
  | none => (true, { s with types := s.types.insert ⟨ns, enumeration⟩ message })

/-- `GetMessage`: the message whose `New` is called, if there is one. -/
def getMessage (ns enumeration : UInt32) (s : Prototypes) : Except Fault (Option Nat) :=
  match s.types.find? ⟨ns, enumeration⟩ with
  | none => .ok none
  | some message => if message ∈ s.deleted then .error .undefinedBehavior else .ok (some message)

/-- `GetAllEnumerations`. -/
def getAllEnumerations (s : Prototypes) : List MessageKey := s.types.keys

/-- Messages are deleted one after the other. -/
def deleteAll : List Nat → List Nat → Except Fault (List Nat)
  | [], deleted => .ok deleted
  | message :: messages, deleted =>
    if message ∈ deleted then .error .undefinedBehavior
    else deleteAll messages (message :: deleted)

/-- `Cleanup`. -/
def cleanup (s : Prototypes) : Except Fault Prototypes :=
  match deleteAll s.types.values s.deleted with
  | .error f => .error f
  | .ok deleted => .ok { deleted }

/-! ## Runs -/

inductive Op where
  | registerMessage (ns enumeration : UInt32) (message : Nat)
  | getMessage (ns enumeration : UInt32)
  | getAllEnumerations
  | terminateInstance

def step (s : Prototypes) : Op → Except Fault Prototypes
  | .registerMessage ns enumeration message => .ok (s.registerMessage ns enumeration message).2
  | .getMessage ns enumeration =>
    match s.getMessage ns enumeration with
    | .error f => .error f
    | .ok _ => .ok s
  | .getAllEnumerations => .ok s
  | .terminateInstance => s.cleanup

def run (s : Prototypes) : List Op → Except Fault Prototypes
  | [] => .ok s
  | op :: ops =>
    match s.step op with
    | .error f => .error f
    | .ok s => s.run ops

/-- A message that is given to the registrar. -/
def Op.message? : Op → Option Nat
  | registerMessage _ _ message => some message
  | _ => none

/-- What a call adds to the registrations since the registrar was terminated. -/
def Op.pending (registrations : List (MessageKey × Nat)) : Op → List (MessageKey × Nat)
  | registerMessage ns enumeration message => registrations ++ [(⟨ns, enumeration⟩, message)]
  | terminateInstance => []
  | _ => registrations

/-- The registrations since the registrar was terminated, the refused ones with them. -/
def pending (ops : List Op) : List (MessageKey × Nat) := ops.foldl Op.pending []

/-- `register_message` returned true for a message. -/
def Accepted (message : Nat) (ops : List Op) : Prop :=
  ∃ before ns enumeration after, ops = before ++ .registerMessage ns enumeration message :: after ∧
    findEntry ⟨ns, enumeration⟩ (pending before) = none

theorem pending_append (ops : List Op) (op : Op) :
    pending (ops ++ [op]) = op.pending (pending ops) := List.foldl_append

/-- A run with one more operation behind it. -/
theorem run_append (ops : List Op) (op : Op) : ∀ s : Prototypes, s.run (ops ++ [op]) =
    match s.run ops with
    | .error f => .error f
    | .ok s => s.step op := by
  induction ops with
  | nil =>
    intro s
    rw [List.nil_append, run]
    cases hstep : s.step op <;> simp only [run, hstep]
  | cons op' ops ih =>
    intro s
    rw [List.cons_append, run, run]
    cases s.step op' with
    | error f => rfl
    | ok s' => exact ih s'

/-- A message is accepted by the operation that registers it, where its key is free. -/
theorem accepted_append {message : Nat} {ops : List Op} {op : Op} :
    Accepted message (ops ++ [op]) ↔ Accepted message ops ∨ ∃ ns enumeration,
      op = .registerMessage ns enumeration message ∧
        findEntry ⟨ns, enumeration⟩ (pending ops) = none := by
  constructor
  · rintro ⟨before, ns, enumeration, after, heq, hfree⟩
    rcases List.eq_nil_or_concat after with rfl | ⟨after, op', rfl⟩
    · obtain ⟨rfl, hop⟩ := List.append_inj' heq rfl
      exact .inr ⟨ns, enumeration, List.singleton_inj.mp hop, hfree⟩
    · rw [List.concat_eq_append, ← List.cons_append, ← List.append_assoc] at heq
      obtain ⟨rfl, -⟩ := List.append_inj' heq rfl
      exact .inl ⟨before, ns, enumeration, after, rfl, hfree⟩
  · rintro (⟨before, ns, enumeration, after, rfl, hfree⟩ | ⟨ns, enumeration, rfl, hfree⟩)
    · exact ⟨before, ns, enumeration, after ++ [op], by simp, hfree⟩
    · exact ⟨ops, ns, enumeration, [], rfl, hfree⟩

/-! ## What is registered -/

/-- The registrar has the first registration of each key. -/
def Follows (s : Prototypes) (registrations : List (MessageKey × Nat)) : Prop :=
  ∀ k, s.types.find? k = findEntry k registrations

/-- `insert` keeps what is there, and `findEntry` finds what is first: the two follow each other. -/
theorem Follows.registerMessage {s : Prototypes} {registrations : List (MessageKey × Nat)}
    (h : s.Follows registrations) (ns enumeration : UInt32) (message : Nat) :
    (s.registerMessage ns enumeration message).2.Follows
      (registrations ++ [(⟨ns, enumeration⟩, message)]) := by
  intro k
  rw [OrderedMap.findEntry_append, ← h k, findEntry, findEntry, Prototypes.registerMessage]
  cases hfind : s.types.find? ⟨ns, enumeration⟩ with
  | some accepted =>
    dsimp only
    split_ifs with heq
    · rw [← heq, hfind]
      rfl
    · exact (Option.or_none).symm
  | none =>
    dsimp only
    rw [OrderedMap.find?_insert, hfind]
    split_ifs with heq heq' heq'
    · rw [heq, hfind]
    · exact absurd heq.symm heq'
    · exact absurd heq'.symm heq
    · exact (Option.or_none).symm

/-- **The step lemma**: a clean-up forgets all registrations, and the other operations forget none.
-/
theorem Follows.step {s s' : Prototypes} {registrations : List (MessageKey × Nat)}
    (h : s.Follows registrations) {op : Op} (hstep : s.step op = .ok s') :
    s'.Follows (op.pending registrations) := by
  cases op with
  | registerMessage ns enumeration message =>
    obtain rfl := Except.ok.inj hstep
    exact h.registerMessage ns enumeration message
  | getMessage ns enumeration =>
    rw [Prototypes.step] at hstep
    split at hstep
    · cases hstep
    · obtain rfl := Except.ok.inj hstep
      exact h
  | getAllEnumerations =>
    obtain rfl := Except.ok.inj hstep
    exact h
  | terminateInstance =>
    rw [Prototypes.step, cleanup] at hstep
    split at hstep
    · cases hstep
    · obtain rfl := Except.ok.inj hstep
      exact fun k => rfl

/-- **The run lemma**, by induction on the operations. -/
theorem Follows.run (ops : List Op) : ∀ {s s' : Prototypes} {registrations},
    s.Follows registrations → s.run ops = .ok s' →
      s'.Follows (ops.foldl Op.pending registrations) := by
  induction ops with
  | nil =>
    intro s s' registrations h hrun
    obtain rfl := Except.ok.inj hrun
    exact h
  | cons op ops ih =>
    intro s s' registrations h hrun
    rw [Prototypes.run] at hrun
    split at hrun
    · cases hrun
    · rename_i s₁ hstep
      exact ih (h.step hstep) hrun

/-! ## What is deleted -/

/-- The loop deletes each message once where none is there twice and none was deleted before. -/
theorem deleteAll_eq {messages : List Nat} : ∀ {deleted : List Nat},
    (messages ++ deleted).Nodup →
      deleteAll messages deleted = .ok (messages.reverse ++ deleted) := by
  induction messages with
  | nil => exact fun _ => rfl
  | cons message messages ih =>
    intro deleted h
    obtain ⟨hnew, hrest⟩ := List.nodup_cons.mp h
    have hmid : (messages ++ message :: deleted).Nodup :=
      List.nodup_middle.mpr (List.nodup_cons.mpr ⟨hnew, hrest⟩)
    rw [deleteAll, if_neg fun hmem => hnew (List.mem_append_right _ hmem), ih hmid,
      List.reverse_cons, List.append_assoc]
    rfl

/-- The registrar owns what it accepted, and deletes nothing twice. -/
structure Owns (s : Prototypes) (ops : List Op) : Prop where
  follows : s.Follows (pending ops)
  nodup : (s.types.values ++ s.deleted).Nodup
  accepted (message : Nat) : message ∈ s.types.values ++ s.deleted ↔ Accepted message ops

theorem not_accepted_nil {message : Nat} : ¬ Accepted message [] := by
  rintro ⟨before, ns, enumeration, after, h, -⟩
  cases before <;> cases h

/-- A call of something else accepts no message. -/
theorem accepted_append_iff {message : Nat} {ops : List Op} {op : Op} (h : op.message? = none) :
    Accepted message (ops ++ [op]) ↔ Accepted message ops := by
  rw [accepted_append, or_iff_left]
  rintro ⟨ns, enumeration, rfl, -⟩
  cases h

theorem mem_of_accepted {message : Nat} {ops : List Op} (h : Accepted message ops) :
    message ∈ ops.filterMap Op.message? := by
  obtain ⟨before, ns, enumeration, after, rfl, -⟩ := h
  exact List.mem_filterMap.mpr ⟨.registerMessage ns enumeration message, by simp, rfl⟩

/-- A new message is accepted, and then the registrar has it, or refused, and then nobody has. -/
theorem Owns.registerMessage {s : Prototypes} {ops : List Op} (h : s.Owns ops)
    (ns enumeration : UInt32) {message : Nat} (hfresh : message ∉ ops.filterMap Op.message?) :
    let s' := (s.registerMessage ns enumeration message).2
    (s'.types.values ++ s'.deleted).Nodup ∧
      ∀ message', message' ∈ s'.types.values ++ s'.deleted ↔
        message' ∈ s.types.values ++ s.deleted ∨
          message' = message ∧ s.types.find? ⟨ns, enumeration⟩ = none := by
  rw [Prototypes.registerMessage]
  cases hfind : s.types.find? ⟨ns, enumeration⟩ with
  | some accepted =>
    refine ⟨h.nodup, fun message' => ⟨.inl, ?_⟩⟩
    rintro (hmem | ⟨-, hfree⟩)
    · exact hmem
    · cases hfree
  | none =>
    dsimp only
    have hperm := (OrderedMap.values_insert (v := message) hfind).append_right s.deleted
    have hnew : message ∉ s.types.values ++ s.deleted := fun hmem =>
      hfresh (mem_of_accepted ((h.accepted message).mp hmem))
    refine ⟨hperm.nodup_iff.mpr (List.nodup_cons.mpr ⟨hnew, h.nodup⟩), fun message' => ?_⟩
    rw [hperm.mem_iff, List.cons_append, List.mem_cons, or_comm, and_iff_left rfl]

/-- **The step lemma** for what is had and deleted: no operation uses or deletes a message that was
deleted. -/
theorem Owns.step {s : Prototypes} {ops : List Op} (h : s.Owns ops) {op : Op}
    (hfresh : ∀ message ∈ op.message?, message ∉ ops.filterMap Op.message?) :
    ∃ s', s.step op = .ok s' ∧ s'.Owns (ops ++ [op]) := by
  have hfollows : ∀ {s'}, s.step op = .ok s' → s'.Follows (pending (ops ++ [op])) := by
    intro s' hstep
    rw [pending_append]
    exact h.follows.step hstep
  cases op with
  | registerMessage ns enumeration message =>
    refine ⟨_, rfl, hfollows rfl, ?_, fun message' => ?_⟩
    · exact (h.registerMessage ns enumeration (hfresh message rfl)).1
    · rw [(h.registerMessage ns enumeration (hfresh message rfl)).2, accepted_append, h.accepted,
        h.follows]
      refine or_congr_right ⟨?_, ?_⟩
      · rintro ⟨rfl, hfree⟩
        exact ⟨ns, enumeration, rfl, hfree⟩
      · rintro ⟨ns', enumeration', heq, hfree⟩
        obtain ⟨rfl, rfl, rfl⟩ := Op.registerMessage.inj heq
        exact ⟨rfl, hfree⟩
  | getMessage ns enumeration =>
    have hstep : s.step (.getMessage ns enumeration) = .ok s := by
      rw [Prototypes.step, getMessage]
      cases hfind : s.types.find? ⟨ns, enumeration⟩ with
      | none => rfl
      | some message =>
        -- what is registered was not deleted
        have hkept : message ∉ s.deleted := fun hdeleted =>
          List.disjoint_of_nodup_append h.nodup (OrderedMap.mem_values_of_find? hfind) hdeleted
        simp only [if_neg hkept]
    exact ⟨s, hstep, hfollows hstep, h.nodup, fun message => by
      rw [h.accepted, accepted_append_iff rfl]⟩
  | getAllEnumerations =>
    exact ⟨s, rfl, hfollows rfl, h.nodup, fun message => by
      rw [h.accepted, accepted_append_iff rfl]⟩
  | terminateInstance =>
    have hstep : s.step .terminateInstance =
        .ok { deleted := s.types.values.reverse ++ s.deleted } := by
      rw [Prototypes.step, cleanup, deleteAll_eq h.nodup]
    have hperm : (s.types.values.reverse ++ s.deleted).Perm (s.types.values ++ s.deleted) :=
      (List.reverse_perm _).append_right _
    refine ⟨_, hstep, hfollows hstep, hperm.nodup_iff.mpr h.nodup, fun message => ?_⟩
    rw [accepted_append_iff rfl, ← h.accepted]
    exact hperm.mem_iff

/-- **The run lemma**. That messages are given once is split along the run. -/
theorem Owns.run (ops' : List Op) : ∀ {s : Prototypes} {ops : List Op}, s.Owns ops →
    ((ops ++ ops').filterMap Op.message?).Nodup →
      ∃ s', s.run ops' = .ok s' ∧ s'.Owns (ops ++ ops') := by
  induction ops' with
  | nil =>
    intro s ops h _
    exact ⟨s, rfl, by rwa [List.append_nil]⟩
  | cons op ops' ih =>
    intro s ops h hfresh
    rw [List.append_cons] at hfresh ⊢
    have hop : ∀ message ∈ op.message?, message ∉ ops.filterMap Op.message? := by
      intro message hmessage hmem
      rw [List.filterMap_append, List.filterMap_append] at hfresh
      have hpair := hfresh.sublist (List.sublist_append_left _ _)
      refine List.disjoint_of_nodup_append hpair hmem ?_
      exact List.mem_filterMap.mpr ⟨op, List.mem_singleton_self op, hmessage⟩
    obtain ⟨s₁, hstep, hs₁⟩ := h.step hop
    obtain ⟨s', hrun, hs'⟩ := ih hs₁ hfresh
    refine ⟨s', ?_, hs'⟩
    rw [Prototypes.run, hstep]
    exact hrun

theorem owns_nil : ({} : Prototypes).Owns [] :=
  ⟨fun _ => rfl, .nil, fun _ => iff_of_false List.not_mem_nil not_accepted_nil⟩

/-- **What is registered is what was registered first** for its number, since the registrar was
terminated: that is what messages are made of, and what the enumerations are, each of them once and
in increasing order. -/
theorem registered_first {ops : List Op} {s : Prototypes} (h : run {} ops = .ok s) :
    (∀ ns enumeration message, (s.registerMessage ns enumeration message).1 = true ↔
      findEntry ⟨ns, enumeration⟩ (pending ops) = none) ∧
    (∀ ns enumeration found, s.getMessage ns enumeration = .ok found →
      found = findEntry ⟨ns, enumeration⟩ (pending ops)) ∧
    s.getAllEnumerations.Pairwise (· < ·) ∧
    ∀ k, k ∈ s.getAllEnumerations ↔ k ∈ (pending ops).map Prod.fst := by
  have hfollows : s.Follows (pending ops) := Follows.run ops (fun _ => rfl) h
  refine ⟨fun ns enumeration message => ?_, fun ns enumeration found hfound => ?_,
    s.types.keys_sorted, fun k => ?_⟩
  · rw [← hfollows, registerMessage]
    cases s.types.find? ⟨ns, enumeration⟩ with
    | none => exact iff_of_true rfl rfl
    | some message' => exact iff_of_false Bool.false_ne_true (Option.some_ne_none _)
  · rw [← hfollows]
    rw [getMessage] at hfound
    cases hfind : s.types.find? ⟨ns, enumeration⟩ with
    | none =>
      rw [hfind] at hfound
      exact (Except.ok.inj hfound).symm
    | some message' =>
      rw [hfind] at hfound
      dsimp only at hfound
      split_ifs at hfound
      exact (Except.ok.inj hfound).symm
  · rw [getAllEnumerations, OrderedMap.mem_keys_iff, hfollows, OrderedMap.findEntry_isSome_iff]

/-- The second registration of an enumeration is refused. -/
theorem registered_first_again : ∃ s,
    run {} [.registerMessage 1 7 0, .registerMessage 1 7 1] = .ok s ∧
      ∀ found, s.getMessage 1 7 = .ok found → found = some 0 := by
  obtain ⟨s, hrun, -⟩ := owns_nil.run
    [.registerMessage 1 7 0, .registerMessage 1 7 1] (by decide)
  refine ⟨s, hrun, fun found hfound => ?_⟩
  exact ((registered_first hrun).2.1 1 7 found hfound).trans (if_pos rfl)

/-- **What is deleted**: in every run in which each message is given to the registrar once, no
message is used or deleted behind its deletion, and the registrar has what it accepted, or has
deleted it once. What it refused is not deleted. -/
theorem deleted_once (ops : List Op) (hfresh : (ops.filterMap Op.message?).Nodup) :
    ∃ s, run {} ops = .ok s ∧ (s.types.values ++ s.deleted).Nodup ∧
      ∀ message, message ∈ s.types.values ++ s.deleted ↔ Accepted message ops := by
  obtain ⟨s, hrun, howns⟩ := owns_nil.run ops hfresh
  exact ⟨s, hrun, howns.nodup, howns.accepted⟩

/-- The second of two messages of an enumeration is lost. -/
theorem deleted_once_refused : ∃ s,
    run {} [.registerMessage 1 7 0, .registerMessage 1 7 1, .terminateInstance] = .ok s ∧
      (s.types.values ++ s.deleted).Nodup ∧
        ∀ message, message ∈ s.types.values ++ s.deleted ↔ Accepted message
          [.registerMessage 1 7 0, .registerMessage 1 7 1, .terminateInstance] :=
  deleted_once _ (by decide)

end Prototypes

end Zippylog
