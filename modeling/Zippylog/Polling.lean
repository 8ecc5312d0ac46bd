import Mathlib.Algebra.Order.BigOperators.Group.List
import Mathlib.Algebra.Order.Group.Nat
import Mathlib.Algebra.Ring.Nat
import Mathlib.Data.List.Nodup
import Mathlib.Logic.Function.Basic

/-!
# Queues that are polled in an order

Messages wait in queues. A poll takes one message, the first of the first queue that has
one, and puts on queues what the message causes. Messages also arrive by themselves. Since the order
of the queues is fixed, a queue at its end waits for all others to be empty.

- `run_balanced`: no message is lost, made twice or overtaken in its queue: what arrived or was
  caused for a queue is what was taken from it and then what waits in it;
- `length_taken_polls`: how many polls find a message when none arrives. Each queue has a weight,
  the number of polls that one of its messages costs with all that it causes;
- `taken_iff`: when a message is taken, whatever arrives meanwhile: the arrivals that count are
  those in queues that come first.
-/

/-- `order` has the queues from the one that is polled first. `causes` is what a message puts on
queues when it is taken at `t`, and `polls` counts the polls for a message and for all that it
causes. -/
structure Polling (ι μ τ : Type) where
  order : List ι
  nodup : order.Nodup
  complete : ∀ i, i ∈ order
  causes : τ → ι → μ → List (ι × μ)
  polls : ι → μ → Nat
  polls_eq : ∀ t i m, polls i m = 1 + ((causes t i m).map fun c => polls c.1 c.2).sum

namespace Polling

variable {ι μ τ : Type} [DecidableEq ι]

/-! ## Queues -/

/-- A message is put at the end of a queue. -/
def post (q : ι → List μ) (c : ι × μ) : ι → List μ := Function.update q c.1 (q c.1 ++ [c.2])

def postAll (q : ι → List μ) (cs : List (ι × μ)) : ι → List μ := cs.foldl post q

/-- Those of the messages that are of a queue. -/
def of (i : ι) (cs : List (ι × μ)) : List μ := (cs.filter fun c => c.1 = i).map Prod.snd

@[simp] theorem of_nil (i : ι) : of i ([] : List (ι × μ)) = [] := rfl

@[simp] theorem of_append (i : ι) (cs cs' : List (ι × μ)) :
    of i (cs ++ cs') = of i cs ++ of i cs' := by
  rw [of, List.filter_append, List.map_append]
  rfl

theorem of_cons_self (i : ι) (m : μ) (cs : List (ι × μ)) : of i ((i, m) :: cs) = m :: of i cs := by
  simp [of]

theorem of_cons_of_ne {i : ι} {c : ι × μ} (h : c.1 ≠ i) (cs : List (ι × μ)) :
    of i (c :: cs) = of i cs := by
  simp [of, h]

theorem post_apply (q : ι → List μ) (c : ι × μ) (i : ι) : post q c i = q i ++ of i [c] := by
  obtain ⟨j, m⟩ := c
  by_cases h : j = i
  · subst h
    rw [post, Function.update_self, of_cons_self, of_nil]
  · rw [post, Function.update_of_ne (Ne.symm h), of_cons_of_ne h, of_nil, List.append_nil]

theorem postAll_apply (cs : List (ι × μ)) :
    ∀ (q : ι → List μ) (i : ι), postAll q cs i = q i ++ of i cs := by
  induction cs with
  | nil => exact fun q i => (List.append_nil _).symm
  | cons c cs ih =>
    intro q i
    have hcs := ih (post q c) i
    rw [post_apply, List.append_assoc, ← of_append] at hcs
    exact hcs

/-! ## Polls -/

section

variable (p : Polling ι μ τ)

/-- The message that a poll takes. -/
def next (q : ι → List μ) : Option (ι × μ) := p.order.findSome? fun i => (q i).head?.map (i, ·)

def poll (t : τ) (q : ι → List μ) : ι → List μ :=
  match p.next q with
  | none => q
  | some (i, m) => postAll (Function.update q i (q i).tail) (p.causes t i m)

/-- What happens to the queues: a message arrives, or there is a poll. -/
inductive Event (ι μ τ : Type) where
  | arrive (c : ι × μ)
  | poll (t : τ)

def step (q : ι → List μ) : Event ι μ τ → ι → List μ
  | .arrive c => post q c
  | .poll t => p.poll t q

def run (q : ι → List μ) (events : List (Event ι μ τ)) : ι → List μ := events.foldl p.step q

/-- What an event takes off the queues. -/
def takenBy (q : ι → List μ) : Event ι μ τ → List (ι × μ)
  | .arrive _ => []
  | .poll _ => (p.next q).toList

/-- What an event puts on the queues. -/
def postedBy (q : ι → List μ) : Event ι μ τ → List (ι × μ)
  | .arrive c => [c]
  | .poll t => (p.next q).toList.flatMap fun c => p.causes t c.1 c.2

/-- What is taken in a run, in the order of the polls. -/
def taken : (ι → List μ) → List (Event ι μ τ) → List (ι × μ)
  | _, [] => []
  | q, e :: events => p.takenBy q e ++ taken (p.step q e) events

/-- What is put on the queues in a run. -/
def posted : (ι → List μ) → List (Event ι μ τ) → List (ι × μ)
  | _, [] => []
  | q, e :: events => p.postedBy q e ++ posted (p.step q e) events

/-- What arrives in a run. -/
def arrived : List (Event ι μ τ) → List (ι × μ)
  | [] => []
  | .arrive c :: events => c :: arrived events
  | .poll _ :: events => arrived events

/-- The queues that are polled before one. -/
def before (i : ι) : List ι := p.order.takeWhile fun j => j ≠ i

end

variable {p : Polling ι μ τ} {q : ι → List μ} {i j : ι} {m : μ}

/-- The order around a queue. -/
theorem eq_before {front behind : List ι} (h : p.order = front ++ i :: behind) :
    p.before i = front ∧ i ∉ front := by
  have hnodup := p.nodup
  rw [h, List.nodup_middle, List.nodup_cons, List.mem_append, not_or] at hnodup
  refine ⟨?_, hnodup.1.1⟩
  rw [before, h, List.takeWhile_append_of_pos, List.takeWhile_cons_of_neg, List.append_nil]
  · simp
  · intro j hj
    rw [decide_eq_true_iff]
    rintro rfl
    exact hnodup.1.1 hj

theorem exists_behind (p : Polling ι μ τ) (i : ι) :
    ∃ behind, p.order = p.before i ++ i :: behind := by
  obtain ⟨front, behind, horder⟩ := List.append_of_mem (p.complete i)
  rw [(eq_before horder).1]
  exact ⟨behind, horder⟩

theorem not_mem_before : i ∉ p.before i := by
  obtain ⟨behind, horder⟩ := p.exists_behind i
  exact (eq_before horder).2

theorem nodup_before (p : Polling ι μ τ) (i : ι) : (p.before i).Nodup :=
  p.nodup.sublist (List.takeWhile_sublist _)

/-- The queues before one of them are among them. -/
theorem before_subset (h : j ∈ p.before i) : p.before j ⊆ p.before i := by
  obtain ⟨front, rest, hfront⟩ := List.append_of_mem h
  obtain ⟨behind, horder⟩ := p.exists_behind i
  rw [hfront, List.append_assoc, List.cons_append] at horder
  rw [(eq_before horder).1, hfront]
  exact List.subset_append_left _ _

/-- One of two queues is polled before the other. -/
theorem mem_before_or (p : Polling ι μ τ) (h : i ≠ j) : i ∈ p.before j ∨ j ∈ p.before i := by
  obtain ⟨behind, horder⟩ := p.exists_behind i
  have hj := p.complete j
  rw [horder, List.mem_append, List.mem_cons] at hj
  rcases hj with hj | rfl | hj
  · exact .inr hj
  · exact absurd rfl h
  · obtain ⟨middle, rest, rfl⟩ := List.append_of_mem hj
    have horder' : p.order = (p.before i ++ i :: middle) ++ j :: rest := by
      rw [horder, List.append_assoc]
      rfl
    rw [(eq_before horder').1]
    exact .inl (List.mem_append_right _ List.mem_cons_self)

/-- A poll takes from the first queue that has a message. -/
theorem next_eq_some (h : p.next q = some (i, m)) :
    q i = m :: (q i).tail ∧ ∀ j ∈ p.before i, q j = [] := by
  obtain ⟨front, j, behind, horder, hj, hfront⟩ := List.findSome?_eq_some_iff.mp h
  obtain ⟨m', hm', hpair⟩ := Option.map_eq_some_iff.mp hj
  obtain ⟨rfl, rfl⟩ := Prod.mk.inj hpair
  rw [(eq_before horder).1]
  refine ⟨List.eq_cons_of_mem_head? hm', fun k hk => ?_⟩
  have hnone := hfront k hk
  rwa [Option.map_eq_none_iff, List.head?_eq_none_iff] at hnone

omit [DecidableEq ι] in
theorem next_eq_none_iff : p.next q = none ↔ ∀ i, q i = [] := by
  simp [next, p.complete]

/-! ## What is taken and what is put on a queue -/

/-- **Step lemma**. -/
theorem step_balanced (q : ι → List μ) (e : Event ι μ τ) (i : ι) :
    q i ++ of i (p.postedBy q e) = of i (p.takenBy q e) ++ p.step q e i := by
  cases e with
  | arrive c => exact (post_apply q c i).symm
  | poll t =>
    rw [step, poll, postedBy, takenBy]
    cases hnext : p.next q with
    | none => exact List.append_nil _
    | some c =>
      obtain ⟨j, m⟩ := c
      obtain ⟨hq, -⟩ := next_eq_some hnext
      simp only [Option.toList_some, List.flatMap_cons, List.flatMap_nil, List.append_nil]
      rw [postAll_apply, ← List.append_assoc]
      congr 1
      by_cases hj : j = i
      · subst hj
        rw [of_cons_self, of_nil, Function.update_self]
        exact hq
      · rw [of_cons_of_ne hj, Function.update_of_ne (Ne.symm hj)]
        rfl

/-- **Nothing is lost, made twice or overtaken**: what was in a queue and what was put there in
a run is what was taken from it, and behind that what is there now. -/
theorem run_balanced (events : List (Event ι μ τ)) :
    ∀ (q : ι → List μ) (i : ι),
      q i ++ of i (p.posted q events) = of i (p.taken q events) ++ p.run q events i := by
  induction events with
  | nil => exact fun q i => List.append_nil _
  | cons e events ih =>
    intro q i
    rw [posted, taken, of_append, of_append, ← List.append_assoc, step_balanced, List.append_assoc,
      ih, List.append_assoc]
    rfl

theorem taken_append (events events' : List (Event ι μ τ)) :
    ∀ q : ι → List μ,
      p.taken q (events ++ events') = p.taken q events ++ p.taken (p.run q events) events' := by
  induction events with
  | nil => exact fun q => rfl
  | cons e events ih =>
    intro q
    rw [List.cons_append, taken, taken, ih, List.append_assoc]
    rfl

omit [DecidableEq ι] in
theorem arrived_append (events events' : List (Event ι μ τ)) :
    arrived (events ++ events') = arrived events ++ arrived events' := by
  induction events with
  | nil => rfl
  | cons e events ih =>
    cases e with
    | arrive c => exact congrArg (c :: ·) ih
    | poll t => exact ih

/-- A queue that nothing is caused for has what arrives. -/
theorem of_posted (h : ∀ t j m, ∀ c ∈ p.causes t j m, c.1 ≠ i) (events : List (Event ι μ τ)) :
    ∀ q : ι → List μ, of i (p.posted q events) = of i (arrived events) := by
  induction events with
  | nil => exact fun q => rfl
  | cons e events ih =>
    intro q
    rw [posted, of_append, ih]
    cases e with
    | arrive c => exact (of_append i [c] (arrived events)).symm
    | poll t =>
      have hnone : of i (p.postedBy q (.poll t)) = [] := by
        rw [of, List.map_eq_nil_iff, List.filter_eq_nil_iff]
        intro c hc
        obtain ⟨c', -, hc⟩ := List.mem_flatMap.mp hc
        rw [decide_eq_true_iff]
        exact h t c'.1 c'.2 c hc
      rw [hnone]
      rfl

/-! ## The work that waits -/

/-- The polls for messages of a queue. -/
def work (p : Polling ι μ τ) (i : ι) (ms : List μ) : Nat := (ms.map (p.polls i)).sum

/-- The polls for what waits in some queues. -/
def workIn (p : Polling ι μ τ) (is : List ι) (q : ι → List μ) : Nat :=
  (is.map fun i => p.work i (q i)).sum

/-- The polls for those of the messages that are of some queues. -/
def weigh (p : Polling ι μ τ) (is : List ι) (cs : List (ι × μ)) : Nat :=
  ((cs.filter fun c => c.1 ∈ is).map fun c => p.polls c.1 c.2).sum

omit [DecidableEq ι] in
theorem work_append (ms ms' : List μ) : p.work i (ms ++ ms') = p.work i ms + p.work i ms' := by
  rw [work, List.map_append, List.sum_append]
  rfl

/-- Only one queue is different. -/
theorem workIn_update {is : List ι} (his : is.Nodup) (ms : List μ) :
    p.workIn is (Function.update q i ms) + (if i ∈ is then p.work i (q i) else 0) =
      p.workIn is q + (if i ∈ is then p.work i ms else 0) := by
  induction is with
  | nil => rfl
  | cons j is ih =>
    obtain ⟨hj, his⟩ := List.nodup_cons.mp his
    have ih := ih his
    simp only [workIn, List.map_cons, List.sum_cons] at ih ⊢
    by_cases hij : i = j
    · subst hij
      rw [if_neg hj, if_neg hj] at ih
      rw [if_pos List.mem_cons_self, if_pos List.mem_cons_self, Function.update_self]
      omega
    · have hmem : i ∈ j :: is ↔ i ∈ is := by rw [List.mem_cons, or_iff_right hij]
      rw [Function.update_of_ne (Ne.symm hij)]
      simp only [hmem]
      omega

theorem weigh_cons (is : List ι) (c : ι × μ) (cs : List (ι × μ)) :
    p.weigh is (c :: cs) = (if c.1 ∈ is then p.polls c.1 c.2 else 0) + p.weigh is cs := by
  by_cases h : c.1 ∈ is <;> simp [weigh, h]

theorem workIn_postAll {is : List ι} (his : is.Nodup) (cs : List (ι × μ)) :
    ∀ q : ι → List μ, p.workIn is (postAll q cs) = p.workIn is q + p.weigh is cs := by
  induction cs with
  | nil => exact fun q => rfl
  | cons c cs ih =>
    intro q
    have hpost := workIn_update (p := p) (q := q) (i := c.1) his (q c.1 ++ [c.2])
    have hone : p.work c.1 [c.2] = p.polls c.1 c.2 := Nat.add_zero _
    rw [work_append, hone] at hpost
    have hcs := ih (post q c)
    rw [postAll] at hcs
    rw [postAll, List.foldl_cons, hcs, weigh_cons, post]
    by_cases h : c.1 ∈ is
    · rw [if_pos h, if_pos h] at hpost
      rw [if_pos h]
      omega
    · rw [if_neg h, if_neg h] at hpost
      rw [if_neg h]
      omega

theorem polls_eq_weigh {is : List ι} {t : τ} (h : ∀ c ∈ p.causes t i m, c.1 ∈ is) :
    p.polls i m = 1 + p.weigh is (p.causes t i m) := by
  rw [weigh, List.filter_eq_self.mpr fun c hc => decide_eq_true (h c hc)]
  exact p.polls_eq t i m

/-- A poll takes one off the work: what is caused was counted with the message. -/
theorem workIn_poll {is : List ι} (his : is.Nodup) {t : τ} (h : p.next q = some (i, m))
    (hi : i ∈ is) (hcauses : ∀ c ∈ p.causes t i m, c.1 ∈ is) :
    p.workIn is (p.poll t q) + 1 = p.workIn is q := by
  obtain ⟨hq, -⟩ := next_eq_some h
  have hupdate := workIn_update (p := p) (q := q) (i := i) his (q i).tail
  have hwork : p.work i (q i) = p.polls i m + p.work i (q i).tail := by
    conv_lhs => rw [hq]
    exact List.sum_cons
  have hweigh := polls_eq_weigh hcauses
  rw [if_pos hi, if_pos hi] at hupdate
  rw [poll, h]
  simp only
  rw [workIn_postAll his]
  omega

omit [DecidableEq ι] in
theorem polls_pos (p : Polling ι μ τ) (i : ι) (m : μ) [Nonempty τ] : 0 < p.polls i m := by
  rw [p.polls_eq (Classical.arbitrary τ)]
  omega

/-- All the polls for what waits. -/
def total (p : Polling ι μ τ) (q : ι → List μ) : Nat := p.workIn p.order q

omit [DecidableEq ι] in
theorem total_eq_zero_iff [Nonempty τ] : p.total q = 0 ↔ p.next q = none := by
  rw [next_eq_none_iff, total, workIn, List.sum_eq_zero_iff]
  constructor
  · intro h i
    have hwork := h _ (List.mem_map_of_mem (p.complete i))
    rw [work, List.sum_eq_zero_iff] at hwork
    refine List.eq_nil_iff_forall_not_mem.mpr fun m hm => ?_
    exact absurd (hwork _ (List.mem_map_of_mem hm)) (p.polls_pos i m).ne'
  · intro h n hn
    obtain ⟨i, -, rfl⟩ := List.mem_map.mp hn
    rw [h i]
    rfl

/-- **Where nothing arrives**, each poll takes a message as long as there is work. -/
theorem length_taken_polls [Nonempty τ] (ts : List τ) :
    ∀ q : ι → List μ, (p.taken q (ts.map .poll)).length = min ts.length (p.total q) ∧
      p.total (p.run q (ts.map .poll)) = p.total q - ts.length := by
  induction ts with
  | nil => exact fun q => ⟨(Nat.zero_min _).symm, rfl⟩
  | cons t ts ih =>
    intro q
    obtain ⟨hlength, htotal⟩ := ih (p.poll t q)
    have hrun : p.run q ((t :: ts).map .poll) = p.run (p.poll t q) (ts.map .poll) := rfl
    have htaken : p.taken q ((t :: ts).map .poll) =
        (p.next q).toList ++ p.taken (p.poll t q) (ts.map .poll) := rfl
    rw [hrun, htaken, htotal, List.length_append, hlength, List.length_cons]
    cases hnext : p.next q with
    | none =>
      have hzero := total_eq_zero_iff.mpr hnext
      have hpoll : p.poll t q = q := by rw [poll, hnext]
      rw [hpoll, Option.toList_none, List.length_nil]
      omega
    | some c =>
      have hpoll := workIn_poll p.nodup (t := t) hnext (p.complete _) fun c _ => p.complete c.1
      rw [Option.toList_some, List.length_singleton]
      unfold total
      omega

/-! ## How long a message waits -/

/-- What a message causes is polled before the queue that it was in. -/
def CausesBefore (p : Polling ι μ τ) : Prop := ∀ t i m, ∀ c ∈ p.causes t i m, c.1 ∈ p.before i

/-- The polls for what is before the message in place `k` of a queue. -/
def ahead (p : Polling ι μ τ) (q : ι → List μ) (i : ι) (k : Nat) : Nat :=
  p.workIn (p.before i) q + p.work i ((q i).take k)

/-- The polls for what arrives in the queues that are polled before one. -/
def overtaking (p : Polling ι μ τ) (i : ι) : List (Event ι μ τ) → Nat
  | [] => 0
  | .arrive c :: events => p.weigh (p.before i) [c] + overtaking p i events
  | .poll _ :: events => overtaking p i events

/-- The polls of a run. -/
def pollsOf : List (Event ι μ τ) → Nat
  | [] => 0
  | .arrive _ :: events => pollsOf events
  | .poll _ :: events => 1 + pollsOf events

theorem ahead_post (c : ι × μ) {k : Nat} (hk : k ≤ (q i).length) :
    p.ahead (post q c) i k = p.weigh (p.before i) [c] + p.ahead q i k := by
  have hbefore := workIn_postAll (p := p) (p.nodup_before i) [c] q
  rw [ahead, ahead, post_apply, List.take_append_of_le_length hk]
  unfold postAll at hbefore
  rw [List.foldl_cons, List.foldl_nil] at hbefore
  omega

/-- **Step lemma**: a poll takes the message that nothing is before, or brings one nearer. -/
theorem ahead_poll (hp : p.CausesBefore) {k : Nat} (hk : k < (q i).length) (t : τ) :
    (k = 0 ∧ p.ahead q i k = 0 ∧ (of i (p.next q).toList).length = 1) ∨
    ∃ k', k = (of i (p.next q).toList).length + k' ∧ k' < (p.poll t q i).length ∧
      p.ahead q i k = p.ahead (p.poll t q) i k' + 1 := by
  cases hnext : p.next q with
  | none =>
    rw [next_eq_none_iff.mp hnext i] at hk
    exact absurd hk (Nat.not_lt_zero _)
  | some c =>
    obtain ⟨j, m⟩ := c
    obtain ⟨hq, hempty⟩ := next_eq_some hnext
    have hpoll : p.poll t q = postAll (Function.update q j (q j).tail) (p.causes t j m) := by
      rw [poll, hnext]
    by_cases hj : j = i
    -- it is from the queue itself, so that nothing waits before
    · subst hj
      have hbefore : p.workIn (p.before j) q = 0 := by
        rw [workIn, List.sum_eq_zero_iff]
        intro n hn
        obtain ⟨l, hl, rfl⟩ := List.mem_map.mp hn
        rw [hempty l hl]
        rfl
      rw [Option.toList_some, of_cons_self, of_nil, List.length_singleton]
      cases k with
      | zero => exact .inl ⟨rfl, hbefore, rfl⟩
      | succ k =>
        refine .inr ⟨k, Nat.add_comm _ _, ?_, ?_⟩
        · rw [hpoll, postAll_apply, Function.update_self, List.length_append, List.length_tail]
          omega
        · have hweigh := polls_eq_weigh (hp t j m)
          have hupdate := workIn_update (p := p) (q := q) (i := j) (p.nodup_before j) (q j).tail
          rw [if_neg not_mem_before, if_neg not_mem_before] at hupdate
          have htail : k ≤ (q j).tail.length := by
            rw [List.length_tail]
            omega
          have hwork : p.work j ((q j).take (k + 1)) =
              p.polls j m + p.work j ((q j).tail.take k) := by
            conv_lhs => rw [hq]
            exact List.sum_cons
          rw [ahead, ahead, hpoll, workIn_postAll (p.nodup_before j), postAll_apply,
            Function.update_self, List.take_append_of_le_length htail, hwork]
          omega
    · have hmem : j ∈ p.before i := by
        refine (p.mem_before_or hj).resolve_right fun hi => ?_
        rw [hempty i hi] at hk
        exact Nat.not_lt_zero _ hk
      have hwork := workIn_poll (p.nodup_before i) (t := t) hnext hmem fun c hc =>
        before_subset hmem (hp t j m c hc)
      have hqueue : p.poll t q i = q i ++ of i (p.causes t j m) := by
        rw [hpoll, postAll_apply, Function.update_of_ne (Ne.symm hj)]
      refine .inr ⟨k, ?_, ?_, ?_⟩
      · rw [Option.toList_some, of_cons_of_ne hj]
        exact (Nat.zero_add k).symm
      · rw [hqueue, List.length_append]
        omega
      · rw [ahead, ahead, hqueue, List.take_append_of_le_length hk.le]
        omega

/-- **How long a message waits**: it is taken in a run exactly when at some moment there were more
polls than are needed for what was before it and for what arrived since in the queues that are
polled before its own. -/
theorem taken_iff (hp : p.CausesBefore) (events : List (Event ι μ τ)) :
    ∀ {q : ι → List μ} {k : Nat}, k < (q i).length →
      (k < (of i (p.taken q events)).length ↔
        ∃ front, front <+: events ∧ p.ahead q i k + p.overtaking i front < pollsOf front) := by
  induction events with
  | nil =>
    intro q k _
    constructor
    · exact fun h => absurd h (Nat.not_lt_zero _)
    · rintro ⟨front, hfront, h⟩
      rw [List.prefix_nil.mp hfront] at h
      exact absurd h (Nat.not_lt_zero _)
  | cons e events ih =>
    intro q k hk
    -- no run is so short that it has more polls than are needed
    have hfronts : (∃ front, front <+: e :: events ∧
        p.ahead q i k + p.overtaking i front < pollsOf front) ↔
        ∃ front, front <+: events ∧
          p.ahead q i k + p.overtaking i (e :: front) < pollsOf (e :: front) := by
      constructor
      · rintro ⟨front, hfront, h⟩
        rcases List.prefix_cons_iff.mp hfront with rfl | ⟨rest, rfl, hrest⟩
        · exact absurd h (Nat.not_lt_zero _)
        · exact ⟨rest, hrest, h⟩
      · rintro ⟨front, hfront, h⟩
        exact ⟨e :: front, (List.prefix_cons_inj e).mpr hfront, h⟩
    rw [hfronts, taken, of_append, List.length_append]
    cases e with
    | arrive c =>
      have hk' : k < (post q c i).length := by
        rw [post_apply, List.length_append]
        omega
      have htaken : (of i (p.takenBy q (.arrive c))).length = 0 := rfl
      rw [htaken, Nat.zero_add]
      refine (ih hk').trans (exists_congr fun front => and_congr_right fun _ => ?_)
      rw [ahead_post c hk.le, overtaking, pollsOf]
      omega
    | poll t =>
      have htaken : p.takenBy q (.poll t) = (p.next q).toList := rfl
      have hstep : p.step q (.poll t) = p.poll t q := rfl
      rw [htaken, hstep]
      rcases ahead_poll hp hk t with ⟨rfl, hahead, hnow⟩ | ⟨k', rfl, hk', hahead⟩
      · refine iff_of_true (by omega) ⟨[], List.nil_prefix, ?_⟩
        rw [hahead]
        exact Nat.one_pos
      · rw [Nat.add_lt_add_iff_left]
        refine (ih hk').trans (exists_congr fun front => and_congr_right fun _ => ?_)
        rw [hahead, overtaking, pollsOf]
        omega

end Polling
