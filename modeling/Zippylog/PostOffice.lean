import Mathlib.Algebra.Order.BigOperators.Group.Finset
import Mathlib.Algebra.Order.Group.Multiset
import Mathlib.Tactic.Abel

/-!
# Letters in pipes

Letters wait in finitely many pipes, each with the client it is for. A delivery takes the
first letter of a pipe. Which pipe is next is anybody's choice, so letters of different pipes can
overtake each other, and what is counted is a multiset for each client.

- `Balanced`: what a client has and what waits for it are what was sent for it. Posting and
  delivering keep it;
- `Balanced.subperm`: so no client has a letter that was not sent for it, or has one twice;
- `exists_drained`: deliveries can go on until nothing waits, and then (`Balanced.perm`) each client
  has all of its letters.
-/

structure PostOffice (ι κ μ : Type) where
  waiting : ι → List (κ × μ)
  inbox : κ → List μ
  sent : κ → List μ

namespace PostOffice

variable {ι κ μ : Type}

/-- Nothing was sent. -/
def empty : PostOffice ι κ μ := ⟨fun _ => [], fun _ => [], fun _ => []⟩

section

variable [DecidableEq ι] [DecidableEq κ]

/-- A letter is sent. -/
def post (o : PostOffice ι κ μ) (i : ι) (letter : κ × μ) : PostOffice ι κ μ :=
  { o with
    waiting := Function.update o.waiting i (o.waiting i ++ [letter])
    sent := Function.update o.sent letter.1 (o.sent letter.1 ++ [letter.2]) }

/-- The first letter of a pipe is delivered. -/
def deliver (o : PostOffice ι κ μ) (i : ι) : PostOffice ι κ μ :=
  match o.waiting i with
  | [] => o
  | letter :: letters =>
    { o with
      waiting := Function.update o.waiting i letters
      inbox := Function.update o.inbox letter.1 (o.inbox letter.1 ++ [letter.2]) }

end

/-- The letters for a client. -/
def lettersFor [DecidableEq κ] (c : κ) (letters : List (κ × μ)) : Multiset μ :=
  ((letters.filter fun letter => letter.1 = c).map Prod.snd : List μ)

/-- What a client has and what waits for it are what was sent for it. -/
def Balanced [Fintype ι] [DecidableEq κ] (o : PostOffice ι κ μ) : Prop :=
  ∀ c, (o.inbox c : Multiset μ) + ∑ i, lettersFor c (o.waiting i) = o.sent c

/-! ## Letters for a client -/

section

variable [DecidableEq κ]

@[simp] theorem lettersFor_nil (c : κ) : lettersFor c ([] : List (κ × μ)) = 0 := rfl

@[simp] theorem lettersFor_append (c : κ) (letters letters' : List (κ × μ)) :
    lettersFor c (letters ++ letters') = lettersFor c letters + lettersFor c letters' := by
  unfold lettersFor
  rw [List.filter_append, List.map_append, Multiset.coe_add]

theorem lettersFor_cons (c : κ) (letter : κ × μ) (letters : List (κ × μ)) :
    lettersFor c (letter :: letters) = lettersFor c [letter] + lettersFor c letters :=
  lettersFor_append c [letter] letters

/-- One more letter in the list of its client. -/
theorem coe_update_append (lists : κ → List μ) (letter : κ × μ) (c : κ) :
    (Function.update lists letter.1 (lists letter.1 ++ [letter.2]) c : Multiset μ) =
      lists c + lettersFor c [letter] := by
  by_cases hc : c = letter.1
  · subst hc
    rw [Function.update_self, ← Multiset.coe_add]
    simp [lettersFor]
  · rw [Function.update_of_ne hc]
    simp [lettersFor, Ne.symm hc]

/-- Only one pipe is different. -/
theorem sum_lettersFor_update [Fintype ι] [DecidableEq ι] (waiting : ι → List (κ × μ)) (i : ι)
    (letters : List (κ × μ)) (c : κ) :
    ∑ j, lettersFor c (Function.update waiting i letters j) + lettersFor c (waiting i) =
      ∑ j, lettersFor c (waiting j) + lettersFor c letters := by
  have hothers : ∑ j ∈ Finset.univ.erase i, lettersFor c (Function.update waiting i letters j) =
      ∑ j ∈ Finset.univ.erase i, lettersFor c (waiting j) := by
    refine Finset.sum_congr rfl fun j hj => ?_
    rw [Function.update_of_ne (Finset.ne_of_mem_erase hj)]
  rw [← Finset.add_sum_erase Finset.univ _ (Finset.mem_univ i),
    ← Finset.add_sum_erase Finset.univ (fun j => lettersFor c (waiting j)) (Finset.mem_univ i),
    hothers, Function.update_self]
  abel

end

/-! ## The balance -/

section

variable [Fintype ι] [DecidableEq ι] [DecidableEq κ] {o : PostOffice ι κ μ}

omit [DecidableEq ι] in
theorem balanced_empty : (empty : PostOffice ι κ μ).Balanced := by
  intro c
  simp [empty]

theorem Balanced.post (h : o.Balanced) (i : ι) (letter : κ × μ) : (o.post i letter).Balanced := by
  intro c
  have hsum := sum_lettersFor_update o.waiting i (o.waiting i ++ [letter]) c
  rw [lettersFor_append, ← add_assoc, add_right_comm, add_left_inj] at hsum
  rw [PostOffice.post]
  dsimp only
  rw [coe_update_append, hsum, ← h c, add_assoc]

theorem Balanced.deliver (h : o.Balanced) (i : ι) : (o.deliver i).Balanced := by
  intro c
  unfold PostOffice.deliver
  split
  · exact h c
  · rename_i letter letters hwaiting
    have hsum := sum_lettersFor_update o.waiting i letters c
    rw [hwaiting, lettersFor_cons, ← add_assoc, add_left_inj] at hsum
    dsimp only
    rw [coe_update_append, ← h c, ← hsum]
    abel

theorem Balanced.deliverAll (h : o.Balanced) (pipes : List ι) :
    (pipes.foldl PostOffice.deliver o).Balanced := by
  induction pipes generalizing o with
  | nil => exact h
  | cons i pipes ih => exact ih (h.deliver i)

omit [DecidableEq ι] in
/-- A client has nothing that was not sent for it. -/
theorem Balanced.subperm (h : o.Balanced) (c : κ) : (o.inbox c).Subperm (o.sent c) := by
  rw [← Multiset.coe_le, ← h c]
  exact Multiset.le_add_right _ _

omit [DecidableEq ι] in
/-- Where nothing waits, a client has all that was sent for it. -/
theorem Balanced.perm (h : o.Balanced) (hwaiting : ∀ i, o.waiting i = []) (c : κ) :
    (o.inbox c).Perm (o.sent c) := by
  rw [← Multiset.coe_eq_coe, ← h c]
  simp [hwaiting]

end

/-! ## Deliveries -/

section

variable [DecidableEq ι] [DecidableEq κ]

@[simp] theorem sent_deliver (o : PostOffice ι κ μ) (i : ι) : (o.deliver i).sent = o.sent := by
  unfold deliver
  split <;> rfl

@[simp] theorem sent_deliverAll (pipes : List ι) :
    ∀ o : PostOffice ι κ μ, (pipes.foldl deliver o).sent = o.sent := by
  induction pipes with
  | nil => exact fun _ => rfl
  | cons i pipes ih => exact fun o => (ih _).trans (sent_deliver o i)

theorem waiting_deliver (o : PostOffice ι κ μ) (i : ι) :
    (o.deliver i).waiting = Function.update o.waiting i (o.waiting i).tail := by
  unfold deliver
  split
  · rename_i hwaiting
    rw [hwaiting, List.tail_nil, ← hwaiting, Function.update_eq_self]
  · rename_i hwaiting
    rw [hwaiting, List.tail_cons]

/-- **Deliveries can go on until nothing waits.** -/
theorem exists_drained [Fintype ι] (o : PostOffice ι κ μ) :
    ∃ pipes : List ι, ∀ i, (pipes.foldl deliver o).waiting i = [] := by
  -- on the number of letters that wait
  induction hn : ∑ i, (o.waiting i).length using Nat.strong_induction_on generalizing o with
  | _ n ih =>
    by_cases hwaiting : ∀ i, o.waiting i = []
    · exact ⟨[], hwaiting⟩
    · obtain ⟨i, hi⟩ := not_forall.mp hwaiting
      have hlt : ∑ j, ((o.deliver i).waiting j).length < n := by
        rw [← hn, waiting_deliver]
        refine Finset.sum_lt_sum (fun j _ => ?_) ⟨i, Finset.mem_univ i, ?_⟩
        · by_cases hj : j = i
          · subst hj
            rw [Function.update_self, List.length_tail]
            exact Nat.sub_le _ _
          · rw [Function.update_of_ne hj]
        · rw [Function.update_self, List.length_tail]
          exact Nat.sub_lt (List.length_pos_iff.mpr hi) Nat.one_pos
      obtain ⟨pipes, hpipes⟩ := ih _ hlt _ rfl
      exact ⟨i :: pipes, hpipes⟩

end

end PostOffice
