import Mathlib.Algebra.Order.BigOperators.Group.List
import Mathlib.Algebra.Ring.Nat

/-!
# Budgets

Taking elements from the front of a list while a budget lasts. Whether it lasts is asked
of each element after it was taken, so the last one need not be covered. This is the loop of one who
sends what there is to a limit: there is always something sent, and what is sent may overrun.

- `Budget.spend`: what is taken, of a bounded number of elements;
- `Budget.spend_prefix`, `Budget.spend_ne_nil_iff`: it is the front of the list, and there is some
  of it where anything may be taken;
- `Budget.sum_spend_le_iff`: the budget covers what is taken exactly when it covers all
  elements that could be taken, also where they really weigh more than is counted.
-/

universe u

namespace Budget

variable {α : Type u} (w : α → Nat)

/-- At most `n` elements, up to the first that weighs more than is left. -/
def spend : Nat → Nat → List α → List α
  | 0, _, _ => []
  | _ + 1, _, [] => []
  | n + 1, left, a :: as => if left < w a then [a] else a :: spend n (left - w a) as

@[simp] theorem spend_zero (left : Nat) (as : List α) : spend w 0 left as = [] := by
  cases as <;> rfl

@[simp] theorem spend_nil (n left : Nat) : spend w n left [] = [] := by
  cases n <;> rfl

theorem spend_cons (n left : Nat) (a : α) (as : List α) :
    spend w (n + 1) left (a :: as) =
      if left < w a then [a] else a :: spend w n (left - w a) as := rfl

/-- What is taken comes from the front. -/
theorem spend_prefix_take (n : Nat) :
    ∀ (left : Nat) (as : List α), spend w n left as <+: as.take n := by
  induction n with
  | zero => simp
  | succ n ih =>
    intro left as
    cases as with
    | nil => simp
    | cons a as =>
      rw [spend_cons, List.take_succ_cons]
      split
      · exact List.prefix_append [a] _
      · exact List.prefix_cons_iff.mpr (Or.inr ⟨_, rfl, ih _ as⟩)

theorem spend_prefix (n left : Nat) (as : List α) : spend w n left as <+: as :=
  (spend_prefix_take w n left as).trans (List.take_prefix n as)

/-- What is taken weighs no more than all there is. -/
theorem sum_spend_le (v : α → Nat) (n left : Nat) (as : List α) :
    ((spend w n left as).map v).sum ≤ (as.map v).sum := by
  obtain ⟨rest, hrest⟩ := spend_prefix w n left as
  calc ((spend w n left as).map v).sum
      ≤ ((spend w n left as).map v).sum + (rest.map v).sum := Nat.le_add_right _ _
    _ = (as.map v).sum := by rw [← List.sum_append, ← List.map_append, hrest]

theorem length_spend_le (n left : Nat) (as : List α) : (spend w n left as).length ≤ n :=
  Nat.le_trans (spend_prefix_take w n left as).length_le (List.length_take_le n as)

/-- There is always a first element to take. -/
theorem spend_ne_nil_iff (n left : Nat) (as : List α) :
    spend w n left as ≠ [] ↔ n ≠ 0 ∧ as ≠ [] := by
  cases n with
  | zero => simp
  | succ n =>
    cases as with
    | nil => simp
    | cons a as =>
      rw [spend_cons]
      split <;> simp

/-- **A budget that covers what was taken** covers what could be taken. The elements may
weigh more than is counted. -/
theorem sum_spend_le_iff {v : α → Nat} (hv : ∀ a, w a ≤ v a) (n : Nat) :
    ∀ {left b : Nat} (as : List α), b ≤ left →
      (((spend w n left as).map v).sum ≤ b ↔ ((as.take n).map v).sum ≤ b) := by
  induction n with
  | zero => simp
  | succ n ih =>
    intro left b as hb
    cases as with
    | nil => simp
    | cons a as =>
      have ha := hv a
      rw [spend_cons, List.take_succ_cons, List.map_cons, List.sum_cons]
      split
      · rename_i hover
        rw [List.map_singleton, List.sum_singleton]
        refine iff_of_false ?_ ?_ <;> omega
      · rw [List.map_cons, List.sum_cons]
        by_cases hfirst : v a ≤ b
        · -- what is left covers the rest or does not, however much of it was counted
          have hrest := @ih (left - w a) (b - v a) as (by omega)
          constructor
          · intro h
            have := hrest.mp (by omega)
            omega
          · intro h
            have := hrest.mpr (by omega)
            omega
        · refine iff_of_false ?_ ?_ <;> omega

end Budget
