/-!
# Machines

A machine answers an input and is in another state then. Statements about its runs are of three
kinds, and each is proved here once from what one step does.

- `Machine.Bisimulation.outputs_eq`: related states answer alike for ever, where each step leads
  from related states to related states with the same answer;
- `Machine.forall_run_iff`: for a machine without answers, what holds in every state of a
  run exactly when every step meets a condition. There is an invariant that such steps keep, and a
  step that does not meet it spoils the state behind it;
- `Machine.forall_step_iff`: the same for what holds of every step.
-/

universe u v w x

namespace Machine

variable {σ : Type u} {τ : Type x} {ι : Type v} {ο : Type w}

/-- The answers to a sequence of inputs. -/
def outputs (step : σ → ι → ο × σ) : σ → List ι → List ο
  | _, [] => []
  | s, i :: is => (step s i).1 :: outputs step (step s i).2 is

/-- Related states answer alike, and are related after that. -/
def Bisimulation (step : σ → ι → ο × σ) (step' : τ → ι → ο × τ) (R : σ → τ → Prop) : Prop :=
  ∀ ⦃s t⦄, R s t → ∀ i, (step s i).1 = (step' t i).1 ∧ R (step s i).2 (step' t i).2

theorem Bisimulation.outputs_eq {step : σ → ι → ο × σ} {step' : τ → ι → ο × τ}
    {R : σ → τ → Prop} (hR : Bisimulation step step' R) (is : List ι) :
    ∀ {s : σ} {t : τ}, R s t → outputs step s is = outputs step' t is := by
  induction is with
  | nil => exact fun _ => rfl
  | cons i is ih =>
    intro s t h
    obtain ⟨hout, hnext⟩ := hR h i
    rw [outputs, outputs, hout, ih hnext]

/-! ## Machines without answers -/

section

variable {step : σ → ι → σ} {s : σ}

theorem foldl_take_succ (is : List ι) (k : Nat) :
    (is.take (k + 1)).foldl step s =
      match is[k]? with
      | none => (is.take k).foldl step s
      | some i => step ((is.take k).foldl step s) i := by
  rw [List.take_add_one, List.foldl_append]
  cases is[k]? with
  | none => rfl
  | some i => rfl

variable {P Q : σ → Prop} {Meets : σ → ι → Prop} {is : List ι}

/-- An invariant that a step keeps if it meets a condition. -/
theorem invariant_run (hinv : P s) (hstep : ∀ {s i}, P s → Meets s i → P (step s i))
    (hmeets : ∀ k i, is[k]? = some i → P ((is.take k).foldl step s) →
      Meets ((is.take k).foldl step s) i) (k : Nat) : P ((is.take k).foldl step s) := by
  induction k with
  | zero => exact hinv
  | succ k ih =>
    rw [foldl_take_succ]
    cases hi : is[k]? with
    | none => exact ih
    | some i => exact hstep ih (hmeets k i hi ih)

/-- The invariant is enough for `Q`, and a step to a `Q` state meets the condition. -/
theorem forall_run_iff (hinv : P s) (hgood : ∀ {s}, P s → Q s)
    (hstep : ∀ {s i}, P s → Meets s i → P (step s i))
    (hmeets : ∀ {s i}, P s → Q (step s i) → Meets s i) :
    (∀ k, Q ((is.take k).foldl step s)) ↔
      ∀ k i, is[k]? = some i → Meets ((is.take k).foldl step s) i := by
  constructor
  · intro h
    have hnext : ∀ k i, is[k]? = some i → P ((is.take k).foldl step s) →
        Meets ((is.take k).foldl step s) i := by
      intro k i hi hk
      have hsucc := h (k + 1)
      rw [foldl_take_succ, hi] at hsucc
      exact hmeets hk hsucc
    exact fun k i hi => hnext k i hi (invariant_run hinv hstep hnext k)
  · exact fun h k => hgood (invariant_run hinv hstep (fun k i hi _ => h k i hi) k)

/-- A step is good exactly if it meets the condition, where the invariant holds. -/
theorem forall_step_iff {Good : σ → ι → Prop} (hinv : P s)
    (hstep : ∀ {s i}, P s → Meets s i → P (step s i))
    (hgood : ∀ {s i}, P s → (Good s i ↔ Meets s i)) :
    (∀ k i, is[k]? = some i → Good ((is.take k).foldl step s) i) ↔
      ∀ k i, is[k]? = some i → Meets ((is.take k).foldl step s) i := by
  constructor
  · intro h k i hi
    have hk := invariant_run hinv hstep (fun k i hi hk => (hgood hk).mp (h k i hi)) k
    exact (hgood hk).mp (h k i hi)
  · intro h k i hi
    have hk := invariant_run hinv hstep (fun k i hi _ => h k i hi) k
    exact (hgood hk).mpr (h k i hi)

end

end Machine
