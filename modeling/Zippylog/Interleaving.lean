import Mathlib.Logic.Function.Basic
import Mathlib.Logic.Relation
import Zippylog.Program

/-!
# Programs side by side

Parties run programs over one state, each party one after the other. A call is a step,
and between two calls of a party the others go on. What a party can count on is said by a relation
(`rely`) that the steps of the others keep to, and in turn each party guarantees its own relation to
them.

- `Setting`: the calls that a party may make, what they do to the state, and what is relied on;
- `Program.Amid`: what a program assures of every call and of its result, whatever the
  others do meanwhile, where a call that is refused ends it. Its rules follow the program;
- `Shared.Sound.run`: what programs assure amid the others holds of every run of them all. The
  induction is on the run; a step of one party is a step on its program and, for the others, a step
  that they rely on.
-/

namespace Program

/-- A call, and the state it was made in. -/
structure Call (σ Op : Type) (Answer : Op → Type) where
  before : σ
  op : Op
  answer : Answer op

/-- A program that is run: the calls it has made, the last one first, and what is left. -/
structure Job (σ Op : Type) (Answer : Op → Type) (α : Type) where
  calls : List (Call σ Op Answer)
  rest : Program Op Answer α

/-- The state, and the programs each party has run, the last one first. -/
structure Shared (ι σ Op : Type) (Answer : Op → Type) (α : Type) where
  state : σ
  jobs : ι → List (Job σ Op Answer α)

/-- What a party can do to the state and what the others can; which answers refuse a call,
and what is assured of a call where it is made. -/
structure Setting (σ Op : Type) (Answer : Op → Type) where
  env : σ → (op : Op) → Answer op → σ → Prop
  rely : σ → σ → Prop
  refused : (op : Op) → Answer op → Prop
  assured : σ → (op : Op) → Answer op → Prop
  rely_refl : ∀ s, rely s s
  rely_trans : ∀ {s t u}, rely s t → rely t u → rely s u

variable {ι σ Op : Type} {Answer : Op → Type} {α β : Type}

/-! ## One program amid others -/

section

variable (S : Setting σ Op Answer) (stop : α → Prop) (Q : σ → α → Prop)

/-- Every call is as assured. One that is refused ends the program with a result in
`stop`; without one, `Q` holds of the result, and of the state after the last call. -/
def Amid : Program Op Answer α → σ → Prop
  | done a, s => Q s a
  | call op next, s => ∀ s', S.rely s s' → ∀ x t, S.env s' op x t →
    S.assured s' op x ∧ ((S.refused op x ∧ ∃ a, next x = done a ∧ stop a) ∨
      (¬ S.refused op x ∧ (next x).Amid t))

end

section

variable {S : Setting σ Op Answer} {stop : α → Prop} {Q : σ → α → Prop} {s : σ}

/-- The rule for a call: what is assured, what a refusal comes to and what holds behind it are asked
of all states that the others can have made. -/
theorem Amid.ask {op : Op} {stop : Answer op → Prop} {Q : σ → Answer op → Prop}
    (hassured : ∀ s', S.rely s s' → ∀ x t, S.env s' op x t → S.assured s' op x)
    (hrefused : ∀ x, S.refused op x → stop x)
    (h : ∀ s', S.rely s s' → ∀ x t, S.env s' op x t → ¬ S.refused op x → Q t x) :
    (Program.ask op).Amid S stop Q s := by
  intro s' hs x t hx
  refine ⟨hassured s' hs x t hx, ?_⟩
  by_cases hr : S.refused op x
  · exact .inl ⟨hr, x, rfl, hrefused x hr⟩
  · exact .inr ⟨hr, h s' hs x t hx hr⟩

/-- A call that cannot be refused. -/
theorem Amid.ask_of_not {op : Op} {stop : Answer op → Prop} {Q : σ → Answer op → Prop}
    (hassured : ∀ s', S.rely s s' → ∀ x t, S.env s' op x t → S.assured s' op x)
    (hrefused : ∀ x, ¬ S.refused op x)
    (h : ∀ s', S.rely s s' → ∀ x t, S.env s' op x t → Q t x) :
    (Program.ask op).Amid S stop Q s :=
  .ask hassured (fun x hx => absurd hx (hrefused x)) fun s' hs x t hx _ => h s' hs x t hx

/-- The rule for one program behind another. The second is not run where the first was ended by a
refusal. -/
theorem Amid.bind {stop' : β → Prop} {Q' : σ → β → Prop} {p : Program Op Answer α}
    {f : α → Program Op Answer β} (h : p.Amid S stop Q s)
    (hstop : ∀ a, stop a → ∃ b, f a = done b ∧ stop' b)
    (hf : ∀ t a, Q t a → (f a).Amid S stop' Q' t) : (p >>= f).Amid S stop' Q' s := by
  induction p generalizing s with
  | done a => exact hf s a h
  | call op next ih =>
    intro s' hs x t hx
    obtain ⟨hassured, ⟨hr, a, hnext, ha⟩ | ⟨hr, hnext⟩⟩ := h s' hs x t hx
    · refine ⟨hassured, .inl ⟨hr, ?_⟩⟩
      show ∃ b, next x >>= f = done b ∧ stop' b
      rw [hnext]
      exact hstop a ha
    · exact ⟨hassured, .inr ⟨hr, ih x hnext⟩⟩

end

/-! ## Runs -/

namespace Job

def Over (job : Job σ Op Answer α) : Prop := ∃ a, job.rest = .done a

/-- How a program of `Amid` can be in a state: it goes on, it is over, or a refusal has
ended it. -/
inductive Sound (S : Setting σ Op Answer) (stop : α → Prop) (Q : σ → α → Prop) (s : σ) :
    Job σ Op Answer α → Prop where
  | going {calls : List (Call σ Op Answer)} {op : Op} {next : Answer op → Program Op Answer α}
      {s₀ : σ} : (∀ c ∈ calls, ¬ S.refused c.op c.answer) → S.rely s₀ s →
      (Program.call op next).Amid S stop Q s₀ → Sound S stop Q s ⟨calls, .call op next⟩
  | ended {calls : List (Call σ Op Answer)} {a : α} {t : σ} :
      (∀ c ∈ calls, ¬ S.refused c.op c.answer) → Q t a → Sound S stop Q s ⟨calls, .done a⟩
  | stopped {c : Call σ Op Answer} {calls : List (Call σ Op Answer)} {a : α} :
      S.refused c.op c.answer → (∀ c' ∈ calls, ¬ S.refused c'.op c'.answer) → stop a →
      Sound S stop Q s ⟨c :: calls, .done a⟩

variable {S : Setting σ Op Answer} {stop : α → Prop} {Q : σ → α → Prop} {s t : σ}
  {job : Job σ Op Answer α} {calls : List (Call σ Op Answer)}

theorem Sound.of_amid {p : Program Op Answer α}
    (hcalls : ∀ c ∈ calls, ¬ S.refused c.op c.answer) (h : p.Amid S stop Q s) :
    Sound S stop Q s ⟨calls, p⟩ := by
  cases p with
  | done a => exact .ended hcalls h
  | call op next => exact .going hcalls (S.rely_refl s) h

/-- The others do something. -/
theorem Sound.rely (h : Sound S stop Q s job) (hs : S.rely s t) : Sound S stop Q t job := by
  cases h with
  | going hcalls hs₀ hamid => exact .going hcalls (S.rely_trans hs₀ hs) hamid
  | ended hcalls ha => exact .ended hcalls ha
  | stopped hc hcalls ha => exact .stopped hc hcalls ha

theorem Sound.of_over (h : Sound S stop Q s job) (hover : job.Over) : Sound S stop Q t job := by
  cases h with
  | going => exact absurd hover (by rintro ⟨a, ha⟩; cases ha)
  | ended hcalls ha => exact .ended hcalls ha
  | stopped hc hcalls ha => exact .stopped hc hcalls ha

/-- The party itself makes its next call. -/
theorem Sound.call {op : Op} {next : Answer op → Program Op Answer α} {x : Answer op}
    (h : Sound S stop Q s ⟨calls, .call op next⟩) (hx : S.env s op x t) :
    S.assured s op x ∧ Sound S stop Q t ⟨⟨s, op, x⟩ :: calls, next x⟩ := by
  cases h with
  | going hcalls hs hamid =>
    obtain ⟨hassured, ⟨hr, a, hnext, ha⟩ | ⟨hr, hnext⟩⟩ := hamid s hs x t hx
    · rw [hnext]
      exact ⟨hassured, .stopped hr hcalls ha⟩
    · exact ⟨hassured, .of_amid (List.forall_mem_cons.mpr ⟨hr, hcalls⟩) hnext⟩

end Job

namespace Shared

section

variable [DecidableEq ι] (start : ι → List (Job σ Op Answer α) → Program Op Answer α → Prop)
  (S : ι → Setting σ Op Answer)

/-- A party whose programs are over starts another one, or the one it runs makes its next
call. -/
inductive Step : Shared ι σ Op Answer α → Shared ι σ Op Answer α → Prop where
  | start {w : Shared ι σ Op Answer α} {i : ι} {p : Program Op Answer α} :
      (∀ job ∈ (w.jobs i).head?, job.Over) → start i (w.jobs i) p →
      Step w { w with jobs := Function.update w.jobs i (⟨[], p⟩ :: w.jobs i) }
  | call {w : Shared ι σ Op Answer α} {i : ι} {calls : List (Call σ Op Answer)} {op : Op}
      {next : Answer op → Program Op Answer α} {jobs : List (Job σ Op Answer α)}
      {x : Answer op} {t : σ} :
      w.jobs i = ⟨calls, .call op next⟩ :: jobs → (S i).env w.state op x t →
      Step w ⟨t, Function.update w.jobs i (⟨⟨w.state, op, x⟩ :: calls, next x⟩ :: jobs)⟩

end

variable (S : ι → Setting σ Op Answer) (stop : α → Prop) (Q : σ → α → Prop)

/-- What is known of the programs of a party: only the last one may go on. -/
structure PartySound (i : ι) (s : σ) (jobs : List (Job σ Op Answer α)) : Prop where
  sound : ∀ job ∈ jobs, job.Sound (S i) stop Q s
  ended : ∀ job ∈ jobs.tail, job.Over
  assured : ∀ job ∈ jobs, ∀ c ∈ job.calls,
    (∃ t, (S i).env c.before c.op c.answer t) ∧ (S i).assured c.before c.op c.answer

def Sound (w : Shared ι σ Op Answer α) : Prop := ∀ i, PartySound S stop Q i w.state (w.jobs i)

variable {S stop Q} {i : ι} {s t : σ} {jobs : List (Job σ Op Answer α)}

theorem PartySound.rely (h : PartySound S stop Q i s jobs) (hs : (S i).rely s t) :
    PartySound S stop Q i t jobs where
  sound job hjob := (h.sound job hjob).rely hs
  ended := h.ended
  assured := h.assured

/-- A party whose programs are over starts another. -/
theorem PartySound.start {p : Program Op Answer α} (h : PartySound S stop Q i s jobs)
    (hover : ∀ job ∈ jobs.head?, job.Over) (hp : p.Amid (S i) stop Q s) :
    PartySound S stop Q i s (⟨[], p⟩ :: jobs) where
  sound := List.forall_mem_cons.mpr
    ⟨.of_amid (fun c hc => absurd hc List.not_mem_nil) hp, h.sound⟩
  ended job hjob := by
    cases jobs with
    | nil => cases hjob
    | cons last jobs =>
      obtain rfl | hjob := List.mem_cons.mp hjob
      · exact hover job rfl
      · exact h.ended job hjob
  assured := List.forall_mem_cons.mpr ⟨fun c hc => absurd hc List.not_mem_nil, h.assured⟩

/-- A party makes the next call of its program. -/
theorem PartySound.call {calls : List (Call σ Op Answer)} {op : Op}
    {next : Answer op → Program Op Answer α} {x : Answer op}
    (h : PartySound S stop Q i s (⟨calls, .call op next⟩ :: jobs)) (hx : (S i).env s op x t) :
    PartySound S stop Q i t (⟨⟨s, op, x⟩ :: calls, next x⟩ :: jobs) := by
  obtain ⟨hlast, hsound⟩ := List.forall_mem_cons.mp h.sound
  obtain ⟨hcalls, hassured⟩ := List.forall_mem_cons.mp h.assured
  obtain ⟨hnow, hnext⟩ := hlast.call hx
  exact
    { sound := List.forall_mem_cons.mpr
        ⟨hnext, fun job hjob => (hsound job hjob).of_over (h.ended job hjob)⟩
      ended := h.ended
      assured := List.forall_mem_cons.mpr
        ⟨List.forall_mem_cons.mpr ⟨⟨⟨t, hx⟩, hnow⟩, hcalls⟩, hassured⟩ }

variable [DecidableEq ι] {start : ι → List (Job σ Op Answer α) → Program Op Answer α → Prop}
  {w w' : Shared ι σ Op Answer α}

section

variable
  (hrely : ∀ i j, j ≠ i → ∀ s op x t, (S j).env s op x t → (S i).rely s t)
  (hstart : ∀ i jobs p, start i jobs p → ∀ s, p.Amid (S i) stop Q s)

include hrely hstart

/-- **The step lemma**: a step of one party is a call or a start for it, and is relied on by the
others. -/
theorem Sound.step (h : Sound S stop Q w) (hstep : Step start S w w') : Sound S stop Q w' := by
  cases hstep with
  | @start i p hover hp =>
    intro j
    by_cases hj : j = i
    · subst hj
      simp only [Function.update_self]
      exact (h j).start hover (hstart j _ p hp _)
    · simp only [Function.update_of_ne hj]
      exact h j
  | @call i calls op next jobs x t hjobs hx =>
    intro j
    by_cases hj : j = i
    · subst hj
      simp only [Function.update_self]
      exact PartySound.call (hjobs ▸ h j) hx
    · simp only [Function.update_of_ne hj]
      exact (h j).rely (hrely j i (Ne.symm hj) _ _ _ _ hx)

/-- **What programs assure amid the others holds of every run**. -/
theorem Sound.run (h : Sound S stop Q w) (hrun : Relation.ReflTransGen (Step start S) w w') :
    Sound S stop Q w' := by
  induction hrun with
  | refl => exact h
  | tail _ hstep ih => exact ih.step hrely hstart hstep

end

end Shared

end Program
