/-!
# Programs

A program makes calls of an interface and goes on with what they answer. It is a tree of calls, so
the same program can be run in an environment, be asked what it would return in one that does not
change, and be held to a condition on all of its calls.

- `Program.run`: the calls it makes in an environment, what it returns, and the
  environment then;
- `Program.eval`: what it returns where the environment does not change;
- `Program.Spec`: what holds of all calls and of the result, whatever is answered. Its
  rules follow the program (`Spec.ask`, `Spec.bind`, `Spec.each`), and `Spec.run` is what they are
  for.
-/

/-- A program over an interface: a call `op` is answered by an `Answer op`. -/
inductive Program (Op : Type) (Answer : Op → Type) (α : Type) where
  | done (a : α)
  | call (op : Op) (next : Answer op → Program Op Answer α)

namespace Program

variable {Op : Type} {Answer : Op → Type} {α β γ : Type}

def bind : Program Op Answer α → (α → Program Op Answer β) → Program Op Answer β
  | done a, f => f a
  | call op next, f => call op fun x => (next x).bind f

instance : Monad (Program Op Answer) where
  pure := done
  bind := bind

@[simp] theorem pure_eq (a : α) : (pure a : Program Op Answer α) = done a := rfl

@[simp] theorem done_bind (a : α) (f : α → Program Op Answer β) : done a >>= f = f a := rfl

@[simp] theorem call_bind (op : Op) (next : Answer op → Program Op Answer α)
    (f : α → Program Op Answer β) : call op next >>= f = call op fun x => next x >>= f := rfl

/-- One call. -/
def ask (op : Op) : Program Op Answer (Answer op) := call op done

/-- A program for each element of a list, one after the other. -/
def each (f : α → Program Op Answer β) : List α → Program Op Answer (List β)
  | [] => done []
  | a :: as => do
    let b ← f a
    let bs ← each f as
    return b :: bs

/-! ## Environments -/

section

variable {σ : Type} (env : σ → (op : Op) → Answer op × σ)

/-- The calls that are made, what is returned, and the state of the environment. -/
def run : σ → Program Op Answer α → List Op × α × σ
  | s, done a => ([], a, s)
  | s, call op next =>
    let (calls, result) := run (env s op).2 (next (env s op).1)
    (op :: calls, result)

end

/-! ## Answers that stay the same -/

section

variable (answers : (op : Op) → Answer op)

/-- What is returned where a call is always answered in the same way. -/
def eval : Program Op Answer α → α
  | done a => a
  | call op next => (next (answers op)).eval

@[simp] theorem eval_done (a : α) : (done a : Program Op Answer α).eval answers = a := rfl

@[simp] theorem eval_ask (op : Op) : (ask op : Program Op Answer _).eval answers = answers op := rfl

@[simp] theorem eval_bind (p : Program Op Answer α) (f : α → Program Op Answer β) :
    (p >>= f).eval answers = (f (p.eval answers)).eval answers := by
  induction p with
  | done a => rfl
  | call op next ih => exact ih _

@[simp] theorem eval_each (f : α → Program Op Answer β) (as : List α) :
    (each f as).eval answers = as.map fun a => (f a).eval answers := by
  induction as with
  | nil => rfl
  | cons a as ih => simp [each, ih]

end

/-! ## Specifications -/

/-- All calls satisfy `P` and the result satisfies `Q`. -/
def Spec (P : Op → Prop) (Q : α → Prop) : Program Op Answer α → Prop
  | done a => Q a
  | call op next => P op ∧ ∀ x, (next x).Spec P Q

variable {P : Op → Prop} {Q : α → Prop} {R : β → Prop}

theorem Spec.ask {op : Op} (h : P op) : (Program.ask op).Spec P fun _ : Answer op => True :=
  ⟨h, fun _ => trivial⟩

theorem Spec.bind {p : Program Op Answer α} {f : α → Program Op Answer β} (h : p.Spec P Q)
    (hf : ∀ a, Q a → (f a).Spec P R) : (p >>= f).Spec P R := by
  induction p with
  | done a => exact hf a h
  | call op next ih => exact ⟨h.1, fun x => ih x (h.2 x)⟩

theorem Spec.mono {Q' : α → Prop} {p : Program Op Answer α} (h : p.Spec P Q)
    (hQ : ∀ a, Q a → Q' a) : p.Spec P Q' := by
  induction p with
  | done a => exact hQ a h
  | call op next ih => exact ⟨h.1, fun x => ih x (h.2 x)⟩

theorem Spec.each {f : α → Program Op Answer β} {as : List α}
    (h : ∀ a ∈ as, (f a).Spec P fun _ => True) : (Program.each f as).Spec P fun _ => True := by
  induction as with
  | nil => trivial
  | cons a as ih =>
    obtain ⟨ha, has⟩ := List.forall_mem_cons.mp h
    exact ha.bind fun b _ => (ih has).bind fun bs _ => trivial

/-- **A specification holds in every environment**. -/
theorem Spec.run {p : Program Op Answer α} (h : p.Spec P Q) {σ : Type}
    (env : σ → (op : Op) → Answer op × σ) (s : σ) :
    (∀ op ∈ (p.run env s).1, P op) ∧ Q (p.run env s).2.1 := by
  induction p generalizing s with
  | done a => exact ⟨fun op hop => absurd hop List.not_mem_nil, h⟩
  | call op next ih =>
    obtain ⟨hcalls, hresult⟩ := ih (env s op).1 (h.2 _) (env s op).2
    exact ⟨List.forall_mem_cons.mpr ⟨h.1, hcalls⟩, hresult⟩

end Program
