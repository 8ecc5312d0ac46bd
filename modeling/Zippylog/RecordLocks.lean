import Mathlib.Logic.Function.Basic
import Mathlib.Tactic.SplitIfs

/-!
# Record locks

Write locks of whole files, as POSIX has them. A lock belongs to a process, not to a
descriptor: it is no obstacle to the process itself, and the process loses it as soon as it
closes any descriptor of the file.

- `LockTable`: which process has the lock of a file, if any;
- `Lockable`: what `fcntl` asks with `F_SETLK`: no other process has it. The descriptor that it is
  asked with does not come in;
- `close_of_process_ne`, `close_of_file_ne`: a process that closes something takes no lock away from
  the others, nor its own of another file.
-/

/-- Which process has the lock of a file. -/
abbrev LockTable (Process File : Type) := File → Option Process

namespace LockTable

variable {Process File : Type} [DecidableEq Process] [DecidableEq File]

/-- No other process has the lock. -/
def Lockable (t : LockTable Process File) (p : Process) (f : File) : Prop :=
  t f = none ∨ t f = some p

instance (t : LockTable Process File) (p : Process) (f : File) : Decidable (t.Lockable p f) :=
  inferInstanceAs (Decidable (_ ∨ _))

/-- A process that can takes the lock. -/
def lock (t : LockTable Process File) (p : Process) (f : File) : LockTable Process File :=
  Function.update t f (some p)

/-- A process closes a descriptor of a file. -/
def close (t : LockTable Process File) (p : Process) (f : File) : LockTable Process File :=
  if t f = some p then Function.update t f none else t

variable {t : LockTable Process File} {p q : Process} {f g : File}

omit [DecidableEq Process] [DecidableEq File] in
theorem not_lockable_iff : ¬ t.Lockable p f ↔ ∃ q, q ≠ p ∧ t f = some q := by
  unfold Lockable
  cases h : t f with
  | none => simp
  | some q => simp

omit [DecidableEq Process] in
@[simp] theorem lock_self : t.lock p f f = some p := Function.update_self ..

omit [DecidableEq Process] in
theorem lock_of_ne (h : g ≠ f) : t.lock p f g = t g := Function.update_of_ne h ..

/-- What a process closes leaves the locks of others alone. -/
theorem close_of_process_ne (h : q ≠ p) : t.close p f g = some q ↔ t g = some q := by
  rw [close]
  split_ifs with howner
  · by_cases hg : g = f
    · subst hg
      simp only [Function.update_self, howner, Option.some.injEq, reduceCtorEq, false_iff]
      exact h.symm
    · simp only [Function.update_of_ne hg]
  · rfl

theorem close_of_file_ne (h : g ≠ f) : t.close p f g = t g := by
  rw [close]
  split_ifs
  · exact Function.update_of_ne h ..
  · rfl

end LockTable
