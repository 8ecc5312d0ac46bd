import Mathlib.Data.List.Basic
import Zippylog.Machine
import Zippylog.RecordLocks

/-!
# Write locks of streams

`FileOutputStream` and `FileInputStream` as objects of processes: what their constructors
and destructors do to descriptors and locks. At most one stream with a write lock of a file should
be alive in the whole operating system; but the locks of `fcntl` belong to processes, and a process
loses one with the first descriptor of the file that it closes.

- A file is known by what its path leads to. What is in it is left out.
- `Answers` is what the system answers a constructor. Whether a lock is free is not among
  it: `RecordLocks` says so.
- A constructor that throws behind `File::Open` leaves the descriptor open, and the lock
  held: `File` has no destructor.
- `exclusive_iff`: when there are never two streams with a lock of one file.
- `exclusive_of_disciplined`: processes that never close another descriptor of a file they
  have a lock of, and lock no file twice, exclude each other.
-/

namespace Zippylog

namespace StreamLocks

/-! ## The system -/

inductive StreamKind where
  | output (writeLock : Bool)
  | input
  deriving DecidableEq

/-- A `FileOutputStream` or a `FileInputStream` that is alive. -/
structure FileStream (Process Inode : Type) where
  process : Process
  file : Inode
  fd : Nat
  kind : StreamKind

/-- What the system answers a constructor: the descriptor, if the file opens; that `fcntl`
fails for no other reason than a lock of another process; and that what is behind it
succeeds (`stat` and the header of an output stream, the version of an input stream). -/
structure Answers where
  opened : Option Nat
  lockable : Bool
  rest : Bool

structure System (Process Inode : Type) where
  locks : LockTable Process Inode := fun _ => none
  streams : List (FileStream Process Inode) := []

variable {Process Inode : Type} [DecidableEq Process] [DecidableEq Inode]

namespace File

/-- `File::WriteLockEntire`. -/
def writeLockEntire (t : LockTable Process Inode) (p : Process) (f : Inode) (answers : Answers) :
    Bool × LockTable Process Inode :=
  if answers.lockable ∧ t.Lockable p f then (true, t.lock p f) else (false, t)

/-- `File::Open`: the descriptor, if it returns true. -/
def openFile (t : LockTable Process Inode) (p : Process) (f : Inode) (writeLock : Bool)
    (answers : Answers) : Option Nat × LockTable Process Inode :=
  match answers.opened with
  | none => (none, t)
  | some fd =>
    if writeLock then
      match writeLockEntire t p f answers with
      | (true, t) => (some fd, t)
      | (false, t) => (none, t.close p f)
    else (some fd, t)

/-- `File::Close`: of a descriptor above 0. -/
def closeFile (t : LockTable Process Inode) (p : Process) (f : Inode) (fd : Nat) :
    LockTable Process Inode :=
  if 0 < fd then t.close p f else t

end File

namespace System

/-- `FileOutputStream(path, write_lock)`: whether it does not throw, and the system. -/
def newOutputStream (s : System Process Inode) (p : Process) (f : Inode) (writeLock : Bool)
    (answers : Answers) : Bool × System Process Inode :=
  match File.openFile s.locks p f writeLock answers with
  | (none, locks) => (false, { s with locks := locks })
  | (some fd, locks) =>
    if answers.rest then
      (true, { locks := locks, streams := ⟨p, f, fd, .output writeLock⟩ :: s.streams })
    else (false, { s with locks := locks })

/-- `FileInputStream(path)`. -/
def newInputStream (s : System Process Inode) (p : Process) (f : Inode) (answers : Answers) :
    Bool × System Process Inode :=
  match File.openFile s.locks p f false answers with
  | (none, locks) => (false, { s with locks := locks })
  | (some fd, locks) =>
    if answers.rest then
      (true, { locks := locks, streams := ⟨p, f, fd, .input⟩ :: s.streams })
    else (false, { s with locks := locks })

/-- The descriptor of a stream is closed: `os->Close()` in `~FileOutputStream`, and
`File::Close` in `~FileInputStream`. -/
def closed (s : System Process Inode) (x : FileStream Process Inode) : LockTable Process Inode :=
  match x.kind with
  | .output _ => s.locks.close x.process x.file
  | .input => File.closeFile s.locks x.process x.file x.fd

/-- `~FileOutputStream`, `~FileInputStream`. -/
def destroy (s : System Process Inode) (n : Nat) : System Process Inode :=
  match s.streams[n]? with
  | none => s
  | some x => { locks := s.closed x, streams := s.streams.eraseIdx n }

end System

/-- A process constructs or destroys a stream. -/
inductive Action (Process Inode : Type) where
  | newOutputStream (p : Process) (f : Inode) (writeLock : Bool) (answers : Answers)
  | newInputStream (p : Process) (f : Inode) (answers : Answers)
  | destroy (n : Nat)

namespace System

def step (s : System Process Inode) : Action Process Inode → System Process Inode
  | .newOutputStream p f writeLock answers => (s.newOutputStream p f writeLock answers).2
  | .newInputStream p f answers => (s.newInputStream p f answers).2
  | .destroy n => s.destroy n

/-- The system after some actions; at first there are no streams. -/
def run (actions : List (Action Process Inode)) : System Process Inode := actions.foldl step {}

end System

/-! ## What the steps do -/

/-- An output stream of the file, constructed with `write_lock`. -/
def FileStream.Locked (x : FileStream Process Inode) (f : Inode) : Prop :=
  x.kind = .output true ∧ x.file = f

namespace System

variable {s : System Process Inode} {p : Process} {f : Inode} {writeLock : Bool}
  {answers : Answers}

/-- A constructor that takes no lock: there is one stream more, or not. -/
theorem openFile_unlocked (s : System Process Inode) (p : Process) (f : Inode) (kind : StreamKind)
    (answers : Answers) {s' : System Process Inode}
    (h : s' = match File.openFile s.locks p f false answers with
      | (none, locks) => { s with locks := locks }
      | (some fd, locks) =>
        if answers.rest then { locks := locks, streams := ⟨p, f, fd, kind⟩ :: s.streams }
        else { s with locks := locks }) :
    s'.locks = s.locks ∧
      (s'.streams = s.streams ∨ ∃ fd, s'.streams = ⟨p, f, fd, kind⟩ :: s.streams) := by
  subst h
  obtain ⟨opened, lockable, rest⟩ := answers
  cases opened with
  | none => exact ⟨rfl, .inl rfl⟩
  | some fd =>
    cases rest with
    | false => exact ⟨rfl, .inl rfl⟩
    | true => exact ⟨rfl, .inr ⟨fd, rfl⟩⟩

/-- Without a lock a constructor adds a stream at most, and no lock. -/
theorem newOutputStream_unlocked (s : System Process Inode) (p : Process) (f : Inode)
    (answers : Answers) :
    (s.newOutputStream p f false answers).2.locks = s.locks ∧
      ((s.newOutputStream p f false answers).2.streams = s.streams ∨
        ∃ fd, (s.newOutputStream p f false answers).2.streams =
          ⟨p, f, fd, .output false⟩ :: s.streams) := by
  refine openFile_unlocked s p f (.output false) answers ?_
  rw [newOutputStream]
  split
  · rfl
  · split <;> rfl

/-- **The constructor of an output stream with a lock**: the stream is there, and its process
has the lock; or it is not, and the process has taken the lock, or closed the file, or done
nothing. -/
theorem newOutputStream_cases (s : System Process Inode) (p : Process) (f : Inode)
    (answers : Answers) :
    (answers.opened.isSome ∧ answers.lockable ∧ answers.rest ∧ s.locks.Lockable p f ∧
      (s.newOutputStream p f true answers).2.locks = s.locks.lock p f ∧
      ∃ fd, (s.newOutputStream p f true answers).2.streams =
        ⟨p, f, fd, .output true⟩ :: s.streams) ∨
    (¬ (answers.opened.isSome ∧ answers.lockable ∧ answers.rest ∧ s.locks.Lockable p f) ∧
      (s.newOutputStream p f true answers).2.streams = s.streams ∧
      ((s.newOutputStream p f true answers).2.locks = s.locks ∨
        (s.newOutputStream p f true answers).2.locks = s.locks.close p f ∨
        (s.locks.Lockable p f ∧
          (s.newOutputStream p f true answers).2.locks = s.locks.lock p f))) := by
  obtain ⟨opened, lockable, rest⟩ := answers
  cases opened with
  | none => exact .inr ⟨fun h => Bool.false_ne_true h.1, rfl, .inl rfl⟩
  | some fd =>
    by_cases hlock : lockable ∧ s.locks.Lockable p f
    · cases rest with
      | false =>
        refine .inr ⟨fun h => Bool.false_ne_true h.2.2.1, ?_, .inr (.inr ⟨hlock.2, ?_⟩)⟩
        all_goals simp [newOutputStream, File.openFile, File.writeLockEntire, hlock]
      | true =>
        refine .inl ⟨rfl, hlock.1, rfl, hlock.2, ?_, fd, ?_⟩
        all_goals simp [newOutputStream, File.openFile, File.writeLockEntire, hlock]
    · refine .inr ⟨fun h => hlock ⟨h.2.1, h.2.2.2⟩, ?_, .inr (.inl ?_)⟩
      all_goals simp only [newOutputStream, File.openFile, File.writeLockEntire, if_true,
        if_neg hlock]

/-- The same of streams that are read. -/
theorem newInputStream_cases (s : System Process Inode) (p : Process) (f : Inode)
    (answers : Answers) :
    (s.newInputStream p f answers).2.locks = s.locks ∧
      ((s.newInputStream p f answers).2.streams = s.streams ∨
        ∃ fd, (s.newInputStream p f answers).2.streams = ⟨p, f, fd, .input⟩ :: s.streams) := by
  refine openFile_unlocked s p f .input answers ?_
  rw [newInputStream]
  split
  · rfl
  · split <;> rfl

/-- A destructor closes a descriptor of the file, unless it is an input stream of
descriptor 0. -/
theorem closed_cases (s : System Process Inode) (x : FileStream Process Inode) :
    s.closed x = s.locks.close x.process x.file ∨ s.closed x = s.locks := by
  obtain ⟨process, file, fd, kind⟩ := x
  cases kind with
  | output writeLock => exact .inl rfl
  | input =>
    simp only [closed, File.closeFile]
    split_ifs
    · exact .inl rfl
    · exact .inr rfl

end System

/-! ## Exclusivity -/

namespace System

/-- No file has two streams with a lock. -/
def Exclusive (s : System Process Inode) : Prop :=
  s.streams.Pairwise fun x y => ∀ f, ¬ (x.Locked f ∧ y.Locked f)

/-- Where the system lets a process lock a file that has a stream with a lock already, the
lock is still there, and another process has it. -/
def Meets (s : System Process Inode) : Action Process Inode → Prop
  | .newOutputStream p f true answers =>
    answers.opened.isSome ∧ answers.lockable ∧ answers.rest ∧ (∃ x ∈ s.streams, x.Locked f) →
      ∃ q, q ≠ p ∧ s.locks f = some q
  | _ => True

variable {s : System Process Inode}

omit [DecidableEq Process] [DecidableEq Inode] in
theorem exclusive_cons {s' : System Process Inode} {x : FileStream Process Inode}
    (h : s.Exclusive) (hs : s'.streams = x :: s.streams) :
    s'.Exclusive ↔ ∀ f, x.Locked f → ¬ ∃ y ∈ s.streams, y.Locked f := by
  rw [Exclusive, hs, List.pairwise_cons]
  constructor
  · rintro ⟨hx, -⟩ f hf ⟨y, hy, hyf⟩
    exact hx y hy f ⟨hf, hyf⟩
  · exact fun hx => ⟨fun y hy f hf => hx f hf.1 ⟨y, hy, hf.2⟩, h⟩

omit [DecidableEq Process] [DecidableEq Inode] in
theorem Exclusive.of_streams_eq {s' : System Process Inode} (h : s.Exclusive)
    (hs : s'.streams = s.streams) : s'.Exclusive := by
  unfold Exclusive
  rw [hs]
  exact h

omit [DecidableEq Process] [DecidableEq Inode] in
/-- A stream that has no lock is no obstacle. -/
theorem Exclusive.of_cons {s' : System Process Inode} {x : FileStream Process Inode}
    (h : s.Exclusive) (hs : s'.streams = x :: s.streams) (hx : x.kind ≠ .output true) :
    s'.Exclusive :=
  (exclusive_cons h hs).mpr fun _ hf => absurd hf.1 hx

/-- **One step.** -/
theorem exclusive_step_iff (h : s.Exclusive) (a : Action Process Inode) :
    (s.step a).Exclusive ↔ s.Meets a := by
  cases a with
  | newOutputStream p f writeLock answers =>
    cases writeLock with
    | false =>
      refine iff_of_true ?_ trivial
      obtain ⟨-, hs | ⟨fd, hs⟩⟩ := newOutputStream_unlocked s p f answers
      · exact h.of_streams_eq hs
      · exact h.of_cons hs nofun
    | true =>
      obtain ⟨ho, hl, hr, hlockable, -, fd, hs⟩ | ⟨hnot, hs, -⟩ :=
        newOutputStream_cases s p f answers
      · -- it is constructed: just if there is none yet
        have hiff : (s.step (.newOutputStream p f true answers)).Exclusive ↔
            ¬ ∃ x ∈ s.streams, x.Locked f := by
          refine (exclusive_cons h hs).trans ?_
          exact ⟨fun hall => hall f ⟨rfl, rfl⟩, fun hnone g hg => hg.2 ▸ hnone⟩
        rw [hiff]
        constructor
        · exact fun hnone hmeets => absurd hmeets.2.2.2 hnone
        · intro hmeets hsome
          exact LockTable.not_lockable_iff.mpr (hmeets ⟨ho, hl, hr, hsome⟩) hlockable
      · refine iff_of_true (h.of_streams_eq hs) ?_
        rintro ⟨ho, hl, hr, -⟩
        exact LockTable.not_lockable_iff.mp fun hlockable => hnot ⟨ho, hl, hr, hlockable⟩
  | newInputStream p f answers =>
    refine iff_of_true ?_ trivial
    obtain ⟨-, hs | ⟨fd, hs⟩⟩ := newInputStream_cases s p f answers
    · exact h.of_streams_eq hs
    · exact h.of_cons hs nofun
  | destroy n =>
    refine iff_of_true ?_ trivial
    show (s.destroy n).Exclusive
    rw [destroy]
    split
    · exact h
    · exact List.Pairwise.sublist (List.eraseIdx_sublist ..) h

/-- **No two streams with a lock of one file are ever alive** if and only if, in every step of the
run in which a file is locked that has such a stream, another process still has the lock. A run is
any sequence of constructions and destructions of streams by any processes, with any answers of the
system. -/
theorem exclusive_iff (actions : List (Action Process Inode)) :
    (∀ k, (run (actions.take k)).Exclusive) ↔
      ∀ k a, actions[k]? = some a → (run (actions.take k)).Meets a :=
  -- the property is its own invariant
  Machine.forall_run_iff List.Pairwise.nil id (fun h hmeets => (exclusive_step_iff h _).mpr hmeets)
    fun h hnext => (exclusive_step_iff h _).mp hnext

/-- A process constructs two streams with a lock of one file. -/
theorem not_exclusive_twice : ¬ ∀ (actions : List (Action Bool Bool)) k,
    (run (actions.take k)).Exclusive := by
  intro h
  have hlast := h [.newOutputStream true true true ⟨some 3, true, true⟩,
    .newOutputStream true true true ⟨some 4, true, true⟩] 2
  exact (List.pairwise_cons.mp hlast).1 _ List.mem_cons_self true ⟨⟨rfl, rfl⟩, ⟨rfl, rfl⟩⟩

/-! ## Processes that exclude each other -/

/-- A process that has a stream with a lock of a file neither locks the file again nor
destroys another stream of it. -/
def Disciplined (s : System Process Inode) : Action Process Inode → Prop
  | .newOutputStream p f writeLock _ =>
    writeLock = true → ∀ x ∈ s.streams, x.Locked f → x.process ≠ p
  | .newInputStream _ _ _ => True
  | .destroy n => ∀ x, s.streams[n]? = some x →
    ∀ y ∈ s.streams.eraseIdx n, y.Locked x.file → y.process ≠ x.process

/-- Every stream with a lock has it still. -/
def Holding (s : System Process Inode) : Prop :=
  ∀ x ∈ s.streams, ∀ f, x.Locked f → s.locks f = some x.process

omit [DecidableEq Process] [DecidableEq Inode] in
/-- A disciplined step meets the condition: the lock of a stream that is alive is still held. -/
theorem Holding.meets (h : s.Holding) {a : Action Process Inode} (ha : s.Disciplined a) :
    s.Meets a := by
  cases a with
  | newOutputStream p f writeLock answers =>
    cases writeLock with
    | false => trivial
    | true =>
      rintro ⟨-, -, -, x, hx, hf⟩
      exact ⟨x.process, ha rfl x hx hf, h x hx f hf⟩
  | newInputStream p f answers => trivial
  | destroy n => trivial

/-- The lock of a new stream: what the process does to the file affects no stream that has
the lock of another one. -/
theorem Holding.newOutputStream (h : s.Holding) {p : Process} {f : Inode} {answers : Answers}
    (hf : ∀ x ∈ s.streams, x.Locked f → x.process ≠ p) :
    (s.newOutputStream p f true answers).2.Holding := by
  obtain ⟨-, -, -, hlockable, hlocks, fd, hs⟩ | ⟨-, hs, hlocks⟩ :=
    newOutputStream_cases s p f answers
  · -- with the lock free for `p`, no stream has it
    have hnone : ∀ x ∈ s.streams, ¬ x.Locked f := by
      intro x hx hxf
      exact LockTable.not_lockable_iff.mpr ⟨_, hf x hx hxf, h x hx f hxf⟩ hlockable
    intro x hmem g hg
    rw [hs] at hmem
    rw [hlocks]
    obtain rfl | hx := List.mem_cons.mp hmem
    · obtain rfl : f = g := hg.2
      exact LockTable.lock_self
    · have hne : g ≠ f := by
        rintro rfl
        exact hnone x hx hg
      rw [LockTable.lock_of_ne hne]
      exact h x hx g hg
  · intro x hx g hg
    rw [hs] at hx
    have hown := h x hx g hg
    obtain hlocks | hlocks | ⟨hlockable, hlocks⟩ := hlocks
    · rw [hlocks]
      exact hown
    · rw [hlocks]
      by_cases hgf : g = f
      · subst hgf
        exact (LockTable.close_of_process_ne (hf x hx hg)).mpr hown
      · rw [LockTable.close_of_file_ne hgf]
        exact hown
    · rw [hlocks]
      have hne : g ≠ f := by
        rintro rfl
        exact LockTable.not_lockable_iff.mpr ⟨_, hf x hx hg, hown⟩ hlockable
      rw [LockTable.lock_of_ne hne]
      exact hown

omit [DecidableEq Process] [DecidableEq Inode] in
/-- A stream without a lock does not matter to who holds what. -/
theorem Holding.of_cons {s' : System Process Inode} {x : FileStream Process Inode}
    (h : s.Holding) (hlocks : s'.locks = s.locks)
    (hs : s'.streams = s.streams ∨ s'.streams = x :: s.streams) (hx : x.kind ≠ .output true) :
    s'.Holding := by
  intro y hy g hg
  rw [hlocks]
  obtain hs | hs := hs
  · exact h y (hs ▸ hy) g hg
  · rw [hs] at hy
    obtain rfl | hy := List.mem_cons.mp hy
    · exact absurd hg.1 hx
    · exact h y hy g hg

/-- **The step lemma**: disciplined processes hold the locks of their streams for as long as these
live. -/
theorem Holding.step (h : s.Holding) {a : Action Process Inode} (ha : s.Disciplined a) :
    (s.step a).Holding := by
  cases a with
  | newOutputStream p f writeLock answers =>
    cases writeLock with
    | false =>
      obtain ⟨hlocks, hs | ⟨fd, hs⟩⟩ := newOutputStream_unlocked s p f answers
      · exact h.of_cons (x := ⟨p, f, 0, .output false⟩) hlocks (.inl hs) nofun
      · exact h.of_cons hlocks (.inr hs) nofun
    | true => exact h.newOutputStream (ha rfl)
  | newInputStream p f answers =>
    obtain ⟨hlocks, hs | ⟨fd, hs⟩⟩ := newInputStream_cases s p f answers
    · exact h.of_cons (x := ⟨p, f, 0, .input⟩) hlocks (.inl hs) nofun
    · exact h.of_cons hlocks (.inr hs) nofun
  | destroy n =>
    show (s.destroy n).Holding
    rw [destroy]
    cases hn : s.streams[n]? with
    | none => exact h
    | some x =>
      intro y hy g hg
      have hown := h y (List.mem_of_mem_eraseIdx hy) g hg
      obtain hlocks | hlocks := closed_cases s x
      · show s.closed x g = _
        rw [hlocks]
        by_cases hgx : g = x.file
        · subst hgx
          exact (LockTable.close_of_process_ne (ha x hn y hy hg)).mpr hown
        · rw [LockTable.close_of_file_ne hgx]
          exact hown
      · show s.closed x g = _
        rw [hlocks]
        exact hown

/-- **Disciplined processes exclude each other.** -/
theorem exclusive_of_disciplined (actions : List (Action Process Inode))
    (h : ∀ k a, actions[k]? = some a → (run (actions.take k)).Disciplined a) (k : Nat) :
    (run (actions.take k)).Exclusive := by
  have hinv : (run (actions.take k)).Holding ∧ (run (actions.take k)).Exclusive :=
    Machine.invariant_run (P := fun s => s.Holding ∧ s.Exclusive) ⟨nofun, List.Pairwise.nil⟩
      (fun h hdisciplined => ⟨h.1.step hdisciplined,
        (exclusive_step_iff h.2 _).mpr (h.1.meets hdisciplined)⟩)
      (fun k a ha _ => h k a ha) k
  exact hinv.2

end System

end StreamLocks

end Zippylog
