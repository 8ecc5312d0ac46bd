import Mathlib.Algebra.Ring.Nat
import Mathlib.Tactic.SplitIfs
import Zippylog.Machine

/-!
# The allocator of a Lua state

`LuaState::LuaAlloc`, which counts what a state has in use and refuses what is more than its
ceiling. Lua asks one function for everything: it allocates, grows, shrinks, moves and frees, and
the contract is that a request is refused only for the ceiling or by `realloc`, that a refused one
leaves the block as it is, and that the counter is the sum of the sizes of the live blocks.

- The counters are words of 32 bits, sizes of blocks are words of 64 bits, and each
  expression is taken in the width that the source gives it.
- `LuaHeap`: the blocks that a state has. `realloc` may fail for any of them.
- `contract_iff`: how long the contract with the state is kept in a run. The counter is changed in
  front of `realloc` and not put back behind a failed one, a block that keeps its size is taken for
  a growing one, and sums wrap.
-/

namespace Zippylog

/-- The members of `LuaState` that the allocator works on. -/
structure LuaAllocator where
  memoryExceeded : Bool := false
  memoryCeiling : UInt32 := 32768
  memoryCurrent : UInt32 := 0
  memoryMaxTried : UInt32 := 0
  memoryMaxAllowed : UInt32 := 0
  deriving DecidableEq

namespace LuaAllocator

/-- What became of a request. Only `moved` returns a block. -/
inductive Allocated where
  | freed
  | moved
  /-- `realloc` returned `NULL` -/
  | failed
  /-- the ceiling is exceeded -/
  | refused
  deriving DecidableEq

/-- `realloc`, as it turns out. -/
def realloc (reallocates : Bool) : Allocated := if reallocates then .moved else .failed

/-- The end of a request that is granted. -/
def grow (s : LuaAllocator) (difference : UInt64) : LuaAllocator :=
  let current := (s.memoryCurrent.toUInt64 + difference).toUInt32
  { s with
    memoryCurrent := current
    memoryMaxAllowed := if s.memoryMaxAllowed < current then current else s.memoryMaxAllowed }

/-- `LuaAlloc`. -/
def luaAlloc (s : LuaAllocator) (osize nsize : UInt64) (reallocates : Bool) :
    Allocated × LuaAllocator :=
  let current := s.memoryCurrent.toUInt64
  -- letting go of memory
  if nsize = 0 then (.freed, { s with memoryCurrent := (current - osize).toUInt32 })
  -- shrinking existing memory
  else if nsize < osize then
    (realloc reallocates, { s with memoryCurrent := (current - (osize - nsize)).toUInt32 })
  -- else growing memory
  else
    let s := { s with
      memoryMaxTried := (s.memoryMaxTried.toUInt64 + (nsize - osize)).toUInt32 }
    if s.memoryCeiling.toUInt64 < current + nsize - osize then
      (.refused, { s with memoryExceeded := true })
    else (realloc reallocates, s.grow (nsize - osize))

end LuaAllocator

/-! ## The blocks of a state -/

/-- A state's allocator, and the sizes of the blocks it has. -/
structure LuaHeap where
  allocator : LuaAllocator := {}
  live : List UInt64 := []
  deriving DecidableEq

/-- The sum of the sizes. -/
def blocksTotal : List UInt64 → Nat
  | [] => 0
  | n :: ns => n.toNat + blocksTotal ns

/-- A call by the state, for a block or a new one, or `SetMemoryCeiling`. -/
inductive AllocCall where
  | alloc (block : Option Nat) (nsize : UInt64) (reallocates : Bool)
  | setMemoryCeiling (size : UInt32)

namespace LuaHeap

open LuaAllocator

/-- The size of a block; it is zero for a new one. -/
def osize (live : List UInt64) (block : Option Nat) : UInt64 :=
  (block.bind fun i => live[i]?).getD 0

/-- The blocks with one that was moved. -/
def move (live : List UInt64) (block : Option Nat) (nsize : UInt64) : List UInt64 :=
  match block with
  | none => live ++ [nsize]
  | some i => if i < live.length then live.set i nsize else live ++ [nsize]

/-- The blocks without one. -/
def free (live : List UInt64) (block : Option Nat) : List UInt64 :=
  match block with
  | none => live
  | some i => live.eraseIdx i

/-- The blocks after a request. -/
def after (live : List UInt64) (block : Option Nat) (nsize : UInt64) : Allocated → List UInt64
  | .freed => free live block
  | .moved => move live block nsize
  | .failed | .refused => live

/-- `LuaAlloc` for a block. -/
def alloc (h : LuaHeap) (block : Option Nat) (nsize : UInt64) (reallocates : Bool) :
    Allocated × LuaHeap :=
  let (result, allocator) := h.allocator.luaAlloc (osize h.live block) nsize reallocates
  (result, { allocator := allocator, live := after h.live block nsize result })

def step (h : LuaHeap) : AllocCall → LuaHeap
  | .alloc block nsize reallocates => (h.alloc block nsize reallocates).2
  | .setMemoryCeiling size => { h with allocator := { h.allocator with memoryCeiling := size } }

/-! ## Sums -/

theorem blocksTotal_append (ns ms : List UInt64) :
    blocksTotal (ns ++ ms) = blocksTotal ns + blocksTotal ms := by
  induction ns with
  | nil => simp [blocksTotal]
  | cons n ns ih =>
    rw [List.cons_append, blocksTotal, ih, blocksTotal, Nat.add_assoc]

/-- The total behind a change of one size. -/
theorem blocksTotal_set {ns : List UInt64} {i : Nat} (hi : i < ns.length) (n : UInt64) :
    blocksTotal (ns.set i n) + ns[i].toNat = blocksTotal ns + n.toNat := by
  induction ns generalizing i with
  | nil => exact absurd hi (Nat.not_lt_zero i)
  | cons m ns ih =>
    cases i with
    | zero =>
      simp only [List.set_cons_zero, blocksTotal, List.getElem_cons_zero]
      omega
    | succ i =>
      have := ih (Nat.lt_of_succ_lt_succ hi)
      simp only [List.set_cons_succ, blocksTotal, List.getElem_cons_succ]
      omega

/-- The total behind the loss of one block. -/
theorem blocksTotal_eraseIdx {ns : List UInt64} {i : Nat} (hi : i < ns.length) :
    blocksTotal (ns.eraseIdx i) + ns[i].toNat = blocksTotal ns := by
  induction ns generalizing i with
  | nil => exact absurd hi (Nat.not_lt_zero i)
  | cons m ns ih =>
    cases i with
    | zero =>
      simp only [List.eraseIdx_cons_zero, blocksTotal, List.getElem_cons_zero]
      omega
    | succ i =>
      have := ih (Nat.lt_of_succ_lt_succ hi)
      simp only [List.eraseIdx_cons_succ, blocksTotal, List.getElem_cons_succ]
      omega

section Blocks

variable (live : List UInt64) (block : Option Nat) (nsize : UInt64)

/-- What the blocks have in all when one is freed. There may be none. -/
theorem blocksTotal_free :
    blocksTotal (free live block) + (osize live block).toNat = blocksTotal live := by
  cases block with
  | none => rfl
  | some i =>
    by_cases hi : i < live.length
    · simp only [free, osize, Option.bind_some, List.getElem?_eq_getElem hi, Option.getD_some]
      exact blocksTotal_eraseIdx hi
    · have hle := Nat.le_of_not_lt hi
      simp only [free, osize, Option.bind_some, List.getElem?_eq_none hle, Option.getD_none,
        List.eraseIdx_of_length_le hle]
      rfl

theorem osize_le : (osize live block).toNat ≤ blocksTotal live := by
  have := blocksTotal_free live block
  omega

/-- What the blocks have in all when one is moved, or made. -/
theorem blocksTotal_move :
    blocksTotal (move live block nsize) + (osize live block).toNat =
      blocksTotal live + nsize.toNat := by
  have hnew : blocksTotal (live ++ [nsize]) = blocksTotal live + nsize.toNat := by
    rw [blocksTotal_append]
    rfl
  cases block with
  | none => exact hnew
  | some i =>
    by_cases hi : i < live.length
    · simp only [move, if_pos hi, osize, Option.bind_some, List.getElem?_eq_getElem hi,
        Option.getD_some]
      exact blocksTotal_set hi nsize
    · simp only [move, if_neg hi, osize, Option.bind_some,
        List.getElem?_eq_none (Nat.le_of_not_lt hi), Option.getD_none]
      exact hnew

end Blocks

end LuaHeap

/-! ## One request -/

namespace LuaAllocator

section Request

variable {s : LuaAllocator} {osize nsize : UInt64} (reallocates : Bool)

theorem luaAlloc_free (hle : osize.toNat ≤ s.memoryCurrent.toNat) :
    (s.luaAlloc osize 0 reallocates).1 = .freed ∧
      (s.luaAlloc osize 0 reallocates).2.memoryCurrent.toNat =
        s.memoryCurrent.toNat - osize.toNat := by
  have hlt := s.memoryCurrent.toNat_lt
  refine ⟨rfl, ?_⟩
  show (s.memoryCurrent.toUInt64 - osize).toUInt32.toNat = _
  rw [UInt64.toNat_toUInt32, UInt64.toNat_sub, UInt32.toNat_toUInt64]
  omega

/-- A smaller block: the counter is taken down, whatever `realloc` says. -/
theorem luaAlloc_shrink (hle : osize.toNat ≤ s.memoryCurrent.toNat) (hpos : nsize ≠ 0)
    (hless : nsize < osize) :
    (s.luaAlloc osize nsize reallocates).1 = realloc reallocates ∧
      (s.luaAlloc osize nsize reallocates).2.memoryCurrent.toNat =
        s.memoryCurrent.toNat - (osize.toNat - nsize.toNat) := by
  have hlt := s.memoryCurrent.toNat_lt
  have hless' := UInt64.lt_iff_toNat_lt.mp hless
  rw [luaAlloc]
  simp only [if_neg hpos, if_pos hless, UInt64.toNat_toUInt32, UInt64.toNat_sub,
    UInt32.toNat_toUInt64, true_and]
  omega

/-- The sum that is compared with the ceiling. -/
theorem toNat_sum (hle : osize.toNat ≤ s.memoryCurrent.toNat) :
    (s.memoryCurrent.toUInt64 + nsize - osize).toNat =
      (s.memoryCurrent.toNat - osize.toNat + nsize.toNat) % 2 ^ 64 := by
  have hlt := s.memoryCurrent.toNat_lt
  rw [UInt64.toNat_sub, UInt64.toNat_add, UInt32.toNat_toUInt64]
  omega

/-- More than the ceiling, modulo 2^64, is refused and not counted. -/
theorem luaAlloc_refused (hle : osize.toNat ≤ s.memoryCurrent.toNat) (hpos : nsize ≠ 0)
    (hmore : ¬ nsize < osize)
    (hover : s.memoryCeiling.toNat <
      (s.memoryCurrent.toNat - osize.toNat + nsize.toNat) % 2 ^ 64) :
    (s.luaAlloc osize nsize reallocates).1 = .refused ∧
      (s.luaAlloc osize nsize reallocates).2.memoryCurrent = s.memoryCurrent := by
  have hceiling : s.memoryCeiling.toUInt64 < s.memoryCurrent.toUInt64 + nsize - osize := by
    rw [UInt64.lt_iff_toNat_lt, UInt32.toNat_toUInt64, toNat_sum hle]
    exact hover
  rw [luaAlloc]
  simp only [if_neg hpos, if_neg hmore, if_pos hceiling, true_and]

/-- A larger block within the ceiling: the counter is set in front of `realloc`. -/
theorem luaAlloc_grow (hle : osize.toNat ≤ s.memoryCurrent.toNat) (hpos : nsize ≠ 0)
    (hmore : ¬ nsize < osize)
    (hfits : (s.memoryCurrent.toNat - osize.toNat + nsize.toNat) % 2 ^ 64 ≤
      s.memoryCeiling.toNat) :
    (s.luaAlloc osize nsize reallocates).1 = realloc reallocates ∧
      (s.luaAlloc osize nsize reallocates).2.memoryCurrent.toNat =
        (s.memoryCurrent.toNat - osize.toNat + nsize.toNat) % 2 ^ 64 := by
  have hlt := s.memoryCeiling.toNat_lt
  have hless : osize.toNat ≤ nsize.toNat := UInt64.le_iff_toNat_le.mp (UInt64.not_lt.mp hmore)
  have hceiling : ¬ s.memoryCeiling.toUInt64 < s.memoryCurrent.toUInt64 + nsize - osize := by
    rw [UInt64.lt_iff_toNat_lt, UInt32.toNat_toUInt64, toNat_sum hle]
    exact Nat.not_lt.mpr hfits
  have hsum : s.memoryCurrent.toNat + (nsize.toNat - osize.toNat) =
      s.memoryCurrent.toNat - osize.toNat + nsize.toNat := by omega
  rw [luaAlloc]
  simp only [if_neg hpos, if_neg hmore, if_neg hceiling, grow, UInt64.toNat_toUInt32,
    UInt64.toNat_add, UInt64.toNat_sub_of_le _ _ (UInt64.le_iff_toNat_le.mpr hless),
    UInt32.toNat_toUInt64, true_and, hsum]
  exact Nat.mod_eq_of_lt (Nat.lt_of_le_of_lt hfits hlt)

end Request

end LuaAllocator

/-! ## The contract -/

namespace LuaHeap

open LuaAllocator

/-- What a state is promised about a request. -/
structure KeepsAlloc (h : LuaHeap) (block : Option Nat) (nsize : UInt64) (reallocates : Bool) :
    Prop where
  counts : (h.alloc block nsize reallocates).2.allocator.memoryCurrent.toNat =
    blocksTotal (h.alloc block nsize reallocates).2.live
  bounded : osize h.live block < nsize → (h.alloc block nsize reallocates).1 = .moved →
    blocksTotal (h.alloc block nsize reallocates).2.live ≤ h.allocator.memoryCeiling.toNat
  unchanged : (h.alloc block nsize reallocates).1 = .refused ∨
      (h.alloc block nsize reallocates).1 = .failed →
    (h.alloc block nsize reallocates).2.allocator.memoryCurrent = h.allocator.memoryCurrent ∧
      (h.alloc block nsize reallocates).2.live = h.live
  granted : 0 < nsize → nsize ≤ osize h.live block →
    (h.alloc block nsize reallocates).1 ≠ .refused

/-- What a state is promised about a call. -/
def Keeps (h : LuaHeap) : AllocCall → Prop
  | .alloc block nsize reallocates => h.KeepsAlloc block nsize reallocates
  | .setMemoryCeiling size =>
    (h.step (.setMemoryCeiling size)).allocator.memoryCurrent.toNat =
      blocksTotal (h.step (.setMemoryCeiling size)).live

/-- `realloc` does not fail for a request that gets to it, nor is the sum of more than 64 bits
taken for a small one, and a block is not asked for its own size above the ceiling. -/
def MeetsAlloc (h : LuaHeap) (block : Option Nat) (nsize : UInt64) (reallocates : Bool) : Prop :=
  let total := blocksTotal h.live - (osize h.live block).toNat + nsize.toNat
  nsize = 0 ∨
  nsize < osize h.live block ∧ reallocates ∨
  nsize = osize h.live block ∧ total ≤ h.allocator.memoryCeiling.toNat ∨
  osize h.live block < nsize ∧
    (total % 2 ^ 64 ≤ h.allocator.memoryCeiling.toNat → total < 2 ^ 64 ∧ reallocates)

instance (h : LuaHeap) (block : Option Nat) (nsize : UInt64) (reallocates : Bool) :
    Decidable (h.MeetsAlloc block nsize reallocates) :=
  inferInstanceAs (Decidable (_ ∨ _))

/-- The condition on a call. -/
def Meets (h : LuaHeap) : AllocCall → Prop
  | .alloc block nsize reallocates => h.MeetsAlloc block nsize reallocates
  | .setMemoryCeiling _ => True

/-- The count is right. -/
def Counts (h : LuaHeap) : Prop := h.allocator.memoryCurrent.toNat = blocksTotal h.live

section Contract

variable {h : LuaHeap} {block : Option Nat} {nsize : UInt64} {reallocates : Bool}

theorem after_of_null (live : List UInt64) (block : Option Nat) (nsize : UInt64)
    {result : Allocated} (hnull : result = .refused ∨ result = .failed) :
    after live block nsize result = live := by
  rcases hnull with rfl | rfl <;> rfl

/-- The promises, by what became of the request. -/
theorem keepsAlloc_iff {result : Allocated} {current : Nat}
    (hresult : (h.allocator.luaAlloc (osize h.live block) nsize reallocates).1 = result)
    (hcurrent : (h.allocator.luaAlloc (osize h.live block) nsize
      reallocates).2.memoryCurrent.toNat = current) :
    h.KeepsAlloc block nsize reallocates ↔
      current = blocksTotal (after h.live block nsize result) ∧
      (osize h.live block < nsize → result = .moved →
        blocksTotal (after h.live block nsize result) ≤ h.allocator.memoryCeiling.toNat) ∧
      (result = .refused ∨ result = .failed → current = h.allocator.memoryCurrent.toNat) ∧
      (0 < nsize → nsize ≤ osize h.live block → result ≠ .refused) := by
  subst hresult hcurrent
  constructor
  · intro hkeeps
    exact ⟨hkeeps.counts, hkeeps.bounded,
      fun hnull => congrArg UInt32.toNat (hkeeps.unchanged hnull).1, hkeeps.granted⟩
  · rintro ⟨hcounts, hbounded, hunchanged, hgranted⟩
    exact ⟨hcounts, hbounded, fun hnull =>
      ⟨UInt32.toNat_inj.mp (hunchanged hnull), after_of_null h.live block nsize hnull⟩, hgranted⟩

theorem keepsAlloc_free (hcounts : h.Counts) : h.KeepsAlloc block 0 reallocates := by
  have hle : (osize h.live block).toNat ≤ h.allocator.memoryCurrent.toNat :=
    hcounts ▸ osize_le h.live block
  obtain ⟨hresult, hcurrent⟩ := luaAlloc_free reallocates hle
  have hfree := blocksTotal_free h.live block
  rw [keepsAlloc_iff hresult hcurrent, hcounts]
  refine ⟨?_, by simp, by simp, by simp⟩
  rw [after]
  omega

/-- Shrinking keeps the contract exactly if `realloc` succeeds. -/
theorem keepsAlloc_shrink (hcounts : h.Counts) (hpos : nsize ≠ 0)
    (hless : nsize < osize h.live block) :
    h.KeepsAlloc block nsize reallocates ↔ reallocates = true := by
  have hle : (osize h.live block).toNat ≤ h.allocator.memoryCurrent.toNat :=
    hcounts ▸ osize_le h.live block
  obtain ⟨hresult, hcurrent⟩ := luaAlloc_shrink reallocates hle hpos hless
  have hmove := blocksTotal_move h.live block nsize
  have hless' := UInt64.lt_iff_toNat_lt.mp hless
  have hosize := osize_le h.live block
  rw [keepsAlloc_iff hresult hcurrent, hcounts]
  cases reallocates with
  | false =>
    simp only [realloc, Bool.false_eq_true, if_false, after, iff_false]
    rintro ⟨hsame, -⟩
    omega
  | true =>
    have hmore : ¬ osize h.live block < nsize := UInt64.not_lt.mpr (UInt64.le_of_lt hless)
    simp [realloc, after, hmore]
    omega

/-- A request for the size that is there already goes the way of a growing one, so the ceiling may
have been lowered below what is in use. -/
theorem keepsAlloc_same (hcounts : h.Counts) (hpos : nsize ≠ 0)
    (hsame : nsize = osize h.live block) :
    h.KeepsAlloc block nsize reallocates ↔
      blocksTotal h.live ≤ h.allocator.memoryCeiling.toNat := by
  have hle : (osize h.live block).toNat ≤ h.allocator.memoryCurrent.toNat :=
    hcounts ▸ osize_le h.live block
  have hnot : ¬ nsize < osize h.live block := hsame ▸ UInt64.lt_irrefl _
  have hmove := blocksTotal_move h.live block nsize
  have hlt := h.allocator.memoryCurrent.toNat_lt
  have htotal : (h.allocator.memoryCurrent.toNat - (osize h.live block).toNat + nsize.toNat) %
      2 ^ 64 = blocksTotal h.live := by
    rw [hsame, Nat.sub_add_cancel hle, ← hcounts]
    exact Nat.mod_eq_of_lt (by omega)
  by_cases hceiling : blocksTotal h.live ≤ h.allocator.memoryCeiling.toNat
  · obtain ⟨hresult, hcurrent⟩ := luaAlloc_grow reallocates hle hpos hnot
      (htotal ▸ hceiling)
    rw [keepsAlloc_iff hresult hcurrent, htotal, iff_true_right hceiling, hcounts]
    rw [hsame] at hmove ⊢
    cases reallocates with
    | false => simp [realloc, after, UInt64.lt_irrefl]
    | true =>
      simp [realloc, after, UInt64.lt_irrefl]
      omega
  · obtain ⟨hresult, hcurrent⟩ := luaAlloc_refused reallocates hle hpos hnot
      (htotal ▸ Nat.lt_of_not_le hceiling)
    rw [keepsAlloc_iff hresult (congrArg UInt32.toNat hcurrent), iff_false_right hceiling]
    rintro ⟨-, -, -, hgranted⟩
    exact hgranted (UInt64.pos_iff_ne_zero.mpr hpos) (UInt64.le_of_eq hsame) rfl

/-- Growing keeps the contract where it is refused for the ceiling, and otherwise where the sum does
not wrap and `realloc` succeeds. -/
theorem keepsAlloc_grow (hcounts : h.Counts) (hmore : osize h.live block < nsize) :
    h.KeepsAlloc block nsize reallocates ↔
      ((blocksTotal h.live - (osize h.live block).toNat + nsize.toNat) % 2 ^ 64 ≤
          h.allocator.memoryCeiling.toNat →
        blocksTotal h.live - (osize h.live block).toNat + nsize.toNat < 2 ^ 64 ∧
          reallocates = true) := by
  have hle : (osize h.live block).toNat ≤ h.allocator.memoryCurrent.toNat :=
    hcounts ▸ osize_le h.live block
  have hmore' := UInt64.lt_iff_toNat_lt.mp hmore
  have hpos : nsize ≠ 0 := by
    rintro rfl
    exact absurd hmore' (Nat.not_lt_zero _)
  have hnot : ¬ nsize < osize h.live block := UInt64.not_lt.mpr (UInt64.le_of_lt hmore)
  have hmove := blocksTotal_move h.live block nsize
  have hlt := h.allocator.memoryCurrent.toNat_lt
  have hnsize := nsize.toNat_lt
  rw [← hcounts]
  by_cases hceiling : (h.allocator.memoryCurrent.toNat - (osize h.live block).toNat +
      nsize.toNat) % 2 ^ 64 ≤ h.allocator.memoryCeiling.toNat
  · obtain ⟨hresult, hcurrent⟩ := luaAlloc_grow reallocates hle hpos hnot hceiling
    rw [keepsAlloc_iff hresult hcurrent, imp_iff_right hceiling]
    cases reallocates with
    | false =>
      -- the count went up, and nothing was allocated
      refine iff_of_false (fun hkeeps => ?_) (by simp)
      have hsame := hkeeps.2.2.1 (.inr rfl)
      omega
    | true =>
      have hmoved : blocksTotal (move h.live block nsize) =
          h.allocator.memoryCurrent.toNat - (osize h.live block).toNat + nsize.toNat := by
        rw [Counts] at hcounts
        omega
      constructor
      · intro hkeeps
        have hsame := hkeeps.1.trans hmoved
        exact ⟨by omega, rfl⟩
      · rintro ⟨htotal, -⟩
        rw [Nat.mod_eq_of_lt htotal] at hceiling ⊢
        refine ⟨hmoved.symm, fun _ _ => ?_, by simp [realloc], by simp [realloc]⟩
        exact hmoved ▸ hceiling
  · obtain ⟨hresult, hcurrent⟩ := luaAlloc_refused reallocates hle hpos hnot
      (Nat.lt_of_not_le hceiling)
    rw [keepsAlloc_iff hresult (congrArg UInt32.toNat hcurrent)]
    refine iff_of_true ?_ (fun hfits => absurd hfits hceiling)
    refine ⟨hcounts, by simp, by simp, fun _ hless => ?_⟩
    exact absurd hless (UInt64.not_le.mpr hmore)

/-- **Step lemma**: where the count is right, a request keeps the contract exactly if it meets
the condition. -/
theorem keepsAlloc_iff_meets (hcounts : h.Counts) :
    h.KeepsAlloc block nsize reallocates ↔ h.MeetsAlloc block nsize reallocates := by
  rw [MeetsAlloc]
  by_cases hpos : nsize = 0
  · subst hpos
    exact iff_of_true (keepsAlloc_free hcounts) (.inl rfl)
  rw [or_iff_right hpos]
  have htrichotomy : nsize < osize h.live block ∨ nsize = osize h.live block ∨
      osize h.live block < nsize := by
    simp only [UInt64.lt_iff_toNat_lt, ← UInt64.toNat_inj]
    omega
  rcases htrichotomy with hless | hsame | hmore
  · have hne : nsize ≠ osize h.live block := UInt64.ne_of_lt hless
    have hnot : ¬ osize h.live block < nsize := UInt64.not_lt.mpr (UInt64.le_of_lt hless)
    rw [keepsAlloc_shrink hcounts hpos hless]
    simp [hless, hne, hnot]
  · have hle := osize_le h.live block
    rw [keepsAlloc_same hcounts hpos hsame, ← hsame, Nat.sub_add_cancel (hsame ▸ hle)]
    simp [UInt64.lt_irrefl]
  · have hne : nsize ≠ osize h.live block := (UInt64.ne_of_lt hmore).symm
    have hnot : ¬ nsize < osize h.live block := UInt64.not_lt.mpr (UInt64.le_of_lt hmore)
    rw [keepsAlloc_grow hcounts hmore]
    simp [hmore, hne, hnot]

theorem keeps_iff_meets (hcounts : h.Counts) (call : AllocCall) : h.Keeps call ↔ h.Meets call := by
  cases call with
  | alloc block nsize reallocates => exact keepsAlloc_iff_meets hcounts
  | setMemoryCeiling size => exact iff_of_true hcounts trivial

/-- The count stays right. -/
theorem counts_step (hcounts : h.Counts) {call : AllocCall} (hmeets : h.Meets call) :
    (h.step call).Counts := by
  have hkeeps := (keeps_iff_meets hcounts call).mpr hmeets
  cases call with
  | alloc block nsize reallocates => exact hkeeps.counts
  | setMemoryCeiling size => exact hkeeps

end Contract

/-- **The contract of the allocator**: in a run of a new state it is kept in every call exactly if
every call meets the condition. The calls are requests of any sizes for blocks that the state has,
with `realloc` failing or not, and changes of the ceiling. -/
theorem contract_iff (calls : List AllocCall) :
    (∀ k call, calls[k]? = some call → ((calls.take k).foldl step {}).Keeps call) ↔
      ∀ k call, calls[k]? = some call → ((calls.take k).foldl step {}).Meets call :=
  Machine.forall_step_iff (P := Counts) rfl (fun hcounts hmeets => counts_step hcounts hmeets)
    fun hcounts => keeps_iff_meets hcounts _

/-- A block that `realloc` does not shrink; and one that keeps its size when the ceiling was
lowered. -/
theorem not_contract_shrink :
    (¬ ∀ k call, [AllocCall.alloc none 100 true, .alloc (some 0) 60 false][k]? = some call →
      (([AllocCall.alloc none 100 true, .alloc (some 0) 60 false].take k).foldl step {}).Keeps
        call) ∧
    ¬ ∀ k call, [AllocCall.alloc none 100 true, .setMemoryCeiling 50,
        .alloc (some 0) 100 true][k]? = some call →
      (([AllocCall.alloc none 100 true, .setMemoryCeiling 50,
        .alloc (some 0) 100 true].take k).foldl step {}).Keeps call := by
  constructor
  · intro h
    have hcounts := (h 1 _ rfl).counts
    revert hcounts
    decide
  · intro h
    exact (h 2 _ rfl).granted (by decide) (by decide) (by decide)

end LuaHeap

end Zippylog
