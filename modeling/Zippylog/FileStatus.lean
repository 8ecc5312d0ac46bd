import Mathlib.Data.List.TakeWhile
import Zippylog.StoreAccess

/-!
# File status

What the checks of a store make of the files that are there, and of a `FileStat` that
nothing was written to. `platform::stat` returns a `bool`, and the checks compare it with -1, so
where it fails they go on to compare a type that was not written: `memory` says what is there.

- `Files`: what the paths of a system lead to, and what `stat` finds of it. The type is told by
  bits of the mode, which block devices and sockets share with directories;
- `Check.program_eq`: a check looks for one entity, and compares a type also where
  `stat` fails;
- `exact_iff`: when it is right, for every system of files, path and memory.
-/

namespace Zippylog

open Wire Platform StoreWriter

namespace Platform

/-! ## The system -/

/-- The types of files that POSIX has, behind symbolic links. -/
inductive FileKind where
  | fifo
  | characterDevice
  | directory
  | blockDevice
  | regular
  | socket
  deriving DecidableEq

/-- The type of a file in `st_mode`, which `S_IFMT` masks. -/
def FileKind.format : FileKind → BitVec 4
  | fifo => 0x1
  | characterDevice => 0x2
  | directory => 0x4
  | blockDevice => 0x6
  | regular => 0x8
  | socket => 0xc

structure Inode where
  kind : FileKind
  permissions : BitVec 12
  size : Int

/-- `st_mode`. -/
def Inode.mode (i : Inode) : BitVec 16 := i.kind.format ++ i.permissions

def S_IFDIR : BitVec 16 := 0x4000

def S_IFREG : BitVec 16 := 0x8000

def S_IFIFO : BitVec 16 := 0x1000

/-- What paths lead to. A path has no NUL. `stat` can fail also where there is a file: a
directory on the way may not be searched, or the size does not fit. -/
structure Files where
  leadsTo : Bytes → Option Inode
  leadsTo_of_zero_mem : ∀ path, 0 ∈ path → leadsTo path = none
  statFails : Bytes → Bool

theorem cString_eq_self {s : Bytes} (h : 0 ∉ s) : cString s = s := by
  rw [cString, List.takeWhile_eq_self_iff]
  intro b hb
  exact bne_iff_ne.mpr fun h0 => h (h0 ▸ hb)

namespace Files

variable (fs : Files)

/-- What the `stat` of the system finds. -/
def find (path : Bytes) : Option Inode :=
  if fs.statFails path then none else fs.leadsTo path

theorem leadsTo_of_find {path : Bytes} {inode : Inode} (h : fs.find path = some inode) :
    fs.leadsTo path = some inode := by
  rw [find] at h
  split_ifs at h
  exact h

theorem zero_notMem {path : Bytes} {inode : Inode} (h : fs.leadsTo path = some inode) :
    0 ∉ path := by
  intro hzero
  rw [fs.leadsTo_of_zero_mem path hzero] at h
  cases h

/-- There is a file of that kind at the path. -/
def Has (kind : FileKind) (path : Bytes) : Prop :=
  ∃ inode, fs.leadsTo path = some inode ∧ inode.kind = kind

end Files

/-! ## `platform::stat` -/

/-- The type of an `st_mode`: the bits of a type are looked at one after the other. -/
def typeOfMode (mode : BitVec 16) : FileType :=
  if mode &&& S_IFDIR ≠ 0 then .directory
  else if mode &&& S_IFREG ≠ 0 then .regular
  else if mode &&& S_IFIFO ≠ 0 then .pipe
  else .unknown

/-- `stat`, with what the structure had before. -/
def Files.stat (fs : Files) (path : Bytes) (st : FileStat) : Bool × FileStat :=
  match fs.find (cString path) with
  | none => (false, st)
  | some inode => (true, ⟨typeOfMode inode.mode, inode.size⟩)

/-- The answers to a check: its `FileStat` is not written before. -/
def Files.answer (fs : Files) (memory : FileStat) (u : Unit) :
    (call : FileCall) → FileAnswer call × Unit
  | .stat path => (fs.stat path memory, u)
  | .readdir _ => (none, u)
  | .mkdir _ => (false, u)
  | .openRead _ => (none, u)
  | .openAppend _ => (false, u)
  | .gettimeofday => (0, u)

/-- What a check asks for. -/
inductive Wanted where
  | directory
  | regular
  deriving DecidableEq

namespace Wanted

def kind : Wanted → FileKind
  | directory => .directory
  | regular => .regular

def type : Wanted → FileType
  | directory => .directory
  | regular => .regular

/-- The kinds of files with the bit of a directory. -/
def Matches : Wanted → FileKind → Prop
  | directory, kind => kind = .directory ∨ kind = .blockDevice ∨ kind = .socket
  | regular, kind => kind = .regular

end Wanted

theorem typeOfMode_eq_iff (inode : Inode) (wanted : Wanted) :
    typeOfMode inode.mode = wanted.type ↔ wanted.Matches inode.kind := by
  obtain ⟨kind, permissions, size⟩ := inode
  have hmask : ∀ bits : BitVec 4,
      (kind.format ++ permissions) &&& (bits ++ 0#12) = (kind.format &&& bits) ++ 0#12 := by
    intro bits
    rw [BitVec.and_append, BitVec.and_zero]
  have hdir : (kind.format ++ permissions) &&& S_IFDIR = (kind.format &&& 0x4) ++ 0#12 := hmask 0x4
  have hreg : (kind.format ++ permissions) &&& S_IFREG = (kind.format &&& 0x8) ++ 0#12 := hmask 0x8
  have hfifo : (kind.format ++ permissions) &&& S_IFIFO = (kind.format &&& 0x1) ++ 0#12 :=
    hmask 0x1
  rw [Inode.mode, typeOfMode]
  dsimp only
  rw [hdir, hreg, hfifo]
  cases kind <;> cases wanted <;> simp [FileKind.format, Wanted.type, Wanted.Matches]

/-- What `stat` leaves in a structure, by what it finds. -/
theorem Files.type_stat_eq_iff (fs : Files) (path : Bytes) (memory : FileStat) (wanted : Wanted) :
    (fs.stat path memory).2.type = wanted.type ↔
      match fs.find (cString path) with
      | none => memory.type = wanted.type
      | some inode => wanted.Matches inode.kind := by
  unfold stat
  cases hfind : fs.find (cString path) with
  | none => exact Iff.rfl
  | some inode => exact typeOfMode_eq_iff inode wanted

end Platform

namespace StoreAccess

/-! ## Checks -/

/-- `Store::PathExists`. -/
def pathExists (root path : Bytes) : FileProgram Bool :=
  match Store.parsePath path with
  | none => return false
  | some (bucket, set, stream) =>
    if stream ≠ [] then streamExists root bucket set stream
    else if set ≠ [] then streamSetExists root bucket set
    else if bucket ≠ [] then bucketExists root bucket
    else return false

/-- A bucket is a directory. -/
def bucketEntity (root bucket : Bytes) : Wanted × Bytes :=
  (.directory, pathToFilesystemPath root (Store.bucketPath bucket))

/-- A stream set is a directory. -/
def streamSetEntity (root bucket set : Bytes) : Wanted × Bytes :=
  (.directory, pathToFilesystemPath root (Store.streamsetPath bucket set))

/-- A stream is a regular file with the extension. -/
def streamEntity (root bucket set stream : Bytes) : Wanted × Bytes :=
  (.regular, pathToFilesystemPath root (Store.streamPath bucket set stream) ++ extension)

/-- A check as it is made of each entity. -/
def lookFor (e : Wanted × Bytes) : FileProgram Bool := do
  let (_, st) ← stat e.2
  return st.type = e.1.type

/-- What a path in the store names. -/
def pathEntity (root path : Bytes) : Option (Wanted × Bytes) :=
  match Store.parsePath path with
  | none => none
  | some (bucket, set, stream) =>
    if stream ≠ [] then some (streamEntity root bucket set stream)
    else if set ≠ [] then some (streamSetEntity root bucket set)
    else if bucket ≠ [] then some (bucketEntity root bucket)
    else none

/-- The functions that look whether something is there. -/
inductive Check where
  | pathIsDirectory (path : Bytes)
  | pathIsRegularFile (path : Bytes)
  | bucketExists (root bucket : Bytes)
  | streamSetExists (root bucket set : Bytes)
  | streamExists (root bucket set stream : Bytes)
  | pathExists (root path : Bytes)

namespace Check

def program : Check → FileProgram Bool
  | pathIsDirectory path => StoreAccess.pathIsDirectory path
  | pathIsRegularFile path => StoreAccess.pathIsRegularFile path
  | bucketExists root bucket => StoreAccess.bucketExists root bucket
  | streamSetExists root bucket set => StoreAccess.streamSetExists root bucket set
  | streamExists root bucket set stream => StoreAccess.streamExists root bucket set stream
  | pathExists root path => StoreAccess.pathExists root path

/-- The entity that a check names: what it is and where. -/
def entity : Check → Option (Wanted × Bytes)
  | pathIsDirectory path => some (.directory, path)
  | pathIsRegularFile path => some (.regular, path)
  | bucketExists root bucket => some (bucketEntity root bucket)
  | streamSetExists root bucket set => some (streamSetEntity root bucket set)
  | streamExists root bucket set stream => some (streamEntity root bucket set stream)
  | pathExists root path => pathEntity root path

/-- What a check returns. -/
def result (check : Check) (fs : Files) (memory : FileStat) : Bool :=
  (check.program.run (fs.answer memory) ()).2.1

/-- **Spec of the checks**: each looks for the entity that it names. -/
theorem program_eq (check : Check) : check.program = check.entity.elim (pure false) lookFor := by
  cases check with
  | pathIsDirectory path => rfl
  | pathIsRegularFile path => rfl
  | bucketExists root bucket => rfl
  | streamSetExists root bucket set => rfl
  | streamExists root bucket set stream => rfl
  | pathExists root path =>
    show StoreAccess.pathExists root path = (pathEntity root path).elim (pure false) lookFor
    rw [StoreAccess.pathExists, pathEntity]
    rcases Store.parsePath path with _ | ⟨bucket, set, stream⟩
    · rfl
    · dsimp only
      split_ifs <;> rfl

/-- It compares the type in the structure, whatever `stat` returned. -/
theorem result_eq_true_iff (check : Check) (fs : Files) (memory : FileStat) :
    check.result fs memory = true ↔
      ∃ wanted path, check.entity = some (wanted, path) ∧
        (fs.stat path memory).2.type = wanted.type := by
  rw [result, program_eq]
  cases check.entity with
  | none => exact iff_of_false Bool.false_ne_true fun ⟨_, _, h, _⟩ => nomatch h
  | some e =>
    obtain ⟨wanted, path⟩ := e
    refine decide_eq_true_iff.trans ⟨fun h => ⟨wanted, path, rfl, h⟩, ?_⟩
    rintro ⟨_, _, ⟨rfl, rfl⟩, h⟩
    exact h

/-- A check is exact: it returns `true` where the entity that is named is there, and
only there. -/
def Exact (check : Check) (fs : Files) (memory : FileStat) : Prop :=
  check.result fs memory = true ↔
    ∃ wanted path, check.entity = some (wanted, path) ∧ fs.Has wanted.kind path

end Check

/-- What a check gets wrong of a path. -/
inductive Misread (fs : Files) (memory : FileStat) (wanted : Wanted) (path : Bytes) : Prop where
  /-- Nothing of the type is there, and the memory has the type from before. -/
  | left (hfind : fs.find (cString path) = none) (hmemory : memory.type = wanted.type)
      (habsent : ¬ fs.Has wanted.kind path)
  /-- `stat` fails for what is there, and the memory has another type. -/
  | hidden (hfind : fs.find (cString path) = none) (hmemory : memory.type ≠ wanted.type)
      (hthere : fs.Has wanted.kind path)
  /-- A block device or a socket is there in place of a directory. -/
  | alike (inode : Inode) (hfind : fs.find path = some inode) (hmatches : wanted.Matches inode.kind)
      (hkind : inode.kind ≠ wanted.kind)
  /-- The path up to a NUL leads to what is wanted. -/
  | cut (inode : Inode) (hzero : 0 ∈ path) (hfind : fs.find (cString path) = some inode)
      (hmatches : wanted.Matches inode.kind)

theorem matches_kind (wanted : Wanted) : wanted.Matches wanted.kind := by
  cases wanted with
  | directory => exact Or.inl rfl
  | regular => rfl

/-- What is misread is answered wrong. -/
theorem Misread.not_iff {fs : Files} {memory : FileStat} {wanted : Wanted} {path : Bytes}
    (h : Misread fs memory wanted path) :
    ¬ ((fs.stat path memory).2.type = wanted.type ↔ fs.Has wanted.kind path) := by
  rw [Files.type_stat_eq_iff]
  intro hiff
  cases h with
  | left hfind hmemory habsent =>
    rw [hfind] at hiff
    exact habsent (hiff.mp hmemory)
  | hidden hfind hmemory hthere =>
    rw [hfind] at hiff
    exact hmemory (hiff.mpr hthere)
  | alike inode hfind hmatches hkind =>
    have hleads := fs.leadsTo_of_find hfind
    rw [cString_eq_self (fs.zero_notMem hleads), hfind] at hiff
    obtain ⟨inode', hleads', hkind'⟩ := hiff.mp hmatches
    rw [hleads] at hleads'
    cases hleads'
    exact hkind hkind'
  | cut inode hzero hfind hmatches =>
    rw [hfind] at hiff
    obtain ⟨inode', hleads, -⟩ := hiff.mp hmatches
    exact fs.zero_notMem hleads hzero

/-- **A path is read** right or as one of `Misread`. -/
theorem type_stat_iff_has_iff (fs : Files) (memory : FileStat) (wanted : Wanted) (path : Bytes) :
    ((fs.stat path memory).2.type = wanted.type ↔ fs.Has wanted.kind path) ↔
      ¬ Misread fs memory wanted path := by
  refine ⟨fun hiff h => h.not_iff hiff, fun h => ?_⟩
  rw [Files.type_stat_eq_iff]
  cases hfind : fs.find (cString path) with
  | none =>
    constructor
    · intro hmemory
      by_contra habsent
      exact h (.left hfind hmemory habsent)
    · intro hthere
      by_contra hmemory
      exact h (.hidden hfind hmemory hthere)
  | some inode =>
    constructor
    · intro hmatches
      by_cases hzero : 0 ∈ path
      · exact absurd (.cut inode hzero hfind hmatches) h
      · rw [cString_eq_self hzero] at hfind
        by_contra habsent
        refine h (.alike inode hfind hmatches fun hkind => ?_)
        exact habsent ⟨inode, fs.leadsTo_of_find hfind, hkind⟩
    · rintro ⟨inode', hleads, hkind⟩
      rw [cString_eq_self (fs.zero_notMem hleads)] at hfind
      rw [fs.leadsTo_of_find hfind] at hleads
      cases hleads
      dsimp only
      rw [hkind]
      exact matches_kind wanted

/-- **Existence checks** tell whether the entity is there, exactly where its path is not misread. A
check that has no path to look for returns `false`, which is right. -/
theorem exact_iff (check : Check) (fs : Files) (memory : FileStat) :
    check.Exact fs memory ↔
      ∀ wanted path, check.entity = some (wanted, path) → ¬ Misread fs memory wanted path := by
  unfold Check.Exact
  rw [check.result_eq_true_iff]
  constructor
  · rintro h wanted path hentity
    rw [← type_stat_iff_has_iff]
    constructor
    · intro htype
      obtain ⟨wanted', path', hentity', hthere⟩ := h.mp ⟨wanted, path, hentity, htype⟩
      rw [hentity] at hentity'
      cases hentity'
      exact hthere
    · intro hthere
      obtain ⟨wanted', path', hentity', htype⟩ := h.mpr ⟨wanted, path, hentity, hthere⟩
      rw [hentity] at hentity'
      cases hentity'
      exact htype
  · intro h
    refine exists_congr fun wanted => exists_congr fun path => and_congr_right fun hentity => ?_
    exact (type_stat_iff_has_iff fs memory wanted path).mpr (h wanted path hentity)

/-- Nothing is there. -/
def noFiles : Files where
  leadsTo _ := none
  leadsTo_of_zero_mem _ _ := rfl
  statFails _ := false

/-- A directory that is not there, with the memory of one that was. -/
theorem not_exact_noFiles :
    ¬ (Check.pathIsDirectory (str "/store")).Exact noFiles ⟨.directory, 0⟩ := by
  intro h
  obtain ⟨wanted, path, -, inode, hleads, -⟩ := h.mp rfl
  cases hleads

end StoreAccess

end Zippylog
