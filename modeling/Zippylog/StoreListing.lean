import Mathlib.Data.List.Nodup
import Zippylog.DirectoryTree
import Zippylog.Store.Components

/-!
# Listing and addressing

`BucketPaths`, `StreamsetPaths`, `StreamPaths` and `StoreInfo` go through directories,
`PathExists` takes a path apart and asks for the file. Both are about one tree, so every path that
is listed should be found, and every path that is found be listed.

- `Lists`: what is listed of a tree, by the types and names of entries;
- `pathExists_iff`: what is found, by where the names lead;
- `Mismatch`: what there can be between the two, and `listing_agrees_iff`: nothing else is. A
  listing goes by the types that entries have and keeps names that no path has; a path is asked for
  with `stat`, which follows links and can fail.
-/

namespace Zippylog

open Wire Platform

namespace StoreAccess

/-! ## Paths of a store -/

section

variable (root : Bytes)

/-- `BucketPaths`: the vector that is passed is not cleared. -/
def bucketPaths (paths : List Bytes) : FileProgram (List Bytes) := do
  let buckets ← bucketNames root
  return paths ++ buckets.map Store.bucketPath

/-- `StreamsetPaths`: it is cleared here. -/
def streamsetPaths (_paths : List Bytes) : FileProgram (List Bytes) := do
  let buckets ← bucketNames root
  let paths ← Program.each (fun bucket => do
    let sets ← streamSetNames root bucket
    return sets.map (Store.streamsetPath bucket)) buckets
  return paths.flatten

/-- `StreamPaths`. -/
def streamPaths (_paths : List Bytes) : FileProgram (List Bytes) := do
  let buckets ← bucketNames root
  let paths ← Program.each (fun bucket => do
    let sets ← streamSetNames root bucket
    let paths ← Program.each (fun set => do
      let streams ← streamNames root bucket set
      return streams.map (Store.streamPath bucket set)) sets
    return paths.flatten) buckets
  return paths.flatten

end

/-! ## Addresses -/

inductive Level where
  | bucket
  | streamSet
  | stream

/-- A bucket, a stream set or a stream by the names that lead to it. -/
inductive Address where
  | bucket (bucket : Bytes)
  | streamSet (bucket set : Bytes)
  | stream (bucket set stream : Bytes)
  deriving DecidableEq

/-- An entry of a directory that a listing goes through. -/
structure Step where
  dir : List Bytes
  name : Bytes
  wanted : Wanted

namespace Address

def level : Address → Level
  | bucket _ => .bucket
  | streamSet _ _ => .streamSet
  | stream _ _ _ => .stream

/-- `BucketPath`, `StreamsetPath` or `StreamPath`. -/
def path : Address → Bytes
  | bucket b => Store.bucketPath b
  | streamSet b s => Store.streamsetPath b s
  | stream b s n => Store.streamPath b s n

/-- What `ParsePath` is to give back. -/
def components : Address → Bytes × Bytes × Bytes
  | bucket b => (b, [], [])
  | streamSet b s => (b, s, [])
  | stream b s n => (b, s, n)

/-- The path is built from the components that it has. -/
def Canonical (a : Address) : Prop :=
  Store.parsePath a.path = some a.components ∧
    match a with
    | bucket b => b ≠ []
    | streamSet b s => b ≠ [] ∧ s ≠ []
    | stream b s n => b ≠ [] ∧ s ≠ [] ∧ n ≠ []

/-- The names are of the characters that a path has, or the file extension for a stream. -/
def Named : Address → Prop
  | bucket b => ValidName b
  | streamSet b s => ValidName b ∧ ValidName s
  | stream b s n => ValidName b ∧ ValidName s ∧ Store.PathComponent n

/-- The names below the directory of the store. -/
def files : Address → List Bytes
  | bucket b => [b]
  | streamSet b s => [b, s]
  | stream b s n => [b, s, n ++ extension]

def wanted : Address → Wanted
  | bucket _ => .directory
  | streamSet _ _ => .directory
  | stream _ _ _ => .regular

/-- The entries on the way, and of which kind they are to be. -/
def steps : Address → List Step
  | bucket b => [⟨[], b, .directory⟩]
  | streamSet b s => [⟨[], b, .directory⟩, ⟨[b], s, .directory⟩]
  | stream b s n =>
    [⟨[], b, .directory⟩, ⟨[b], s, .directory⟩, ⟨[b, s], n ++ extension, .regular⟩]

end Address

/-! ## What is returned -/

section

variable (t : Tree) (memory : Bytes → FileStat)

/-- What a function returns on a tree. -/
def on {α : Type} (program : FileProgram α) : α := program.eval (t.answers memory)

/-- The paths that are returned, with the vector that was passed. -/
def paths (passed : List Bytes) : Level → List Bytes
  | .bucket => on t memory (bucketPaths t.root passed)
  | .streamSet => on t memory (streamsetPaths t.root passed)
  | .stream => on t memory (streamPaths t.root passed)

/-- The names that are listed. -/
def addresses : Level → List Address
  | .bucket => (on t memory (bucketNames t.root)).map .bucket
  | .streamSet => (on t memory (bucketNames t.root)).flatMap fun b =>
      (on t memory (streamSetNames t.root b)).map (.streamSet b)
  | .stream => (on t memory (bucketNames t.root)).flatMap fun b =>
      (on t memory (streamSetNames t.root b)).flatMap fun s =>
        (on t memory (streamNames t.root b s)).map (.stream b s)

/-- What `StoreInfo` reports. -/
def reported : List Address :=
  (on t memory (storeInfo t.root)).bucket.flatMap fun b =>
    .bucket b.path :: b.streamSet.flatMap fun s =>
      .streamSet b.path s.path :: s.stream.map fun n => .stream b.path s.path n.path

/-- A path is that of an address, parses back to it and satisfies `PathExists`. -/
structure Addressed (path : Bytes) (a : Address) : Prop where
  path_eq : path = a.path
  parsePath_eq : Store.parsePath path = some a.components
  pathExists : on t memory (pathExists t.root path) = true

/-- Listing and addressing agree. -/
structure Agrees (passed : List Bytes) : Prop where
  listed : ∀ level, ∀ path ∈ paths t memory passed level,
    ∃ a ∈ addresses t memory level, Addressed t memory path a
  reported : ∀ a ∈ reported t memory, Addressed t memory a.path a
  once : ∀ a : Address, a.Canonical → on t memory (pathExists t.root a.path) = true →
    (paths t memory passed a.level).count a.path = 1

end

/-! ## Mismatches -/

/-- A directory shows a directory, whose name does not begin with a dot. -/
def Visible (t : Tree) (dir : List Bytes) (name : Bytes) : Prop :=
  t.Shows dir name .directory ∧ name.head? ≠ some 46

/-- What a store lists of a tree. -/
def Lists (t : Tree) : Address → Prop
  | .bucket b => Visible t [] b
  | .streamSet b s => Visible t [] b ∧ Visible t [b] s
  | .stream b s n => Visible t [] b ∧ Visible t [b] s ∧
      t.Shows [b, s] (n ++ extension) .regular ∧ n ≠ []

/-- What `stat` finds at an address. -/
def found (t : Tree) (a : Address) : Option Inode :=
  if t.statFails (t.place a.files) then none else (t.walk t.top a.files).map Target.inode

/-- What there can be between listing and addressing. -/
inductive Mismatch (t : Tree) (memory : Bytes → FileStat) (passed : List Bytes) : Prop where
  /-- `BucketPaths` keeps what is in the vector. -/
  | kept (path : Bytes) (hpath : path ∈ passed)
  /-- A name is listed that no path has. -/
  | name (a : Address) (hlists : Lists t a) (hname : ¬ a.Named)
  /-- `stat` fails for something listed, and the memory has another type. -/
  | refused (a : Address) (hlists : Lists t a) (hstat : t.statFails (t.place a.files) = true)
      (hmemory : (memory (t.place a.files)).type ≠ a.wanted.type)
  /-- `stat` finds nothing, and the memory has the type from before. -/
  | left (a : Address) (hname : a.Named) (hlists : ¬ Lists t a) (hfound : found t a = none)
      (hmemory : (memory (t.place a.files)).type = a.wanted.type)
  /-- A directory does not open on the way to something that is found. -/
  | closed (a : Address) (hname : a.Named) (inode : Inode) (hfound : found t a = some inode)
      (hmatches : a.wanted.Matches inode.kind) (step : Step) (hstep : step ∈ a.steps)
      (hopendir : t.opendirFails (t.place step.dir) = true)
  /-- On the way there is an entry of another type: a link, one without a known type, or what
  `stat` takes for a directory. -/
  | untold (a : Address) (hname : a.Named) (inode : Inode) (hfound : found t a = some inode)
      (hmatches : a.wanted.Matches inode.kind) (step : Step) (hstep : step ∈ a.steps)
      (d : Target) (hdir : t.walk t.top step.dir = some d) (e : TreeEntry)
      (he : e ∈ t.children d) (hentry : e.name = step.name)
      (htype : e.type ≠ .kind step.wanted.kind)

/-! ## Names and paths -/

/-- The components that `ParsePath` finds. -/
theorem names_of_parsePath {path b s n : Bytes} (h : Store.parsePath path = some (b, s, n)) :
    (b ≠ [] → ValidName b) ∧ (s ≠ [] → ValidName s) ∧ (n ≠ [] → Store.PathComponent n) := by
  have hvalid : Store.validatePath path = true := by
    by_contra hnot
    rw [Store.parsePath, if_neg hnot] at h
    cases h
  obtain rfl | ⟨q, rfl⟩ | ⟨b', s', rfl⟩ := (Store.validatePath_iff path).mp hvalid
  · cases h
    exact ⟨fun h => absurd rfl h, fun h => absurd rfl h, fun h => absurd rfl h⟩
  · rw [Store.parsePath_text] at h
    cases q with
    | bucket b' trailing =>
      cases h
      exact ⟨fun _ => b'.2, fun h => absurd rfl h, fun h => absurd rfl h⟩
    | streamSet b' s' trailing =>
      cases h
      exact ⟨fun _ => b'.2, fun _ => s'.2, fun h => absurd rfl h⟩
    | stream b' s' n' suffix =>
      cases h
      exact ⟨fun _ => b'.2, fun _ => s'.2, fun _ => .inl n'.2⟩
  · rw [Store.parsePath_extension] at h
    cases h
    exact ⟨fun _ => b'.2, fun _ => s'.2, fun _ => .inr rfl⟩

namespace Address

/-- The path of an address with valid names is parsed into its components. -/
theorem parsePath_path {a : Address} (h : a.Named) :
    Store.parsePath a.path = some a.components := by
  cases a with
  | bucket b =>
    have hparse := Store.parsePath_text (.bucket ⟨b, h⟩ false)
    simpa [Store.StorePath.text, Store.StorePath.components, path, components] using hparse
  | streamSet b s =>
    have hparse := Store.parsePath_text (.streamSet ⟨b, h.1⟩ ⟨s, h.2⟩ false)
    simpa [Store.StorePath.text, Store.StorePath.components, path, components] using hparse
  | stream b s n =>
    obtain ⟨hb, hs, hn | rfl⟩ := h
    · exact Store.parsePath_streamPath hb hs hn
    · exact Store.parsePath_extension ⟨b, hb⟩ ⟨s, hs⟩

/-- **Canonical paths** are those made of names. -/
theorem canonical_iff {a : Address} : a.Canonical ↔ a.Named := by
  constructor
  · rintro ⟨hparse, hne⟩
    cases a with
    | bucket b => exact (names_of_parsePath hparse).1 hne
    | streamSet b s =>
      obtain ⟨hb, hs, -⟩ := names_of_parsePath hparse
      exact ⟨hb hne.1, hs hne.2⟩
    | stream b s n =>
      obtain ⟨hb, hs, hn⟩ := names_of_parsePath hparse
      exact ⟨hb hne.1, hs hne.2.1, hn hne.2.2⟩
  · intro h
    refine ⟨parsePath_path h, ?_⟩
    cases a with
    | bucket b => exact h.ne_nil
    | streamSet b s => exact ⟨h.1.ne_nil, h.2.ne_nil⟩
    | stream b s n => exact ⟨h.1.ne_nil, h.2.1.ne_nil, h.2.2.ne_nil⟩

theorem components_injective {a a' : Address} (hlevel : a.level = a'.level)
    (h : a.components = a'.components) : a = a' := by
  cases a <;> cases a' <;> simp_all [level, components]

/-- Valid names are names that a directory can have. -/
theorem Named.entryName {a : Address} (h : a.Named) : ∀ name ∈ a.files, Tree.EntryName name := by
  have hvalid : ∀ {name : Bytes}, ValidName name → Tree.EntryName name := fun hname =>
    ⟨hname.ne_nil, fun hmem => Store.ne_slash_of_isNameChar (hname.chars _ hmem) rfl,
      fun hmem => absurd (hname.chars _ hmem) (by decide)⟩
  have hstream : ∀ {name : Bytes}, Store.PathComponent name →
      Tree.EntryName (name ++ extension) := by
    intro name hname
    refine ⟨by simp [hname.ne_nil], fun hmem => ?_, fun hmem => ?_⟩
    · exact (List.mem_append.mp hmem).elim hname.slash_not_mem (by decide)
    · refine (List.mem_append.mp hmem).elim (fun hmem => ?_) (by decide)
      rcases hname with hname | rfl
      · exact (hvalid hname).zero_notMem hmem
      · exact absurd hmem (by decide)
  cases a with
  | bucket b => simpa [files] using hvalid h
  | streamSet b s => simpa [files] using ⟨hvalid h.1, hvalid h.2⟩
  | stream b s n => simpa [files] using ⟨hvalid h.1, hvalid h.2.1, hstream h.2.2⟩

end Address

/-! ## What is found -/

section

variable {t : Tree} {memory : Bytes → FileStat}

/-- What `PathExists` asks for is what the address says, at its place. -/
theorem pathEntity_path {a : Address} (h : a.Named) :
    pathEntity t.root a.path = some (a.wanted, t.place a.files) := by
  rw [pathEntity, Address.parsePath_path h]
  cases a with
  | bucket b =>
    simp [Address.components, h.ne_nil, bucketEntity, Address.wanted, Address.files, Tree.place,
      pathToFilesystemPath, Store.bucketPath]
  | streamSet b s =>
    simp [Address.components, h.2.ne_nil, streamSetEntity, Address.wanted, Address.files,
      Tree.place, pathToFilesystemPath, Store.streamsetPath, Store.bucketPath]
  | stream b s n =>
    simp [Address.components, h.2.2.ne_nil, streamEntity, Address.wanted, Address.files, Tree.place,
      pathToFilesystemPath, Store.streamPath, Store.streamsetPath, Store.bucketPath]

/-- **`PathExists`** of a path that is made of names: what is found is of a type that looks like
the one that is asked for, or the memory is where nothing is found. -/
theorem pathExists_iff {a : Address} (h : a.Named) :
    on t memory (pathExists t.root a.path) = true ↔
      match found t a with
      | none => (memory (t.place a.files)).type = a.wanted.type
      | some inode => a.wanted.Matches inode.kind := by
  have hlook : pathExists t.root a.path = lookFor (a.wanted, t.place a.files) := by
    have hprogram := Check.program_eq (.pathExists t.root a.path)
    rw [show (Check.pathExists t.root a.path).entity = _ from pathEntity_path h] at hprogram
    exact hprogram
  have heval : on t memory (lookFor (a.wanted, t.place a.files)) =
      decide ((t.files.stat (t.place a.files) (memory (t.place a.files))).2.type =
        a.wanted.type) := rfl
  rw [hlook, heval, decide_eq_true_iff, Files.type_stat_eq_iff, Tree.find_place h.entryName]
  exact Iff.rfl

theorem pathExists_of_found {a : Address} (h : a.Named) {inode : Inode}
    (hfound : found t a = some inode) (hmatches : a.wanted.Matches inode.kind) :
    on t memory (pathExists t.root a.path) = true := by
  rw [pathExists_iff h, hfound]
  exact hmatches

/-! ## What is listed -/

theorem place_bucket (b : Bytes) :
    pathToFilesystemPath t.root (Store.bucketPath b) = t.place [b] := by
  simp [pathToFilesystemPath, Store.bucketPath, Tree.place]

theorem place_streamSet (b s : Bytes) :
    pathToFilesystemPath t.root (Store.streamsetPath b s) = t.place [b, s] := by
  simp [pathToFilesystemPath, Store.streamsetPath, Store.bucketPath, Tree.place]

theorem Visible.entryName {dir : List Bytes} {name : Bytes} (h : Visible t dir name) :
    Tree.EntryName name :=
  h.1.entryName

/-- A directory lists what it shows as directories, but for hidden names. -/
theorem mem_directories {dir : List Bytes} (h : ∀ name ∈ dir, Tree.EntryName name) {name : Bytes} :
    name ∈ on t memory (directoriesInDirectory (t.place dir)) ↔ Visible t dir name := by
  have hread : (∃ entry ∈ (t.readdir (t.place dir)).getD [],
      entry.type = .directory ∧ entry.name = name) ↔ t.Shows dir name .directory :=
    @Tree.mem_readdir_iff t dir h name .directory
  rw [Visible, ← hread]
  show name ∈ (((t.readdir (t.place dir)).getD []).filter _).map DirectoryEntry.name ↔ _
  simp only [List.mem_map, List.mem_filter, decide_eq_true_eq]
  constructor
  · rintro ⟨entry, ⟨hmem, htype, hdot⟩, rfl⟩
    exact ⟨⟨entry, hmem, htype, rfl⟩, hdot⟩
  · rintro ⟨⟨entry, hmem, htype, rfl⟩, hdot⟩
    exact ⟨entry, ⟨hmem, htype, hdot⟩, rfl⟩

/-- And what it shows as regular files. -/
theorem mem_files {dir : List Bytes} (h : ∀ name ∈ dir, Tree.EntryName name) {name : Bytes} :
    name ∈ on t memory (filesInDirectory (t.place dir)) ↔ t.Shows dir name .regular := by
  have hread : (∃ entry ∈ (t.readdir (t.place dir)).getD [],
      entry.type = .regular ∧ entry.name = name) ↔ t.Shows dir name .regular :=
    @Tree.mem_readdir_iff t dir h name .regular
  rw [← hread]
  show name ∈ (((t.readdir (t.place dir)).getD []).filter _).map DirectoryEntry.name ↔ _
  simp only [List.mem_map, List.mem_filter, decide_eq_true_eq]
  constructor
  · rintro ⟨entry, ⟨hmem, htype⟩, rfl⟩
    exact ⟨entry, hmem, htype, rfl⟩
  · rintro ⟨entry, hmem, htype, rfl⟩
    exact ⟨entry, ⟨hmem, htype⟩, rfl⟩

/-- A stream is listed of a file with the extension and something in front of it. -/
theorem streamName?_eq_some_iff {file name : Bytes} :
    streamName? file = some name ↔ file = name ++ extension ∧ name ≠ [] := by
  have hlen : extension.length = 9 := rfl
  rw [streamName?]
  constructor
  · intro h
    split_ifs at h with hshort
    obtain ⟨hlength, hext⟩ := not_or.mp hshort
    cases h
    refine ⟨?_, ?_⟩
    · rw [← not_not.mp hext, List.take_append_drop]
    · refine List.ne_nil_of_length_pos ?_
      rw [List.length_take]
      omega
  · rintro ⟨rfl, hne⟩
    have hpos := List.length_pos_iff.mpr hne
    have hsub : (name ++ extension).length - 9 = name.length := by
      rw [List.length_append, hlen, Nat.add_sub_cancel]
    have hlong : ¬ (name ++ extension).length < 10 := by
      rw [List.length_append, hlen]
      omega
    rw [hsub, List.drop_left, List.take_left, if_neg (not_or.mpr ⟨hlong, not_not.mpr rfl⟩)]

theorem mem_bucketNames {b : Bytes} :
    b ∈ on t memory (bucketNames t.root) ↔ Visible t [] b :=
  mem_directories fun _ h => absurd h List.not_mem_nil

theorem mem_streamSetNames {b s : Bytes} (hb : Tree.EntryName b) :
    s ∈ on t memory (streamSetNames t.root b) ↔ Visible t [b] s := by
  rw [streamSetNames, place_bucket]
  exact mem_directories (by simpa using hb)

/-- Streams are listed without their extension, and a file that has nothing in front of it is none.
-/
theorem mem_streamNames {b s n : Bytes} (hb : Tree.EntryName b) (hs : Tree.EntryName s) :
    n ∈ on t memory (streamNames t.root b s) ↔
      t.Shows [b, s] (n ++ extension) .regular ∧ n ≠ [] := by
  have hnames : on t memory (streamNames t.root b s) =
      (on t memory (filesInDirectory (t.place [b, s]))).filterMap streamName? := by
    rw [← place_streamSet]
    exact Program.eval_bind _ _ _
  have hdir : ∀ name ∈ [b, s], Tree.EntryName name := by simp [hb, hs]
  simp only [hnames, List.mem_filterMap, streamName?_eq_some_iff, mem_files hdir]
  constructor
  · rintro ⟨file, hfile, rfl, hne⟩
    exact ⟨hfile, hne⟩
  · rintro ⟨hfile, hne⟩
    exact ⟨_, hfile, rfl, hne⟩

/-- **The listing** of each level is what the tree shows. -/
theorem mem_addresses_iff {a : Address} : a ∈ addresses t memory a.level ↔ Lists t a := by
  cases a with
  | bucket b =>
    simp [addresses, Address.level, Lists, mem_bucketNames]
  | streamSet b s =>
    simp only [addresses, Address.level, Lists, List.mem_flatMap, List.mem_map,
      Address.streamSet.injEq, mem_bucketNames]
    constructor
    · rintro ⟨b, hb, s, hs, rfl, rfl⟩
      exact ⟨hb, (mem_streamSetNames hb.entryName).mp hs⟩
    · rintro ⟨hb, hs⟩
      exact ⟨b, hb, s, (mem_streamSetNames hb.entryName).mpr hs, rfl, rfl⟩
  | stream b s n =>
    simp only [addresses, Address.level, Lists, List.mem_flatMap, List.mem_map,
      Address.stream.injEq, mem_bucketNames]
    constructor
    · rintro ⟨b, hb, s, hs, n, hn, rfl, rfl, rfl⟩
      have hset := (mem_streamSetNames hb.entryName).mp hs
      exact ⟨hb, hset, (mem_streamNames hb.entryName hset.entryName).mp hn⟩
    · rintro ⟨hb, hs, hn⟩
      exact ⟨b, hb, s, (mem_streamSetNames hb.entryName).mpr hs, n,
        (mem_streamNames hb.entryName hs.entryName).mpr hn, rfl, rfl, rfl⟩

/-- `StoreInfo` reports what is listed. -/
theorem mem_reported_iff {a : Address} :
    a ∈ reported t memory ↔ a ∈ addresses t memory a.level := by
  have hinfo : reported t memory = (on t memory (bucketNames t.root)).flatMap fun b =>
      .bucket b :: (on t memory (streamSetNames t.root b)).flatMap fun s =>
        .streamSet b s :: (on t memory (streamNames t.root b s)).map (.stream b s) := by
    simp only [reported, on, storeInfo, bucketInfo, streamsetInfo, streamInfo, Program.eval_bind,
      Program.eval_each, Program.pure_eq, Program.eval_done, List.flatMap_map, List.map_map]
    rfl
  rw [hinfo]
  cases a with
  | bucket b => simp [addresses, Address.level]
  | streamSet b s => simp [addresses, Address.level]
  | stream b s n => simp [addresses, Address.level]

/-- The paths that were in the vector before. -/
def keptPaths (passed : List Bytes) : Level → List Bytes
  | .bucket => passed
  | _ => []

/-- The paths that are listed are those of the addresses that are listed, behind what the caller
passed. -/
theorem paths_eq (passed : List Bytes) (level : Level) :
    paths t memory passed level =
      keptPaths passed level ++ (addresses t memory level).map Address.path := by
  cases level with
  | bucket =>
    simp only [paths, on, bucketPaths, Program.eval_bind, Program.pure_eq, Program.eval_done,
      keptPaths, addresses, List.map_map]
    rfl
  | streamSet =>
    simp only [paths, on, streamsetPaths, Program.eval_bind, Program.eval_each, Program.pure_eq,
      Program.eval_done, keptPaths, addresses, List.map_flatMap, List.map_map, List.nil_append,
      ← List.flatMap_def]
    rfl
  | stream =>
    simp only [paths, on, streamPaths, Program.eval_bind, Program.eval_each, Program.pure_eq,
      Program.eval_done, keptPaths, addresses, List.map_flatMap, List.map_map, List.nil_append,
      ← List.flatMap_def]
    rfl

/-! ## Once -/

theorem directories_nodup (dir : Bytes) : (on t memory (directoriesInDirectory dir)).Nodup :=
  (Tree.readdir_nodup dir).sublist (List.filter_sublist.map _)

theorem streamNames_nodup (b s : Bytes) : (on t memory (streamNames t.root b s)).Nodup := by
  have hfiles : (on t memory (filesInDirectory
      (pathToFilesystemPath t.root (Store.streamsetPath b s)))).Nodup :=
    (Tree.readdir_nodup _).sublist (List.filter_sublist.map _)
  refine hfiles.filterMap fun file file' name h h' => ?_
  rw [(streamName?_eq_some_iff.mp h).1, (streamName?_eq_some_iff.mp h').1]

/-- Nothing is listed twice. -/
theorem addresses_nodup (level : Level) : (addresses t memory level).Nodup := by
  have hbuckets : (on t memory (bucketNames t.root)).Nodup := directories_nodup t.root
  have hsets : ∀ b, (on t memory (streamSetNames t.root b)).Nodup := fun b => directories_nodup _
  cases level with
  | bucket => exact hbuckets.map fun _ _ h => Address.bucket.inj h
  | streamSet =>
    refine List.nodup_flatMap.mpr ⟨fun b _ => ?_, hbuckets.imp fun {b b'} hne => ?_⟩
    · exact (hsets b).map fun _ _ h => (Address.streamSet.inj h).2
    · simp [Function.onFun, List.disjoint_left, hne.symm]
  | stream =>
    refine List.nodup_flatMap.mpr ⟨fun b _ => List.nodup_flatMap.mpr ⟨fun s _ => ?_, ?_⟩,
      hbuckets.imp fun {b b'} hne => ?_⟩
    · exact (streamNames_nodup b s).map fun _ _ h => (Address.stream.inj h).2.2
    · refine (hsets b).imp fun {s s'} hne => ?_
      simp [Function.onFun, List.disjoint_left, hne.symm]
    · rw [Function.onFun, List.disjoint_left]
      intro a ha ha'
      obtain ⟨s, -, ha⟩ := List.mem_flatMap.mp ha
      obtain ⟨n, -, rfl⟩ := List.mem_map.mp ha
      obtain ⟨s', -, ha'⟩ := List.mem_flatMap.mp ha'
      obtain ⟨n', -, heq⟩ := List.mem_map.mp ha'
      exact hne (Address.stream.inj heq).1.symm

/-- The three listings do not overlap. -/
theorem level_of_mem_addresses {level : Level} {a : Address} (h : a ∈ addresses t memory level) :
    a.level = level := by
  cases level with
  | bucket =>
    obtain ⟨b, -, rfl⟩ := List.mem_map.mp h
    rfl
  | streamSet =>
    obtain ⟨b, -, h⟩ := List.mem_flatMap.mp h
    obtain ⟨s, -, rfl⟩ := List.mem_map.mp h
    rfl
  | stream =>
    obtain ⟨b, -, h⟩ := List.mem_flatMap.mp h
    obtain ⟨s, -, h⟩ := List.mem_flatMap.mp h
    obtain ⟨n, -, rfl⟩ := List.mem_map.mp h
    rfl

/-! ## Between the two -/

/-- What is listed has a name. -/
theorem Lists.canonical {a : Address} (h : Lists t a)
    (hparse : Store.parsePath a.path = some a.components) : a.Canonical := by
  refine ⟨hparse, ?_⟩
  cases a with
  | bucket b => exact h.entryName.ne_nil
  | streamSet b s => exact ⟨h.1.entryName.ne_nil, h.2.entryName.ne_nil⟩
  | stream b s n => exact ⟨h.1.entryName.ne_nil, h.2.1.entryName.ne_nil, h.2.2.2⟩

/-- What is listed is there, in its kind. -/
theorem Lists.walk {a : Address} (h : Lists t a) :
    ∃ d, t.walk t.top a.files = some d ∧ d.inode.kind = a.wanted.kind := by
  cases a with
  | bucket b => exact h.1.walk
  | streamSet b s => exact h.2.1.walk
  | stream b s n => exact h.2.2.1.walk

/-- Made of names, it is listed where each entry on the way is shown. -/
theorem lists_iff_shows {a : Address} (h : a.Named) :
    Lists t a ↔ ∀ step ∈ a.steps, t.Shows step.dir step.name step.wanted.kind := by
  have hdot : ∀ {name : Bytes}, ValidName name → name.head? ≠ some 46 := fun hname hhead =>
    absurd (hname.chars 46 (List.mem_of_head? hhead)) (by decide)
  cases a with
  | bucket b => simp [Lists, Visible, Address.steps, Wanted.kind, hdot h]
  | streamSet b s => simp [Lists, Visible, Address.steps, Wanted.kind, hdot h.1, hdot h.2]
  | stream b s n =>
    simp [Lists, Visible, Address.steps, Wanted.kind, hdot h.1, hdot h.2.1, h.2.2.ne_nil]

/-- What is found has an entry at each step. -/
theorem exists_entry_of_found {a : Address} {inode : Inode} (h : found t a = some inode)
    {step : Step} (hstep : step ∈ a.steps) :
    ∃ d, t.walk t.top step.dir = some d ∧ ∃ e ∈ t.children d, e.name = step.name := by
  obtain ⟨rest, hrest⟩ : ∃ rest, a.files = step.dir ++ [step.name] ++ rest := by
    cases a <;> simp only [Address.steps, List.mem_cons, List.not_mem_nil, or_false] at hstep
    · rw [hstep]; exact ⟨[], rfl⟩
    · rcases hstep with rfl | rfl <;> exact ⟨_, rfl⟩
    · rcases hstep with rfl | rfl | rfl <;> exact ⟨_, rfl⟩
  rw [found] at h
  split_ifs at h
  obtain ⟨d, hwalk, -⟩ := Option.map_eq_some_iff.mp h
  rw [hrest] at hwalk
  obtain ⟨d', hd'⟩ := Tree.walk_isSome_of_append hwalk
  obtain ⟨parent, hparent, e, he, hname, -⟩ := Tree.exists_entry_of_walk hd'
  exact ⟨parent, hparent, e, he, hname⟩

/-- Where both agree, what exists is listed. -/
theorem Agrees.lists {passed : List Bytes} (h : Agrees t memory passed) {a : Address}
    (hname : a.Named) (hexists : on t memory (pathExists t.root a.path) = true) : Lists t a := by
  have honce := h.once a (Address.canonical_iff.mpr hname) hexists
  have hmem : a.path ∈ paths t memory passed a.level :=
    List.count_pos_iff.mp (by rw [honce]; exact Nat.one_pos)
  obtain ⟨a', ha', hpath, hparse, -⟩ := h.listed a.level a.path hmem
  rw [Address.parsePath_path hname, Option.some.injEq] at hparse
  rw [← Address.components_injective (level_of_mem_addresses ha').symm hparse] at ha'
  exact mem_addresses_iff.mp ha'

/-- **A mismatch** is seen. -/
theorem Mismatch.not_agrees {passed : List Bytes} (h : Mismatch t memory passed) :
    ¬ Agrees t memory passed := by
  intro hagrees
  have haddressed : ∀ a, Lists t a → Addressed t memory a.path a := fun a hlists =>
    hagrees.reported a (mem_reported_iff.mpr (mem_addresses_iff.mpr hlists))
  have hnamed : ∀ a, Lists t a → a.Named := fun a hlists =>
    Address.canonical_iff.mp (hlists.canonical (haddressed a hlists).parsePath_eq)
  cases h with
  | kept path hpath =>
    -- it is the path of a bucket, which is added once more
    have hmem : path ∈ paths t memory passed .bucket := by
      rw [paths_eq]
      exact List.mem_append_left _ hpath
    obtain ⟨a, ha, rfl, -, hexists⟩ := hagrees.listed .bucket path hmem
    have hlevel := level_of_mem_addresses ha
    have hlists : Lists t a := mem_addresses_iff.mp (hlevel ▸ ha)
    have honce := hagrees.once a (Address.canonical_iff.mpr (hnamed a hlists)) hexists
    rw [hlevel, paths_eq, List.count_append] at honce
    have hpassed : 0 < (keptPaths passed .bucket).count a.path := List.count_pos_iff.mpr hpath
    have hadded : 0 < ((addresses t memory .bucket).map Address.path).count a.path :=
      List.count_pos_iff.mpr (List.mem_map_of_mem ha)
    omega
  | name a hlists hname => exact hname (hnamed a hlists)
  | refused a hlists hstat hmemory =>
    have hexists := (pathExists_iff (hnamed a hlists)).mp (haddressed a hlists).pathExists
    rw [found, if_pos hstat] at hexists
    exact hmemory hexists
  | left a hname hlists hfound hmemory =>
    refine hlists (hagrees.lists hname ((pathExists_iff hname).mpr ?_))
    rw [hfound]
    exact hmemory
  | closed a hname inode hfound hmatches step hstep hopendir =>
    have hlists := hagrees.lists hname (pathExists_of_found hname hfound hmatches)
    have hshows := (lists_iff_shows hname).mp hlists step hstep
    rw [hshows.1] at hopendir
    cases hopendir
  | untold a hname inode hfound hmatches step hstep d hdir e he hentry htype =>
    have hlists := hagrees.lists hname (pathExists_of_found hname hfound hmatches)
    obtain ⟨-, d', hdir', e', he', hentry', htype'⟩ := (lists_iff_shows hname).mp hlists step hstep
    rw [hdir] at hdir'
    cases hdir'
    rw [Tree.entry_eq he he' (hentry.trans hentry'.symm)] at htype
    exact htype htype'

/-- Without a mismatch, what is listed is made of names and exists. -/
theorem Lists.addressed {passed : List Bytes} (h : ¬ Mismatch t memory passed) {a : Address}
    (hlists : Lists t a) : a.Named ∧ Addressed t memory a.path a := by
  have hname : a.Named := by
    by_contra hname
    exact h (.name a hlists hname)
  refine ⟨hname, rfl, Address.parsePath_path hname, (pathExists_iff hname).mpr ?_⟩
  cases hstat : t.statFails (t.place a.files) with
  | true =>
    rw [found, if_pos hstat]
    by_contra hmemory
    exact h (.refused a hlists hstat hmemory)
  | false =>
    obtain ⟨d, hwalk, hkind⟩ := hlists.walk
    rw [found, hstat, hwalk, if_neg Bool.false_ne_true]
    show a.wanted.Matches d.inode.kind
    rw [hkind]
    exact matches_kind a.wanted

/-- Without a mismatch, what exists is listed. -/
theorem lists_of_exists {passed : List Bytes} (h : ¬ Mismatch t memory passed) {a : Address}
    (hname : a.Named) (hexists : on t memory (pathExists t.root a.path) = true) : Lists t a := by
  rw [pathExists_iff hname] at hexists
  cases hfound : found t a with
  | none =>
    rw [hfound] at hexists
    by_contra hlists
    exact h (.left a hname hlists hfound hexists)
  | some inode =>
    rw [hfound] at hexists
    rw [lists_iff_shows hname]
    intro step hstep
    obtain ⟨d, hdir, e, he, hentry⟩ := exists_entry_of_found hfound hstep
    refine ⟨?_, d, hdir, e, he, hentry, ?_⟩
    · by_contra hopendir
      rw [Bool.not_eq_false] at hopendir
      exact h (.closed a hname inode hfound hexists step hstep hopendir)
    · by_contra htype
      exact h (.untold a hname inode hfound hexists step hstep d hdir e he hentry htype)

/-- **Listing and addressing agree** where there is no mismatch, and only there: for every tree,
with links and with entries that `stat` fails for, and for the vectors that the caller passes. -/
theorem listing_agrees_iff (t : Tree) (memory : Bytes → FileStat) (passed : List Bytes) :
    Agrees t memory passed ↔ ¬ Mismatch t memory passed := by
  refine ⟨fun hagrees h => h.not_agrees hagrees, fun h => ?_⟩
  have hpaths : ∀ level, paths t memory passed level =
      (addresses t memory level).map Address.path := by
    intro level
    have hkept : keptPaths passed level = [] := by
      cases level with
      | bucket => exact List.eq_nil_iff_forall_not_mem.mpr fun path hpath => h (.kept path hpath)
      | streamSet => rfl
      | stream => rfl
    rw [paths_eq, hkept, List.nil_append]
  have haddressed : ∀ {level a}, a ∈ addresses t memory level →
      a.Named ∧ Addressed t memory a.path a := fun ha =>
    (mem_addresses_iff.mp ((level_of_mem_addresses ha).symm ▸ ha)).addressed h
  constructor
  · intro level path hpath
    rw [hpaths] at hpath
    obtain ⟨a, ha, rfl⟩ := List.mem_map.mp hpath
    exact ⟨a, ha, (haddressed ha).2⟩
  · exact fun a ha => (haddressed (mem_reported_iff.mp ha)).2
  · intro a hcanonical hexists
    have hlists := lists_of_exists h (Address.canonical_iff.mp hcanonical) hexists
    rw [hpaths]
    refine List.count_eq_one_of_mem ?_ (List.mem_map_of_mem (mem_addresses_iff.mpr hlists))
    refine (addresses_nodup a.level).map_on fun a₁ h₁ a₂ h₂ heq => ?_
    have hcomponents := Address.parsePath_path (haddressed h₁).1
    rw [heq, Address.parsePath_path (haddressed h₂).1, Option.some.injEq] at hcomponents
    exact Address.components_injective
      ((level_of_mem_addresses h₁).trans (level_of_mem_addresses h₂).symm) hcomponents.symm

end

/-- A directory `a.b`. -/
def dottedEntry : TreeEntry where
  name := str "a.b"
  ne_nil := by decide +kernel
  slash_notMem := by decide +kernel
  zero_notMem := by decide +kernel
  type := .kind .directory
  target := some ⟨⟨.directory, 0, 0⟩, 1⟩
  target_of_kind _ h := ⟨_, rfl, EntryType.kind.inj h⟩

/-- A store with it. -/
def dotted : Tree where
  root := str "/store"
  zero_notMem := by decide +kernel
  top := ⟨⟨.directory, 0, 0⟩, 0⟩
  entries number := if number = 0 then [dottedEntry] else []
  names_nodup number := by
    split
    · exact List.nodup_singleton _
    · exact List.nodup_nil
  opendirFails _ := false
  statFails _ := false

/-- It is listed as `/a.b`, which does not parse. -/
theorem not_agrees_dotted : ¬ Agrees dotted (fun _ => ⟨.unknown, 0⟩) [] := by
  intro h
  have hmem : str "/a.b" ∈ paths dotted (fun _ => ⟨.unknown, 0⟩) [] .bucket := by decide +kernel
  obtain ⟨a, -, -, hparse, -⟩ := h.listed .bucket _ hmem
  have hnone : Store.parsePath (str "/a.b") = none := by decide +kernel
  rw [hnone] at hparse
  cases hparse

end StoreAccess

end Zippylog
