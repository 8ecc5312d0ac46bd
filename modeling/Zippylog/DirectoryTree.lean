import Zippylog.Confinement
import Zippylog.FileStatus
import Zippylog.Wire.Words

/-!
# Directory trees

What `opendir` and `stat` find below the directory of a store, where one tree answers both. The two
calls differ in what they look at: a listing shows an entry with a type of its own, `stat` goes
through links to what the path leads to, and either can fail where the other does not.

- `Tree`: directories with entries, which have a type of their own and lead somewhere behind
  symbolic links;
- `answers`: what the calls of a store get of it;
- `mem_readdir_iff`, `find_place`: a directory shows an entry by its type, and a path
  is found along the names on it.
-/

namespace Zippylog

open Wire StoreWriter

namespace Platform

/-! ## Trees -/

/-- `d_type`: a file system need not tell a type, and that of a link is its own. -/
inductive EntryType where
  | unknown
  | link
  | kind (kind : FileKind)
  deriving DecidableEq

/-- The switch of `DirectoryEntries`. -/
def EntryType.fileType : EntryType → FileType
  | .kind .directory => .directory
  | .kind .regular => .regular
  | _ => .unknown

/-- What a name leads to behind symbolic links. Directories are told apart by the number. -/
structure Target where
  inode : Inode
  number : Nat

/-- An entry of a directory; only a link, or what has no known type, can lead to nothing. -/
structure TreeEntry where
  name : Bytes
  ne_nil : name ≠ []
  slash_notMem : slash ∉ name
  zero_notMem : 0 ∉ name
  type : EntryType
  target : Option Target
  target_of_kind : ∀ kind, type = .kind kind → ∃ d, target = some d ∧ d.inode.kind = kind

/-- What `DirectoryEntries` makes of it. -/
def TreeEntry.read (e : TreeEntry) : DirectoryEntry where
  name := e.name
  type := e.type.fileType
  ne_nil := e.ne_nil
  slash_notMem := e.slash_notMem
  zero_notMem := e.zero_notMem

/-- The directory of a store and what is below it. `opendir` and `stat` can fail also where
there is something: a directory may not be read or searched. -/
structure Tree where
  root : Bytes
  zero_notMem : 0 ∉ root
  top : Target
  entries : Nat → List TreeEntry
  names_nodup : ∀ number, ((entries number).map TreeEntry.name).Nodup
  opendirFails : Bytes → Bool
  statFails : Bytes → Bool

namespace Tree

variable (t : Tree)

/-- The entries of a directory. -/
def children (d : Target) : List TreeEntry :=
  if d.inode.kind = .directory then t.entries d.number else []

def lookup (d : Target) (name : Bytes) : Option TreeEntry :=
  (t.children d).find? (·.name = name)

/-- What names lead to, one after the other. -/
def walk : Target → List Bytes → Option Target
  | d, [] => some d
  | d, name :: names => (t.lookup d name).bind fun e => e.target.bind fun d => walk d names

/-- What a path leads to; of others than those below the directory nothing is asked. -/
def leadsTo (path : Bytes) : Option Target :=
  if t.root.isPrefixOf path && path.all (· != 0) then
    match path.drop t.root.length with
    | [] => some t.top
    | c :: rest => if c = slash then t.walk t.top (resolve rest) else none
  else none

theorem leadsTo_of_zero_mem {path : Bytes} (h : 0 ∈ path) : t.leadsTo path = none := by
  have hall : path.all (· != 0) = false := List.all_eq_false.mpr ⟨0, h, by decide⟩
  rw [leadsTo, hall, Bool.and_false, if_neg Bool.false_ne_true]

/-- The files for `stat`. -/
def files : Files where
  leadsTo path := (t.leadsTo path).map Target.inode
  leadsTo_of_zero_mem path h := by rw [t.leadsTo_of_zero_mem h, Option.map_none]
  statFails := t.statFails

/-- `opendir`, and `readdir` to the end. -/
def readdir (path : Bytes) : Option (List DirectoryEntry) :=
  if t.opendirFails (cString path) then none
  else match t.leadsTo (cString path) with
    | none => none
    | some d =>
      if d.inode.kind = .directory then some ((t.entries d.number).map TreeEntry.read) else none

/-- The answers to a store that lists or looks for something; the memory is what a `FileStat`
has before the `stat` of a path. -/
def answers (memory : Bytes → FileStat) : (call : FileCall) → FileAnswer call
  | .stat path => t.files.stat path (memory path)
  | .readdir path => t.readdir path
  | .mkdir _ => false
  | .openRead _ => none
  | .openAppend _ => false
  | .gettimeofday => 0

/-! ## Walks -/

variable {t}

theorem walk_append (d : Target) (names names' : List Bytes) :
    t.walk d (names ++ names') = (t.walk d names).bind fun d => t.walk d names' := by
  induction names generalizing d with
  | nil => rfl
  | cons name names ih =>
    rw [List.cons_append, walk, walk, Option.bind_assoc]
    refine Option.bind_congr fun e _ => ?_
    rw [Option.bind_assoc]
    exact Option.bind_congr fun d _ => ih d

theorem children_nodup (d : Target) : ((t.children d).map TreeEntry.name).Nodup := by
  rw [children]
  split
  · exact t.names_nodup _
  · exact List.nodup_nil

/-- Entries of a directory are told apart by their names. -/
theorem entry_eq {d : Target} {e e' : TreeEntry} (he : e ∈ t.children d) (he' : e' ∈ t.children d)
    (hname : e.name = e'.name) : e = e' :=
  List.inj_on_of_nodup_map (children_nodup d) he he' hname

/-- Names of a directory are different, so an entry is found by its name. -/
theorem lookup_eq_some_iff {d : Target} {name : Bytes} {e : TreeEntry} :
    t.lookup d name = some e ↔ e ∈ t.children d ∧ e.name = name := by
  constructor
  · intro h
    exact ⟨List.mem_of_find?_eq_some h, by simpa using List.find?_some h⟩
  · rintro ⟨he, rfl⟩
    obtain ⟨e', hfind⟩ : ∃ e', t.lookup d e.name = some e' := by
      rw [← Option.isSome_iff_exists, lookup, List.find?_isSome]
      exact ⟨e, he, decide_eq_true rfl⟩
    have hname : e'.name = e.name := by simpa using List.find?_some hfind
    rw [hfind, entry_eq (List.mem_of_find?_eq_some hfind) he hname]

/-- The last step of a walk goes through an entry. -/
theorem exists_entry_of_walk {d d' : Target} {names : List Bytes} {name : Bytes}
    (h : t.walk d (names ++ [name]) = some d') :
    ∃ parent, t.walk d names = some parent ∧
      ∃ e ∈ t.children parent, e.name = name ∧ e.target = some d' := by
  rw [walk_append] at h
  obtain ⟨parent, hparent, hlast⟩ := Option.bind_eq_some_iff.mp h
  refine ⟨parent, hparent, ?_⟩
  rw [walk] at hlast
  obtain ⟨e, he, hlast⟩ := Option.bind_eq_some_iff.mp hlast
  obtain ⟨d'', htarget, hd⟩ := Option.bind_eq_some_iff.mp hlast
  cases hd
  obtain ⟨hmem, hname⟩ := lookup_eq_some_iff.mp he
  exact ⟨e, hmem, hname, htarget⟩

/-- One step ahead of the end, the walk has come somewhere too. -/
theorem walk_isSome_of_append {d d' : Target} {names names' : List Bytes}
    (h : t.walk d (names ++ names') = some d') : ∃ parent, t.walk d names = some parent := by
  rw [walk_append] at h
  obtain ⟨parent, hparent, -⟩ := Option.bind_eq_some_iff.mp h
  exact ⟨parent, hparent⟩

/-- A step through an entry. -/
theorem walk_of_entry {d parent : Target} {names : List Bytes} {e : TreeEntry}
    (hparent : t.walk d names = some parent) (he : e ∈ t.children parent) :
    t.walk d (names ++ [e.name]) = e.target := by
  rw [walk_append, hparent, Option.bind_some, walk, lookup_eq_some_iff.mpr ⟨he, rfl⟩,
    Option.bind_some]
  cases e.target with
  | none => rfl
  | some d' => rfl

/-! ## Paths -/

/-- A name that an entry can have. -/
structure EntryName (name : Bytes) : Prop where
  ne_nil : name ≠ []
  slash_notMem : slash ∉ name
  zero_notMem : 0 ∉ name

theorem entryName (e : TreeEntry) : EntryName e.name := ⟨e.ne_nil, e.slash_notMem, e.zero_notMem⟩

variable (t) in
/-- The path that a store asks for: the directory itself, or two slashes and names. -/
def place : List Bytes → Bytes
  | [] => t.root
  | name :: names => t.root ++ slash :: spell slash (name :: names)

/-- A path that is spelled from names leads along just these. -/
theorem resolve_spell {names : List Bytes} (h : ∀ name ∈ names, EntryName name) :
    resolve (spell slash names) = names := by
  induction names with
  | nil => rfl
  | cons name names ih =>
    obtain ⟨hname, hnames⟩ := List.forall_mem_cons.mp h
    have hself : resolve name = [name] := by
      rw [resolve, Store.splitSlash_name fun c hc heq => hname.slash_notMem (heq ▸ hc)]
      exact List.filter_cons_of_pos (by simpa using hname.ne_nil)
    cases names with
    | nil => rw [spell_cons, spell_nil, List.append_nil, StoreAccess.resolve_slash, hself]
    | cons name' names =>
      have hih := ih hnames
      rw [spell_cons, StoreAccess.resolve_slash] at hih
      rw [spell_cons, StoreAccess.resolve_slash, spell_cons, resolve_append, hself, hih]
      rfl

theorem zero_notMem_spell {names : List Bytes} (h : ∀ name ∈ names, EntryName name) :
    0 ∉ spell slash names := by
  intro hmem
  obtain ⟨name, hname, hmem⟩ := List.mem_flatMap.mp hmem
  rcases List.mem_cons.mp hmem with h0 | h0
  · exact absurd h0 (by decide)
  · exact (h name hname).zero_notMem h0

/-- Names have no NUL, so a path made of them is not cut as a C string. -/
theorem zero_notMem_place {names : List Bytes} (h : ∀ name ∈ names, EntryName name) :
    0 ∉ t.place names := by
  cases names with
  | nil => exact t.zero_notMem
  | cons name names =>
    intro hmem
    rcases List.mem_append.mp hmem with h0 | h0
    · exact t.zero_notMem h0
    · rcases List.mem_cons.mp h0 with h0 | h0
      · exact absurd h0 (by decide)
      · exact zero_notMem_spell h h0

/-- **A path leads to** what its names lead to. -/
theorem leadsTo_place {names : List Bytes} (h : ∀ name ∈ names, EntryName name) :
    t.leadsTo (t.place names) = t.walk t.top names := by
  have hall : (t.place names).all (· != 0) = true :=
    List.all_eq_true.mpr fun b hb => bne_iff_ne.mpr fun h0 => zero_notMem_place h (h0 ▸ hb)
  rw [leadsTo, hall]
  cases names with
  | nil =>
    rw [place, List.isPrefixOf_iff_prefix.mpr (List.prefix_refl _), Bool.true_and, if_pos rfl,
      List.drop_length]
    rfl
  | cons name names =>
    rw [place, List.isPrefixOf_iff_prefix.mpr (List.prefix_append _ _), Bool.true_and,
      if_pos rfl, List.drop_left]
    dsimp only
    rw [if_pos rfl, resolve_spell h]

theorem cString_place {names : List Bytes} (h : ∀ name ∈ names, EntryName name) :
    StoreWriter.cString (t.place names) = t.place names :=
  cString_eq_self (zero_notMem_place h)

/-! ## What is shown, and what is found -/

variable (t) in
/-- A directory opens and tells that it has an entry of the kind. -/
def Shows (dir : List Bytes) (name : Bytes) (kind : FileKind) : Prop :=
  t.opendirFails (t.place dir) = false ∧
    ∃ d, t.walk t.top dir = some d ∧ ∃ e ∈ t.children d, e.name = name ∧ e.type = .kind kind

theorem fileType_eq_iff (type : EntryType) (wanted : Wanted) :
    type.fileType = wanted.type ↔ type = .kind wanted.kind := by
  cases type with
  | unknown => cases wanted <;> decide
  | link => cases wanted <;> decide
  | kind kind => cases kind <;> cases wanted <;> decide

/-- **What is read of a directory.** -/
theorem mem_readdir_iff {dir : List Bytes} (h : ∀ name ∈ dir, EntryName name) {name : Bytes}
    {wanted : Wanted} :
    (∃ entry ∈ (t.readdir (t.place dir)).getD [], entry.type = wanted.type ∧ entry.name = name) ↔
      t.Shows dir name wanted.kind := by
  rw [readdir, cString_place h, leadsTo_place h, Shows]
  cases t.opendirFails (t.place dir) with
  | true => simp
  | false =>
    cases t.walk t.top dir with
    | none => simp
    | some d =>
      by_cases hdir : d.inode.kind = .directory
      · simp only [Bool.false_eq_true, if_false, hdir, if_true, Option.getD_some, List.mem_map,
          true_and, Option.some.injEq, exists_eq_left', children]
        constructor
        · rintro ⟨_, ⟨e, he, rfl⟩, htype, hname⟩
          exact ⟨e, he, hname, (fileType_eq_iff _ _).mp htype⟩
        · rintro ⟨e, he, hname, htype⟩
          exact ⟨e.read, ⟨e, he, rfl⟩, (fileType_eq_iff _ _).mpr htype, hname⟩
      · simp [hdir, children]

/-- The names that are read of a directory are different. -/
theorem readdir_nodup (path : Bytes) :
    (((t.readdir path).getD []).map DirectoryEntry.name).Nodup := by
  rw [readdir]
  split
  · exact List.nodup_nil
  · split
    · exact List.nodup_nil
    · split
      · rw [Option.getD_some, List.map_map]
        exact t.names_nodup _
      · exact List.nodup_nil

/-- An entry that is shown is there. -/
theorem Shows.entryName {dir : List Bytes} {name : Bytes} {kind : FileKind}
    (h : t.Shows dir name kind) : EntryName name := by
  obtain ⟨-, d, -, e, -, rfl, -⟩ := h
  exact Tree.entryName e

theorem Shows.walk {dir : List Bytes} {name : Bytes} {kind : FileKind}
    (h : t.Shows dir name kind) :
    ∃ d, t.walk t.top (dir ++ [name]) = some d ∧ d.inode.kind = kind := by
  obtain ⟨-, parent, hparent, e, he, rfl, htype⟩ := h
  obtain ⟨d, htarget, hkind⟩ := e.target_of_kind kind htype
  exact ⟨d, (walk_of_entry hparent he).trans htarget, hkind⟩

/-- **What `stat` finds** is where the names lead, unless it fails. -/
theorem find_place {names : List Bytes} (h : ∀ name ∈ names, EntryName name) :
    t.files.find (StoreWriter.cString (t.place names)) =
      if t.statFails (t.place names) then none else (t.walk t.top names).map Target.inode := by
  rw [cString_place h, Files.find]
  show (if t.statFails (t.place names) then none else (t.leadsTo (t.place names)).map _) = _
  rw [leadsTo_place h]

end Tree

end Platform

end Zippylog
