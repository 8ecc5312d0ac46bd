import Mathlib.Logic.Function.Basic
import Mathlib.Logic.Relation
import Zippylog.Numbering
import Zippylog.StoreAccess

/-!
# Directory watching

`DirectoryWatcher` as the Linux build has it, over a directory that other programs work
in.

- Names of files are behind the directory that is watched, which is `[]`.
- `System` is what the system has of it: the files, the watches, and the events that are
  not read yet. The events of a watch are in order and none is lost; when what is watched
  is deleted, its watch goes away and says so.
- What the code does between two calls of the system is one step, so that other programs
  come in between any two of them.
- An entry has a number, which nothing of the code reads: the one it was created with, or
  zero if it was there at first.
-/

namespace Zippylog

open Wire Platform

namespace Watching

/-! ## The system -/

/-- An entry of a directory. -/
structure Entry where
  path : List Bytes
  id : Nat
  deriving DecidableEq

/-- What is at a path. -/
structure Node where
  type : FileType
  id : Nat
  deriving DecidableEq

structure Watch where
  wd : Nat
  entry : Entry
  deriving DecidableEq

/-- `IN_CREATE`, `IN_DELETE`, `IN_MODIFY`, `IN_IGNORED`. -/
inductive Mask where
  | create
  | delete
  | modify
  | ignored
  deriving DecidableEq

/-- `inotify_event`. An event of what is watched itself has no name. -/
structure Event where
  wd : Nat
  mask : Mask
  name : Option Bytes
  entry : Entry
  deriving DecidableEq

structure System where
  tree : List Bytes → Option Node
  created : Nat := 0
  watches : List Watch := []
  nextWd : Nat := 1
  queue : List Event := []

namespace System

variable (sys : System)

/-- The watch of what is at a path. -/
def watchAt (path : List Bytes) : Option Watch :=
  (sys.tree path).bind fun node =>
    sys.watches.find? fun watch => watch.entry = ⟨path, node.id⟩

/-- The event for the watch of a directory, if it has one. -/
def notify (dir : List Bytes) (mask : Mask) (name : Option Bytes) (entry : Entry) : List Event :=
  (sys.watchAt dir).toList.map fun watch => ⟨watch.wd, mask, name, entry⟩

/-- What is queued for one change: the event of the directory, and those of the watch of
the entry itself. -/
def notifyBoth (ownFirst : Bool) (events own : List Event) : System :=
  { sys with queue := sys.queue ++ if ownFirst then own ++ events else events ++ own }

/-- A file or a directory is created. -/
def create (dir : List Bytes) (name : Bytes) (type : FileType) : System :=
  let entry : Entry := ⟨dir ++ [name], sys.created + 1⟩
  { sys with
    tree := Function.update sys.tree entry.path (some ⟨type, entry.id⟩)
    created := entry.id
    queue := sys.queue ++ sys.notify dir .create (some name) entry }

/-- An entry is deleted, and the watch that it may have goes away. -/
def delete (dir : List Bytes) (name : Bytes) (node : Node) (ownFirst : Bool) : System :=
  let entry : Entry := ⟨dir ++ [name], node.id⟩
  let own := (sys.watchAt entry.path).toList.map fun watch => ⟨watch.wd, .ignored, none, entry⟩
  { sys.notifyBoth ownFirst (sys.notify dir .delete (some name) entry) own with
    tree := Function.update sys.tree entry.path none
    watches := sys.watches.filter fun watch => watch.entry ≠ entry }

/-- An event is merged with the last one of the queue if that is the same. -/
def merge (event : Event) : List Event :=
  if sys.queue.getLast?.any fun last =>
      last.wd = event.wd ∧ last.mask = event.mask ∧ last.name = event.name then []
  else [event]

/-- A file is written to. -/
def modify (dir : List Bytes) (name : Bytes) (node : Node) (ownFirst : Bool) : System :=
  let entry : Entry := ⟨dir ++ [name], node.id⟩
  sys.notifyBoth ownFirst ((sys.notify dir .modify (some name) entry).flatMap sys.merge)
    ((sys.notify entry.path .modify none entry).flatMap sys.merge)

/-- `inotify_add_watch`: what is watched already keeps its descriptor. -/
def addWatch (path : List Bytes) : Option (Nat × System) :=
  (sys.tree path).map fun node =>
    match sys.watchAt path with
    | some watch => (watch.wd, sys)
    | none =>
      (sys.nextWd, { sys with
        watches := sys.watches ++ [⟨sys.nextWd, ⟨path, node.id⟩⟩]
        nextWd := sys.nextWd + 1 })

end System

/-! ## The class -/

inductive ChangeAction where
  | added
  | deleted
  | modified
  deriving DecidableEq

structure DirectoryChange where
  path : Bytes
  action : ChangeAction
  entry : Entry
  deriving DecidableEq

structure DirectoryWatcher where
  path : Bytes
  recurse : Bool
  changes : List DirectoryChange := []
  directories : Table Nat Bytes := ∅

/-- Where a call of `WaitForChanges` is. -/
inductive Phase where
  | idle
  /-- in the loop, with the events of the buffer that are left -/
  | reading (buffer : List Event)
  /-- behind the `stat` of a new directory -/
  | watching (change : DirectoryChange) (buffer : List Event)
  | thrown
  deriving DecidableEq

/-- The system, a watcher, and the changes that it returned. -/
structure State where
  sys : System
  watcher : DirectoryWatcher
  phase : Phase := .idle
  returned : List DirectoryChange := []

/-- `PathJoin`. -/
def pathJoin (a b : Bytes) : Bytes := a ++ slash :: b

namespace DirectoryWatcher

variable (w : DirectoryWatcher)

/-- The names of a path that the class joins to its own, behind that one. -/
def names (fsPath : Bytes) : List Bytes := (resolve fsPath).drop (resolve w.path).length

/-- The watch of a directory, and its path in the map. -/
def watchDirectory (sys : System) (fsPath relative : Bytes) : Option (System × DirectoryWatcher) :=
  (sys.addWatch (w.names fsPath)).map fun (wd, sys) =>
    (sys, { w with directories := w.directories.insert wd relative })

end DirectoryWatcher

/-! ## The constructor -/

/-- A name that a file can have. -/
structure FileName (name : Bytes) : Prop where
  ne_nil : name ≠ []
  ne_dot : name ≠ str "."
  ne_dotDot : name ≠ str ".."
  slash_notMem : slash ∉ name
  zero_notMem : 0 ∉ name

/-- What there is at first: the entries of a directory in the order of `readdir`. `.` and
`..` are not among them. -/
inductive Forest where
  | nil
  | file (name : Bytes) (rest : Forest)
  | dir (name : Bytes) (children rest : Forest)

namespace Forest

/-- The type of an entry. -/
def type? : Forest → List Bytes → Option FileType
  | nil, _ => none
  | _, [] => none
  | file name rest, n :: path =>
    if n = name then if path.isEmpty then some .regular else none else rest.type? (n :: path)
  | dir name children rest, n :: path =>
    if n = name then if path.isEmpty then some .directory else children.type? path
    else rest.type? (n :: path)

/-- The files behind a directory. -/
def tree (forest : Forest) : List Bytes → Option Node
  | [] => some ⟨.directory, 0⟩
  | path => (forest.type? path).map fun type => ⟨type, 0⟩

/-- Names are names of files, and the ones of a directory differ. -/
def Valid : Forest → Prop
  | nil => True
  | file name rest => FileName name ∧ rest.type? [name] = none ∧ rest.Valid
  | dir name children rest =>
    FileName name ∧ rest.type? [name] = none ∧ children.Valid ∧ rest.Valid

/-- `DirectoriesInTree`. -/
def directoriesInTree (path : Bytes) : Forest → List Bytes
  | nil => []
  | file _ rest => rest.directoriesInTree path
  | dir name children rest =>
    if name.head? = some 46 then rest.directoriesInTree path
    else
      let fullPath := pathJoin path name
      fullPath :: children.directoriesInTree fullPath ++ rest.directoriesInTree path

end Forest

/-- The loop over the directories of the tree. -/
def watchDirectories : List Bytes → System → DirectoryWatcher →
    Option (System × DirectoryWatcher)
  | [], sys, w => some (sys, w)
  | fsPath :: rest, sys, w => do
    let (sys, w) ← w.watchDirectory sys fsPath (fsPath.drop w.path.length)
    watchDirectories rest sys w

/-- The constructor; `none` is an exception. -/
def construct (path : Bytes) (recurse : Bool) (forest : Forest) : Option State := do
  let w : DirectoryWatcher := { path := path, recurse := recurse }
  let (sys, w) ← w.watchDirectory { tree := forest.tree } path []
  if recurse then
    let (sys, w) ← watchDirectories (forest.directoriesInTree path) sys w
    return { sys := sys, watcher := w }
  else
    return { sys := sys, watcher := w }

/-! ## The calls -/

namespace State

variable (s : State)

/-- `this->changes.push_back(change)`, and on to the next event. -/
def push (change : DirectoryChange) (buffer : List Event) : State :=
  { s with
    watcher := { s.watcher with changes := s.watcher.changes ++ [change] }
    phase := .reading buffer }

/-- The start of `WaitForChanges`, with the number of events that `read` returns if there
are any. -/
def waitForChanges (count : Nat) : State :=
  -- changes that were collected already, or nothing before the timeout
  if s.watcher.changes ≠ [] ∨ s.sys.queue = [] then s
  else
    { s with
      sys := { s.sys with queue := s.sys.queue.drop (count + 1) }
      phase := .reading (s.sys.queue.take (count + 1)) }

/-- One event of the buffer. An event without a name is read with what is behind it. -/
def event (behind : Bytes) : State :=
  match s.phase with
  | .reading [] => { s with phase := .idle }
  | .reading (e :: buffer) =>
    match s.watcher.directories.lookup e.wd with
    -- "unknown watch descriptor seen"
    | none => { s with phase := .thrown }
    | some dir =>
      match e.mask with
      | .ignored =>
        { s with
          watcher := { s.watcher with directories := s.watcher.directories.erase e.wd }
          phase := .reading buffer }
      | .create =>
        let path := pathJoin dir (e.name.getD behind)
        match s.sys.tree (s.watcher.names (pathJoin s.watcher.path path)) with
        -- "could not stat newly created file. weird"
        | none => { s with phase := .thrown }
        | some st =>
          if st.type = .directory ∧ s.watcher.recurse then
            { s with phase := .watching ⟨path, .added, e.entry⟩ buffer }
          else s.push ⟨path, .added, e.entry⟩ buffer
      | .delete => s.push ⟨pathJoin dir (e.name.getD behind), .deleted, e.entry⟩ buffer
      | .modify => s.push ⟨pathJoin dir (e.name.getD behind), .modified, e.entry⟩ buffer
  | _ => s

/-- The watch of the directory that `stat` saw. -/
def watch : State :=
  match s.phase with
  | .watching change buffer =>
    match s.watcher.watchDirectory s.sys (pathJoin s.watcher.path change.path) change.path with
    -- "could not add watch for directory: "
    | none => { s with phase := .thrown }
    | some (sys, w) => push { s with sys := sys, watcher := w } change buffer
  | _ => s

/-- `GetChanges`. -/
def getChanges : State :=
  { s with
    watcher := { s.watcher with changes := [] }
    returned := s.returned ++ s.watcher.changes }

end State

/-! ## Steps -/

/-- What other programs and the owner of the watcher do. -/
inductive Action where
  | create (dir : List Bytes) (name : Bytes) (type : FileType)
  | delete (dir : List Bytes) (name : Bytes) (ownFirst : Bool)
  | modify (dir : List Bytes) (name : Bytes) (ownFirst : Bool)
  | waitForChanges (count : Nat)
  | event (behind : Bytes)
  | watch
  | getChanges

/-- The steps there are. A directory that is deleted is empty. -/
inductive Step : State → Action → State → Prop where
  | create {s : State} {dir : List Bytes} {name : Bytes} {type : FileType} {parent : Node}
      (hname : FileName name) (hdir : s.sys.tree dir = some parent)
      (htype : parent.type = .directory) (hnew : s.sys.tree (dir ++ [name]) = none) :
      Step s (.create dir name type) { s with sys := s.sys.create dir name type }
  | delete {s : State} {dir : List Bytes} {name : Bytes} {ownFirst : Bool} {node : Node}
      (hnode : s.sys.tree (dir ++ [name]) = some node)
      (hempty : ∀ n, s.sys.tree (dir ++ [name] ++ [n]) = none) :
      Step s (.delete dir name ownFirst) { s with sys := s.sys.delete dir name node ownFirst }
  | modify {s : State} {dir : List Bytes} {name : Bytes} {ownFirst : Bool} {node : Node}
      (hnode : s.sys.tree (dir ++ [name]) = some node) (htype : node.type ≠ .directory) :
      Step s (.modify dir name ownFirst) { s with sys := s.sys.modify dir name node ownFirst }
  | waitForChanges {s : State} {count : Nat} (hphase : s.phase = .idle) :
      Step s (.waitForChanges count) (s.waitForChanges count)
  | event {s : State} {behind : Bytes} {buffer : List Event}
      (hphase : s.phase = .reading buffer) : Step s (.event behind) (s.event behind)
  | watch {s : State} {change : DirectoryChange} {buffer : List Event}
      (hphase : s.phase = .watching change buffer) : Step s .watch s.watch
  | getChanges {s : State} (hphase : s.phase = .idle) : Step s .getChanges s.getChanges

end Watching

end Zippylog
