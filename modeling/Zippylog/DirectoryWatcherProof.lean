import Zippylog.DirectoryWatcherRun

/-!
# What a directory watcher sees

A recursive watcher is to report every entry that appears in the tree once, and to watch every
directory, while other programs create, change and delete files between any two of its calls of
the system. It is right as long as what it looks at is there, and empty when it is first watched:
the code looks at a path some time after the event about it, and it does not scan a directory that
it adds to its watches.

- `Constructed.inv`: behind the constructor the invariant of the runs holds, if no directory is hidden. The
  constructor leaves out directories whose names begin with a dot.
- `Inv.correct`: the invariant says what the watcher is for, once the events are handled.
- `Inv.broken`: a step that does not meet the condition throws, or loses an entry for good.
- `correct_iff`: the runs whose steps meet the condition are right in all states if and only if
  there was no hidden directory at first.
-/

namespace Zippylog

open Wire Platform

namespace Watching

/-! ## The constructor -/

namespace Forest

/-- No directory has a name that begins with a dot. -/
def NoHidden (forest : Forest) : Prop :=
  ∀ path name, forest.type? (path ++ [name]) = some .directory → name.head? ≠ some 46

/-- The directories that `DirectoriesInTree` returns, behind a path. -/
def visible (path : List Bytes) : Forest → List (List Bytes)
  | nil => []
  | file _ rest => rest.visible path
  | dir name children rest =>
    if name.head? = some 46 then rest.visible path
    else (path ++ [name]) :: children.visible (path ++ [name]) ++ rest.visible path

/-- `DirectoriesInTree` finds the directories below, but for hidden ones and what is below these. -/
theorem directoriesInTree_eq (forest : Forest) (a : Bytes) (path : List Bytes) :
    forest.directoriesInTree (a ++ render path) =
      (forest.visible path).map fun p => a ++ render p := by
  induction forest generalizing path with
  | nil => rfl
  | file name rest ih => exact ih path
  | dir name children rest ihChildren ihRest =>
    have hjoin : pathJoin (a ++ render path) name = a ++ render (path ++ [name]) := by
      rw [render_append, pathJoin, List.append_assoc]
    rw [directoriesInTree, visible]
    split_ifs with hhidden
    · exact ihRest path
    · dsimp only
      rw [hjoin, ihChildren, ihRest, List.map_append, List.map_cons]

section

variable {n m : Bytes} {children rest : Forest} {path : List Bytes}

theorem type?_file_self :
    (file n rest).type? (n :: path) = if path = [] then some .regular else none := by
  rw [type?, if_pos rfl]
  cases path <;> rfl

theorem type?_file_of_ne (h : m ≠ n) : (file n rest).type? (m :: path) = rest.type? (m :: path) :=
  if_neg h

theorem type?_dir_self : (dir n children rest).type? (n :: path) =
    if path = [] then some .directory else children.type? path := by
  rw [type?, if_pos rfl]
  cases path <;> rfl

theorem type?_dir_of_ne (h : m ≠ n) :
    (dir n children rest).type? (m :: path) = rest.type? (m :: path) := if_neg h

end

/-- A name that is not in a directory has nothing behind it. -/
theorem type?_cons_eq_none {forest : Forest} {name : Bytes} (h : forest.type? [name] = none)
    (path : List Bytes) : forest.type? (name :: path) = none := by
  induction forest with
  | nil => rfl
  | file n rest ih =>
    by_cases heq : name = n
    · rw [heq, type?_file_self] at h
      cases h
    · rw [type?_file_of_ne heq] at h ⊢
      exact ih h
  | dir n children rest ihChildren ihRest =>
    by_cases heq : name = n
    · rw [heq, type?_dir_self] at h
      cases h
    · rw [type?_dir_of_ne heq] at h ⊢
      exact ihRest h

/-- What an entry is in. -/
theorem parent_type? {forest : Forest} (hvalid : forest.Valid) {path : List Bytes} {name : Bytes}
    {type : FileType} (h : forest.type? (path ++ [name]) = some type) :
    FileName name ∧ (path = [] ∨ forest.type? path = some .directory) := by
  induction forest generalizing path with
  | nil => cases h
  | file n rest ih =>
    obtain ⟨hn, -, hrest⟩ := hvalid
    cases path with
    | nil =>
      by_cases heq : name = n
      · exact ⟨heq ▸ hn, Or.inl rfl⟩
      · have hname : rest.type? ([] ++ [name]) = some type := (type?_file_of_ne heq).symm.trans h
        exact ⟨(ih hrest hname).1, Or.inl rfl⟩
    | cons m path =>
      by_cases heq : m = n
      · rw [heq, List.cons_append, type?_file_self, if_neg (by simp)] at h
        cases h
      · have hname : rest.type? (m :: path ++ [name]) = some type :=
          (type?_file_of_ne heq).symm.trans h
        obtain ⟨hfile, hparent⟩ := ih hrest hname
        rw [type?_file_of_ne heq]
        exact ⟨hfile, Or.inr (hparent.resolve_left (List.cons_ne_nil _ _))⟩
  -- the path goes on among the children, or among the rest of the listing
  | dir n children rest ihChildren ihRest =>
    obtain ⟨hn, -, hchildren, hrest⟩ := hvalid
    cases path with
    | nil =>
      by_cases heq : name = n
      · exact ⟨heq ▸ hn, Or.inl rfl⟩
      · have hname : rest.type? ([] ++ [name]) = some type := (type?_dir_of_ne heq).symm.trans h
        exact ⟨(ihRest hrest hname).1, Or.inl rfl⟩
    | cons m path =>
      by_cases heq : m = n
      · rw [heq, List.cons_append, type?_dir_self, if_neg (by simp)] at h
        obtain ⟨hfile, hparent⟩ := ihChildren hchildren h
        rw [heq, type?_dir_self]
        refine ⟨hfile, Or.inr ?_⟩
        split_ifs with hempty
        · rfl
        · exact hparent.resolve_left hempty
      · have hname : rest.type? (m :: path ++ [name]) = some type :=
          (type?_dir_of_ne heq).symm.trans h
        obtain ⟨hfile, hparent⟩ := ihRest hrest hname
        rw [type?_dir_of_ne heq]
        exact ⟨hfile, Or.inr (hparent.resolve_left (List.cons_ne_nil _ _))⟩

/-- The directories that are returned are those without a hidden name on the way. -/
theorem mem_visible {forest : Forest} (hvalid : forest.Valid) {path p : List Bytes} :
    p ∈ forest.visible path ↔ ∃ m rest, p = path ++ m :: rest ∧
      forest.type? (m :: rest) = some .directory ∧ ∀ name ∈ m :: rest, name.head? ≠ some 46 := by
  induction forest generalizing path with
  | nil => simp [visible, type?]
  | file n rest ih =>
    obtain ⟨hn, hfree, hrest⟩ := hvalid
    rw [visible, ih hrest]
    refine exists_congr fun m => exists_congr fun tail => and_congr_right fun _ => ?_
    refine and_congr_left fun _ => ?_
    by_cases heq : m = n
    · rw [heq, type?_cons_eq_none hfree, type?_file_self]
      split_ifs <;> simp
    · rw [type?_file_of_ne heq]
  | dir n children rest ihChildren ihRest =>
    obtain ⟨hn, hfree, hchildren, hrest⟩ := hvalid
    have hself : ∀ tail, p = path ++ n :: tail → p ∈ rest.visible path → False := by
      rintro tail rfl hmem
      obtain ⟨m, tail', heq, htype, -⟩ := (ihRest hrest).mp hmem
      obtain ⟨rfl, -⟩ := List.cons.inj (List.append_cancel_left heq)
      cases (type?_cons_eq_none hfree tail').symm.trans htype
    constructor
    · intro hvisible
      rw [visible] at hvisible
      -- an entry of the rest is one of the whole
      have hrestMem : p ∈ rest.visible path → ∃ m tail, p = path ++ m :: tail ∧
          (dir n children rest).type? (m :: tail) = some .directory ∧
          ∀ name ∈ m :: tail, name.head? ≠ some 46 := by
        intro hmem
        obtain ⟨m, tail, rfl, htype, hnames⟩ := (ihRest hrest).mp hmem
        have hne : m ≠ n := by
          rintro rfl
          exact hself tail rfl hmem
        exact ⟨m, tail, rfl, (type?_dir_of_ne hne).trans htype, hnames⟩
      split_ifs at hvisible with hhidden
      · exact hrestMem hvisible
      · rcases List.mem_append.mp hvisible with hmem | hmem
        · rcases List.mem_cons.mp hmem with rfl | hmem
          · exact ⟨n, [], rfl, type?_dir_self, List.forall_mem_singleton.mpr hhidden⟩
          · obtain ⟨m, tail, rfl, htype, hnames⟩ := (ihChildren hchildren).mp hmem
            refine ⟨n, m :: tail, by simp, ?_, List.forall_mem_cons.mpr ⟨hhidden, hnames⟩⟩
            rw [type?_dir_self, if_neg (List.cons_ne_nil _ _)]
            exact htype
        · exact hrestMem hmem
    · rintro ⟨m, tail, rfl, htype, hnames⟩
      have hhead := hnames m List.mem_cons_self
      rw [visible]
      by_cases heq : m = n
      · subst heq
        rw [if_neg hhead]
        refine List.mem_append_left _ ?_
        cases tail with
        | nil => exact List.mem_cons_self
        | cons m' tail =>
          rw [type?_dir_self, if_neg (List.cons_ne_nil _ _)] at htype
          have hchild : path ++ m :: m' :: tail ∈ children.visible (path ++ [m]) :=
            (ihChildren hchildren).mpr ⟨m', tail, (List.append_cons _ _ _), htype,
              fun name hname => hnames name (List.mem_cons_of_mem _ hname)⟩
          exact List.mem_cons_of_mem _ hchild
      · rw [type?_dir_of_ne heq] at htype
        have hmem : path ++ m :: tail ∈ rest.visible path :=
          (ihRest hrest).mpr ⟨m, tail, rfl, htype, hnames⟩
        split_ifs
        · exact hmem
        · exact List.mem_append_right _ hmem

theorem tree_append (forest : Forest) (dir : List Bytes) (name : Bytes) :
    forest.tree (dir ++ [name]) = (forest.type? (dir ++ [name])).map fun type => ⟨type, 0⟩ := by
  cases dir <;> rfl

/-- What has a type in the forest has a node in the tree of the system. -/
theorem tree_of_type? {forest : Forest} {path : List Bytes} {type : FileType}
    (h : forest.type? path = some type) : ∃ node, forest.tree path = some node ∧
      node.type = type := by
  cases path with
  | nil => cases forest <;> cases h
  | cons m path =>
    refine ⟨⟨type, 0⟩, ?_, rfl⟩
    show (forest.type? (m :: path)).map _ = _
    rw [h]
    rfl

/-- Without a hidden directory there is no hidden name on the way to a directory. -/
theorem NoHidden.names {forest : Forest} (h : forest.NoHidden) (hvalid : forest.Valid)
    {path : List Bytes} (htype : forest.type? path = some .directory) :
    ∀ name ∈ path, name.head? ≠ some 46 := by
  induction path using List.reverseRecOn with
  | nil => exact fun name hname => absurd hname List.not_mem_nil
  | append_singleton dir name ih =>
    refine List.forall_mem_append.mpr ⟨?_, List.forall_mem_singleton.mpr (h dir name htype)⟩
    rcases (parent_type? hvalid htype).2 with rfl | hdir
    · exact fun name hname => absurd hname List.not_mem_nil
    · exact ih hdir

end Forest

/-- The files that are there at first. -/
theorem known_initial {forest : Forest} (hvalid : forest.Valid) :
    Known { tree := forest.tree } ∅ where
  root := ⟨⟨.directory, 0⟩, rfl, rfl⟩
  parent dir name node hnode := by
    have htree : forest.tree (dir ++ [name]) = some node := hnode
    rw [Forest.tree_append] at htree
    obtain ⟨type, htype, -⟩ := Option.map_eq_some_iff.mp htree
    obtain ⟨hname, hdir⟩ := Forest.parent_type? hvalid htype
    refine ⟨hname, ?_⟩
    rcases hdir with rfl | hdir
    · exact ⟨⟨.directory, 0⟩, rfl, rfl⟩
    · exact Forest.tree_of_type? hdir
  id_le path node hnode := by
    cases path with
    | nil =>
      cases hnode
      exact Nat.le_refl _
    | cons m path =>
      obtain ⟨type, -, rfl⟩ := Option.map_eq_some_iff.mp hnode
      exact Nat.le_refl _
  watches _ hwatch := absurd hwatch List.not_mem_nil
  directories _ hwatch := absurd hwatch List.not_mem_nil
  wd_lt _ hwatch := absurd hwatch List.not_mem_nil
  wd_inj _ hwatch := absurd hwatch List.not_mem_nil

/-- The loop of the constructor watches all directories it is given. -/
theorem watchDirectories_spec (paths : List (List Bytes)) {sys : System} {w : DirectoryWatcher}
    (h : Known sys w.directories) (hpaths : ∀ p ∈ paths, ∃ node, sys.tree p = some node) :
    ∃ sys' directories', watchDirectories (paths.map fun p => w.path ++ render p) sys w =
        some (sys', { w with directories := directories' }) ∧
      Known sys' directories' ∧ sys'.tree = sys.tree ∧ sys'.created = sys.created ∧
      sys'.queue = sys.queue ∧ ∀ p, sys'.Watched p ↔ sys.Watched p ∨ p ∈ paths := by
  induction paths generalizing sys w with
  | nil => exact ⟨sys, w.directories, rfl, h, rfl, rfl, rfl, by simp⟩
  | cons path paths ih =>
    obtain ⟨⟨node, hnode⟩, hpaths⟩ := List.forall_mem_cons.mp hpaths
    have hnames := w.names_append (h.names hnode)
    rw [← hnames] at hnode
    obtain ⟨sys₁, directories₁, hwatch, hregistered⟩ := h.watchDirectory hnode
    rw [hnames] at hwatch hregistered
    have hpaths₁ : ∀ p ∈ paths, ∃ node, sys₁.tree p = some node := by
      rw [hregistered.tree]
      exact hpaths
    have hknown : Known sys₁ { w with directories := directories₁ }.directories :=
      hregistered.known
    obtain ⟨sys', directories', hrest, hknown', htree, hcreated, hqueue, hwatched⟩ :=
      ih hknown hpaths₁
    refine ⟨sys', directories', ?_, hknown', htree.trans hregistered.tree,
      hcreated.trans hregistered.created, hqueue.trans hregistered.queue, fun p => ?_⟩
    · rw [List.map_cons, watchDirectories, List.drop_left, hwatch]
      exact hrest
    · rw [hwatched, hregistered.watched, List.mem_cons, or_assoc]

/-- A watcher that is new. -/
structure Constructed (forest : Forest) (s : State) : Prop where
  known : Known s.sys s.watcher.directories
  tree : s.sys.tree = forest.tree
  created : s.sys.created = 0
  queue : s.sys.queue = []
  watched : ∀ path, s.sys.Watched path ↔ path = [] ∨ path ∈ forest.visible []
  recurse : s.watcher.recurse = true
  changes : s.watcher.changes = []
  returned : s.returned = []
  phase : s.phase = .idle

/-- The constructor puts watches on the directories that it finds, each one once, and returns. -/
theorem construct_spec (path : Bytes) {forest : Forest} (hvalid : forest.Valid) :
    ∃ s, construct path true forest = some s ∧ Constructed forest s := by
  generalize hw : ({ path := path, recurse := true } : DirectoryWatcher) = w
  have hwpath : w.path = path := by rw [← hw]
  have hroot : w.names path = [] := by
    rw [DirectoryWatcher.names, hwpath, List.drop_length]
  have hinitial : Known { tree := forest.tree } w.directories := by
    rw [← hw]
    exact known_initial hvalid
  have hnode : forest.tree (w.names path) = some ⟨.directory, 0⟩ := by
    rw [hroot]
    rfl
  -- the directory itself is registered first, then the ones below it
  obtain ⟨sys₁, directories₁, hwatch, hregistered⟩ := hinitial.watchDirectory hnode
  rw [hroot] at hwatch hregistered
  have hpaths : ∀ p ∈ forest.visible [], ∃ node, sys₁.tree p = some node := by
    intro p hp
    obtain ⟨m, rest, rfl, htype, -⟩ := (Forest.mem_visible hvalid).mp hp
    obtain ⟨node, hnode, -⟩ := Forest.tree_of_type? htype
    exact ⟨node, (congrFun hregistered.tree _).trans hnode⟩
  have hknown : Known sys₁ { w with directories := directories₁ }.directories := hregistered.known
  obtain ⟨sys', directories', hrest, hknown', htree, hcreated, hqueue, hwatched⟩ :=
    watchDirectories_spec (forest.visible []) hknown hpaths
  refine ⟨{ sys := sys', watcher := { w with directories := directories' } }, ?_, ?_⟩
  · have hlist := Forest.directoriesInTree_eq forest path []
    rw [show render [] = [] from rfl, List.append_nil] at hlist
    dsimp only at hrest
    rw [hwpath, ← hlist] at hrest
    rw [construct]
    dsimp only
    rw [hw, show ([] : Bytes) = render [] from rfl, hwatch]
    show (watchDirectories (forest.directoriesInTree path) sys₁
      { w with directories := directories₁ } >>= _) = _
    rw [hwpath, hrest]
    rfl
  · constructor
    · exact hknown'
    · exact htree.trans hregistered.tree
    · exact hcreated.trans hregistered.created
    · exact hqueue.trans hregistered.queue
    · intro p
      rw [hwatched, hregistered.watched]
      refine or_congr ⟨fun h => h.resolve_left ?_, Or.inr⟩ Iff.rfl
      rintro ⟨watch, hmem, -⟩
      exact absurd hmem List.not_mem_nil
    · rw [← hw]
    · rw [← hw]
    · rfl
    · rfl

/-- Where no directory is hidden, the watches are on all of them, and the invariant holds. -/
theorem Constructed.inv {forest : Forest} {s : State} (h : Constructed forest s)
    (hvalid : forest.Valid) (hhidden : forest.NoHidden) : s.Inv := by
  have hpending : s.pending = [] := by
    rw [State.pending, h.phase, h.queue]
    rfl
  have hfound : s.found = [] := by
    rw [State.found, h.phase, h.returned, h.changes]
    rfl
  have hannounced : s.announced = [] := by
    rw [State.announced, hfound, hpending]
    rfl
  -- all directories are watched
  have hwatched : ∀ path node, s.sys.tree path = some node → node.type = .directory →
      s.sys.Watched path := by
    intro path node hnode hdirectory
    rw [h.watched]
    cases path with
    | nil => exact Or.inl rfl
    | cons m rest =>
      rw [h.tree] at hnode
      obtain ⟨type, htype, rfl⟩ := Option.map_eq_some_iff.mp hnode
      dsimp only at hdirectory
      rw [hdirectory] at htype
      exact Or.inr ((Forest.mem_visible hvalid).mpr
        ⟨m, rest, rfl, htype, hhidden.names hvalid htype⟩)
  have hparent : ∀ dir name node, s.sys.tree (dir ++ [name]) = some node → s.sys.Watched dir := by
    intro dir name node hnode
    obtain ⟨-, parent, hparent, htype⟩ := h.known.parent dir name node hnode
    exact hwatched dir parent hparent htype
  constructor
  · exact h.known
  · rw [hpending]
    exact pending_nil _ _
  · rw [hannounced]
    refine ⟨List.nodup_nil, fun _ he => absurd he List.not_mem_nil,
      fun dir name node hnode hid => ?_, fun dir name node hnode _ => hparent dir name node hnode⟩
    have hle := h.known.id_le _ _ hnode
    rw [h.created] at hle
    exact absurd hid (Nat.not_le.mpr (Nat.lt_one_iff.mpr (Nat.le_zero.mp hle)))
  · rw [hfound]
    exact fun _ hc => absurd hc List.not_mem_nil
  · rw [h.phase]
    exact fun _ hc => absurd hc List.not_mem_nil
  · exact fun dir name node hnode hdirectory _ => Or.inl (hwatched _ _ hnode hdirectory)
  · exact h.recurse
  · rw [h.phase]
    exact fun heq => by cases heq
  · exact (h.watched []).mpr (Or.inl rfl)

/-! ## Correctness -/

/-- No call is under way, and all events are read. -/
def State.Drained (s : State) : Prop := s.phase = .idle ∧ s.sys.queue = []

/-- What is asked of a watcher in a state. -/
structure State.Correct (s : State) : Prop where
  quiet : s.phase ≠ .thrown
  added : s.Drained → ∀ dir name node, s.sys.tree (dir ++ [name]) = some node → 1 ≤ node.id →
    (s.reported.filter fun change =>
        change.action = .added ∧ change.entry = ⟨dir ++ [name], node.id⟩).map
      DirectoryChange.path = [render (dir ++ [name])]
  watched : s.Drained → ∀ path node, s.sys.tree path = some node → node.type = .directory →
    ∃ watch ∈ s.sys.watches, watch.entry = ⟨path, node.id⟩ ∧
      s.watcher.directories.lookup watch.wd = some (render path)

/-- The changes of an entry that is once among those that were added. -/
theorem filter_added {changes : List DirectoryChange} {entry : Entry}
    (hnodup : (changes.filterMap DirectoryChange.added?).Nodup)
    (hmem : entry ∈ changes.filterMap DirectoryChange.added?) :
    ∃ change ∈ changes, change.action = .added ∧ change.entry = entry ∧
      (changes.filter fun change => change.action = .added ∧ change.entry = entry) = [change] := by
  induction changes with
  | nil => cases hmem
  | cons c changes ih =>
    by_cases haction : c.action = .added
    · have hadded : c.added? = some c.entry := if_pos haction
      rw [List.filterMap_cons_some hadded] at hnodup hmem
      obtain ⟨hnotMem, hnodup⟩ := List.nodup_cons.mp hnodup
      by_cases hentry : c.entry = entry
      · refine ⟨c, List.mem_cons_self, haction, hentry, ?_⟩
        rw [List.filter_cons_of_pos (by simp [haction, hentry])]
        congr 1
        rw [List.filter_eq_nil_iff]
        intro x hx hdecide
        obtain ⟨hx', hxentry⟩ := of_decide_eq_true hdecide
        refine hnotMem (List.mem_filterMap.mpr ⟨x, hx, ?_⟩)
        rw [DirectoryChange.added?, if_pos hx', hxentry, hentry]
      · have hmem' := (List.mem_cons.mp hmem).resolve_left (Ne.symm hentry)
        obtain ⟨x, hx, hxaction, hxentry, hfilter⟩ := ih hnodup hmem'
        refine ⟨x, List.mem_cons_of_mem _ hx, hxaction, hxentry, ?_⟩
        rw [List.filter_cons_of_neg (by simp [hentry])]
        exact hfilter
    · have hadded : c.added? = none := if_neg haction
      rw [List.filterMap_cons_none hadded] at hnodup hmem
      obtain ⟨x, hx, hxaction, hxentry, hfilter⟩ := ih hnodup hmem
      refine ⟨x, List.mem_cons_of_mem _ hx, hxaction, hxentry, ?_⟩
      rw [List.filter_cons_of_neg (by simp [haction])]
      exact hfilter

namespace State

variable {s s' : State}

theorem Drained.pending (h : s.Drained) : s.pending = [] := by
  rw [State.pending, h.1, h.2]
  rfl

theorem Drained.found (h : s.Drained) : s.found = s.reported := by
  rw [State.found, h.1]
  exact List.append_nil _

/-- In a drained state all directories are watched, from the root on. -/
theorem Inv.watched (h : s.Inv) (hdrained : s.Drained) {path : List Bytes} {node : Node}
    (hnode : s.sys.tree path = some node) (htype : node.type = .directory) :
    s.sys.Watched path := by
  induction path using List.reverseRecOn generalizing node with
  | nil => exact h.root
  | append_singleton dir name ih =>
    obtain ⟨-, parent, hparent, hdirectory⟩ := h.known.parent dir name node hnode
    refine (h.dirs dir name node hnode htype (ih hparent hdirectory)).resolve_right ?_
    rw [expected, hdrained.pending, hdrained.1]
    exact List.not_mem_nil

/-- The invariant has what is asked of a state. -/
theorem Inv.correct (h : s.Inv) : s.Correct := by
  constructor
  · exact h.phase
  · intro hdrained dir name node hnode hid
    obtain ⟨-, parent, hparent, htype⟩ := h.known.parent dir name node hnode
    have hmem := (h.reports.mem_iff dir name node hnode hid).mpr
      (h.watched hdrained hparent htype)
    have hnodup := h.reports.nodup
    rw [announced, hdrained.pending, hdrained.found] at hmem hnodup
    rw [List.filterMap_nil, List.append_nil] at hmem hnodup
    obtain ⟨change, hchange, haction, hentry, hfilter⟩ := filter_added hnodup hmem
    have hpath := h.paths change (by rw [hdrained.found]; exact hchange) haction
    rw [hfilter, List.map_singleton, hpath, hentry]
  · intro hdrained path node hnode htype
    obtain ⟨watch, hwatch, rfl⟩ := h.watched hdrained hnode htype
    obtain ⟨node', hnode', hid⟩ := h.known.watches watch hwatch
    cases hnode.symm.trans hnode'
    exact ⟨watch, hwatch, by rw [hid], h.known.directories watch hwatch⟩

/-- A call has thrown, or an entry of a watched directory is not announced: it is neither
reported nor among the events. -/
def Broken (s : State) : Prop :=
  s.phase = .thrown ∨ ∃ dir name node, s.sys.tree (dir ++ [name]) = some node ∧ 1 ≤ node.id ∧
    s.sys.Watched dir ∧ ⟨dir ++ [name], node.id⟩ ∉ s.announced

/-- **A step that does not meet the condition breaks the watcher**. -/
theorem Inv.broken (h : s.Inv) {a : Action} (hstep : Step s a s') (hmeets : ¬s.Meets a) :
    s'.Broken := by
  cases hstep with
  | create => exact absurd trivial hmeets
  | delete => exact absurd trivial hmeets
  | modify => exact absurd trivial hmeets
  | waitForChanges => exact absurd trivial hmeets
  | getChanges => exact absurd trivial hmeets
  -- the path of the event is gone, and the handler throws
  | @event behind buffer hphase =>
    obtain ⟨path, hpath, hnone⟩ : ∃ path ∈ s.statPath? behind, s.sys.tree path = none := by
      simpa [Meets] using hmeets
    rw [statPath?, hphase] at hpath
    cases buffer with
    | nil => cases hpath
    | cons e buffer =>
      dsimp only at hpath
      split_ifs at hpath with hmask
      · obtain ⟨dir, hlookup, hnames⟩ := Option.map_eq_some_iff.mp hpath
        refine Or.inl ?_
        rw [State.event, hphase]
        dsimp only
        rw [hlookup, hmask]
        dsimp only
        rw [hnames, hnone]
      · cases hpath
  | @watch change buffer hphase =>
    obtain ⟨hpath, hjoin, hwatch⟩ := h.watchPath hphase
    cases hnode : s.sys.tree change.entry.path with
    -- the directory is gone, and adding the watch throws
    | none =>
      refine Or.inl ?_
      rw [watch_eq hphase, hpath, DirectoryWatcher.watchDirectory, System.addWatch, hjoin, hnode]
      rfl
    -- something was made in it, which is in a watched directory now and is not announced
    | some node =>
      have hnot : ¬((s.sys.watchAt change.entry.path).isSome ∨
          ∀ name, s.sys.tree (change.entry.path ++ [name]) = none) := by
        intro hor
        refine hmeets fun path hp => ?_
        cases hwatch.symm.trans hp
        exact ⟨Option.isSome_of_eq_some hnode, hor⟩
      obtain ⟨hunwatched, hentries⟩ := not_or.mp hnot
      rw [h.known.watchAt_isSome] at hunwatched
      obtain ⟨name, hname⟩ := not_forall.mp hentries
      obtain ⟨x, hx⟩ := Option.ne_none_iff_exists'.mp hname
      have hid : 1 ≤ x.id := Nat.one_le_iff_ne_zero.mpr fun hzero =>
        hunwatched (h.reports.initial _ _ _ hx hzero)
      rw [← hjoin] at hnode
      obtain ⟨sys', directories', hregister, hregistered⟩ := h.known.watchDirectory hnode
      rw [hjoin] at hregister hregistered
      rw [watch_eq hphase, hpath, hregister]
      refine Or.inr ⟨change.entry.path, name, x, ?_, hid, ?_, ?_⟩
      · exact (congrFun hregistered.tree _).trans hx
      · exact (hregistered.watched _).mpr (Or.inr rfl)
      · dsimp only
        rw [announced, pending_push hphase hregistered.queue, found_push hphase]
        exact fun hmem => hunwatched ((h.reports.mem_iff _ _ _ hx hid).mp hmem)

end State

/-- A run whose steps meet the condition. -/
def Reaches : State → State → Prop :=
  Relation.ReflTransGen fun s s' => ∃ a, s.Meets a ∧ Step s a s'

theorem Reaches.inv {s s' : State} (h : Reaches s s') (hinv : s.Inv) : s'.Inv := by
  induction h with
  | refl => exact hinv
  | tail _ hstep ih =>
    obtain ⟨a, hmeets, hstep⟩ := hstep
    exact ih.step hstep hmeets

/-- **Directory watching**: a new recursive watcher is right in all states of all runs whose
steps meet the condition, and a step that does not meet it breaks the watcher, if and only
if there was no hidden directory. -/
theorem correct_iff (path : Bytes) {forest : Forest} (hvalid : forest.Valid) :
    (∃ s₀, construct path true forest = some s₀ ∧ ∀ s, Reaches s₀ s →
      s.Correct ∧ ∀ a s', Step s a s' → ¬s.Meets a → s'.Broken) ↔ forest.NoHidden := by
  obtain ⟨s₀, hconstruct, hnew⟩ := construct_spec path hvalid
  constructor
  · rintro ⟨s, hs, hall⟩ dir name htype hhidden
    cases hconstruct.symm.trans hs
    have hcorrect := (hall s₀ Relation.ReflTransGen.refl).1
    obtain ⟨node, hnode, hdirectory⟩ := Forest.tree_of_type? htype
    rw [← hnew.tree] at hnode
    obtain ⟨watch, hwatch, hentry, -⟩ :=
      hcorrect.watched ⟨hnew.phase, hnew.queue⟩ _ _ hnode hdirectory
    have hwatched : s₀.sys.Watched (dir ++ [name]) := ⟨watch, hwatch, congrArg Entry.path hentry⟩
    rcases (hnew.watched _).mp hwatched with hnil | hvisible
    · simp at hnil
    · obtain ⟨m, rest, heq, -, hnames⟩ := (Forest.mem_visible hvalid).mp hvisible
      have hmem : name ∈ m :: rest := by
        rw [← List.nil_append (m :: rest), ← heq]
        exact List.mem_append_right _ List.mem_cons_self
      exact hnames name hmem hhidden
  · intro hhidden
    refine ⟨s₀, hconstruct, fun s hreaches => ?_⟩
    have hinv := Reaches.inv hreaches (hnew.inv hvalid hhidden)
    exact ⟨hinv.correct, fun a s' hstep hmeets => hinv.broken hstep hmeets⟩

/-- A file, and a directory with a file in it. -/
def twoEntries : Forest := .file (str "a") (.dir (str "b") (.file (str "c") .nil) .nil)

theorem valid_twoEntries : twoEntries.Valid := by
  have hname {name : Bytes} (h : name ∈ [str "a", str "b", str "c"]) : FileName name := by
    simp only [List.mem_cons, List.not_mem_nil, or_false] at h
    rcases h with rfl | rfl | rfl <;> constructor <;> decide
  exact ⟨hname (by simp), by decide, hname (by simp), rfl, ⟨hname (by simp), rfl, trivial⟩, trivial⟩

/-- Over a directory that is not empty. -/
theorem correct_twoEntries :
    (∃ s₀, construct (str "/store") true twoEntries = some s₀ ∧ ∀ s, Reaches s₀ s →
      s.Correct ∧ ∀ a s', Step s a s' → ¬s.Meets a → s'.Broken) ↔ twoEntries.NoHidden :=
  correct_iff (str "/store") valid_twoEntries

/-- A watcher over an empty directory. -/
def started : State where
  sys := { tree := Forest.nil.tree, watches := [⟨1, ⟨[], 0⟩⟩], nextWd := 2 }
  watcher :=
    { path := str "/store", recurse := true, directories := AList.singleton 1 [] }

/-- A file that is deleted before its event is read. -/
theorem not_correct_deleted :
    ¬∀ path forest, Forest.Valid forest → ∃ s₀, construct path true forest = some s₀ ∧
      ∀ s, Relation.ReflTransGen (fun s s' => ∃ a, Step s a s') s₀ s → s.Correct := by
  intro h
  obtain ⟨s₀, hs₀, hall⟩ := h (str "/store") .nil trivial
  cases (show construct (str "/store") true .nil = some started from rfl).symm.trans hs₀
  have hname : FileName (str "a") := by
    constructor <;> decide
  let s₁ : State := { started with sys := started.sys.create [] (str "a") .regular }
  let s₂ : State := { s₁ with sys := s₁.sys.delete [] (str "a") ⟨.regular, 1⟩ false }
  have hcreate : Step started (.create [] (str "a") .regular) s₁ :=
    Step.create hname (show started.sys.tree [] = some ⟨.directory, 0⟩ from rfl) rfl rfl
  have hdelete : Step s₁ (.delete [] (str "a") false) s₂ := Step.delete rfl fun n => rfl
  have hread : Step s₂ (.waitForChanges 0) (s₂.waitForChanges 0) := Step.waitForChanges rfl
  have hevent : Step (s₂.waitForChanges 0) (.event []) ((s₂.waitForChanges 0).event []) :=
    Step.event (show (s₂.waitForChanges 0).phase = .reading s₂.sys.queue.head?.toList from rfl)
  have hrun : Relation.ReflTransGen (fun s s' => ∃ a, Step s a s') started
      ((s₂.waitForChanges 0).event []) :=
    .tail (.tail (.tail (.single ⟨_, hcreate⟩) ⟨_, hdelete⟩) ⟨_, hread⟩) ⟨_, hevent⟩
  exact (hall _ hrun).quiet rfl

end Watching

end Zippylog
