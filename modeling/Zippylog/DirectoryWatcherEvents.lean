import Zippylog.DirectoryWatcher
import Zippylog.SimpleDirectoryStoreProof

/-!
# Watches, events and reports of a directory watcher

What holds of the watches and the map (`Known`), of the events that are not handled yet
(`Pending`) and of the entries that are announced (`Reports`), and that it still does when
other programs change the tree or a directory is added to the watches.

- The system numbers watches and never gives a number twice; the watcher keeps a map from numbers to
  the paths that it added them for. `Known` says that the two agree, but for directories that are
  gone.
- An event has the number of its watch. `Pending` says that the number is in the map when the event
  comes to be handled, so that `/` and the name can be put behind the right path.
- `Reports`: an entry that is there in a watched directory was announced, or is from before.

Each has one lemma for each thing that can happen: `create`, `delete`, `modify`, and
`watchDirectory`.
-/

namespace Zippylog

open Wire Platform

namespace Watching

/-! ## Paths -/

/-- The path of an entry, as the class has it. -/
def render (path : List Bytes) : Bytes := path.flatMap fun name => slash :: name

theorem render_append (path : List Bytes) (name : Bytes) :
    render (path ++ [name]) = render path ++ slash :: name := by
  rw [render, List.flatMap_append, List.flatMap_singleton]
  rfl

theorem pathJoin_render (path : List Bytes) (name : Bytes) :
    pathJoin (render path) name = render (path ++ [name]) := by
  rw [render_append]
  rfl

/-- A path that is rendered behind another leads on from there: names have no slash, and none is `.`
or `..`. -/
theorem resolve_append_render (a : Bytes) {path : List Bytes} (h : ∀ name ∈ path, FileName name) :
    resolve (a ++ render path) = resolve a ++ path := by
  induction path generalizing a with
  | nil => rw [show render [] = [] from rfl, List.append_nil, List.append_nil]
  | cons name path ih =>
    obtain ⟨hname, hpath⟩ := List.forall_mem_cons.mp h
    have hrender : a ++ render (name :: path) = (a ++ slash :: name) ++ render path := by
      rw [render, List.flatMap_cons, List.append_assoc]
      rfl
    rw [hrender, ih _ hpath, resolve_append, resolve_name hname.ne_nil
      fun c hc heq => hname.slash_notMem (heq ▸ hc), List.append_assoc]
    rfl

theorem DirectoryWatcher.names_append (w : DirectoryWatcher) {path : List Bytes}
    (h : ∀ name ∈ path, FileName name) : w.names (w.path ++ render path) = path := by
  rw [DirectoryWatcher.names, resolve_append_render _ h, List.drop_left]

theorem DirectoryWatcher.names_pathJoin (w : DirectoryWatcher) {path : List Bytes}
    (h : ∀ name ∈ path, FileName name) : w.names (pathJoin w.path (render path)) = path := by
  have hjoin : pathJoin w.path (render path) = pathJoin w.path [] ++ render path := by
    rw [pathJoin, pathJoin, List.append_assoc]
    rfl
  rw [DirectoryWatcher.names, hjoin, resolve_append_render _ h, pathJoin, resolve_append,
    show resolve [] = [] from rfl, List.append_nil, List.drop_left]

/-! ## Watches -/

/-- A directory is watched. -/
def System.Watched (sys : System) (path : List Bytes) : Prop :=
  ∃ watch ∈ sys.watches, watch.entry.path = path

/-- What the files, the watches and the map of a watcher are to each other. -/
structure Known (sys : System) (directories : Table Nat Bytes) : Prop where
  root : ∃ node, sys.tree [] = some node ∧ node.type = .directory
  parent : ∀ dir name node, sys.tree (dir ++ [name]) = some node →
    FileName name ∧ ∃ parent, sys.tree dir = some parent ∧ parent.type = .directory
  id_le : ∀ path node, sys.tree path = some node → node.id ≤ sys.created
  watches : ∀ watch ∈ sys.watches, ∃ node, sys.tree watch.entry.path = some node ∧
    node.id = watch.entry.id
  directories : ∀ watch ∈ sys.watches,
    directories.lookup watch.wd = some (render watch.entry.path)
  wd_lt : ∀ watch ∈ sys.watches, watch.wd < sys.nextWd
  wd_inj : ∀ watch ∈ sys.watches, ∀ watch' ∈ sys.watches, watch.wd = watch'.wd → watch = watch'

section

variable {sys sys' : System} {directories directories' : Table Nat Bytes}

theorem mem_of_watchAt {path : List Bytes} {watch : Watch} (h : sys.watchAt path = some watch) :
    watch ∈ sys.watches ∧ watch.entry.path = path := by
  obtain ⟨node, -, hfind⟩ := Option.bind_eq_some_iff.mp h
  have hdecide := List.find?_some hfind
  have hentry : watch.entry = ⟨path, node.id⟩ := of_decide_eq_true hdecide
  exact ⟨List.mem_of_find?_eq_some hfind, congrArg Entry.path hentry⟩

/-- A directory has a watch exactly where the watcher has put one on it. -/
theorem Known.watchAt_isSome (h : Known sys directories) {path : List Bytes} :
    (sys.watchAt path).isSome ↔ sys.Watched path := by
  constructor
  · intro hsome
    obtain ⟨watch, hwatch⟩ := Option.isSome_iff_exists.mp hsome
    exact ⟨watch, mem_of_watchAt hwatch⟩
  · rintro ⟨watch, hmem, rfl⟩
    obtain ⟨node, hnode, hid⟩ := h.watches watch hmem
    rw [System.watchAt, hnode, Option.bind_some, List.find?_isSome]
    exact ⟨watch, hmem, decide_eq_true (by rw [hid])⟩

/-- All names of an entry are names of files. -/
theorem Known.names (h : Known sys directories) {path : List Bytes} {node : Node}
    (hnode : sys.tree path = some node) : ∀ name ∈ path, FileName name := by
  induction path using List.reverseRecOn generalizing node with
  | nil => exact fun name hname => absurd hname List.not_mem_nil
  | append_singleton dir name ih =>
    obtain ⟨hname, parent, hparent, -⟩ := h.parent dir name node hnode
    intro n hn
    rcases List.mem_append.mp hn with hn | hn
    · exact ih hparent n hn
    · rw [List.mem_singleton.mp hn]
      exact hname

/-! ## Events -/

/-- What holds of the events that are not handled yet. -/
structure Pending (sys : System) (directories : Table Nat Bytes) (pending : List Event) :
    Prop where
  known : ∀ e ∈ pending, ∃ dir, directories.lookup e.wd = some (render dir) ∧
    (e.mask = .create → ∃ name, e.name = some name ∧ e.entry.path = dir ++ [name])
  names : ∀ e ∈ pending, ∀ name ∈ e.entry.path, FileName name
  wd_lt : ∀ e ∈ pending, e.wd < sys.nextWd
  gone : ∀ e ∈ pending, e.mask = .ignored → ∀ watch ∈ sys.watches, watch.wd ≠ e.wd
  last : pending.Pairwise fun e e' => e.mask = .ignored → e'.wd ≠ e.wd

variable {pending : List Event}

/-- An event of a watch there is. -/
structure OfWatch (sys : System) (e : Event) : Prop where
  watch : ∃ watch ∈ sys.watches, e.wd = watch.wd ∧
    (e.mask = .create → ∃ name, e.name = some name ∧ e.entry.path = watch.entry.path ++ [name])
  names : ∀ name ∈ e.entry.path, FileName name

/-- New events, with which watches can only go away. -/
theorem Pending.append (h : Pending sys directories pending) (hknown : Known sys directories)
    (hwatches : ∀ watch ∈ sys'.watches, watch ∈ sys.watches) (hnext : sys'.nextWd = sys.nextWd)
    {events : List Event} (hevents : ∀ e ∈ events, OfWatch sys e)
    (hgone : ∀ e ∈ events, e.mask = .ignored → ∀ watch ∈ sys'.watches, watch.wd ≠ e.wd)
    (hlast : events.Pairwise fun e e' => e.mask = .ignored → e'.wd ≠ e.wd) :
    Pending sys' directories (pending ++ events) where
  known e he := by
    rcases List.mem_append.mp he with he | he
    · exact h.known e he
    · obtain ⟨watch, hwatch, hwd, hcreate⟩ := (hevents e he).watch
      exact ⟨watch.entry.path, hwd ▸ hknown.directories watch hwatch, hcreate⟩
  names e he := by
    rcases List.mem_append.mp he with he | he
    · exact h.names e he
    · exact (hevents e he).names
  wd_lt e he := by
    rw [hnext]
    rcases List.mem_append.mp he with he | he
    · exact h.wd_lt e he
    · obtain ⟨watch, hwatch, hwd, -⟩ := (hevents e he).watch
      exact hwd ▸ hknown.wd_lt watch hwatch
  gone e he hmask watch hwatch := by
    rcases List.mem_append.mp he with he | he
    · exact h.gone e he hmask watch (hwatches watch hwatch)
    · exact hgone e he hmask watch hwatch
  last := by
    refine List.pairwise_append.mpr ⟨h.last, hlast, fun e he e' he' hmask => ?_⟩
    obtain ⟨watch, hwatch, hwd, -⟩ := (hevents e' he').watch
    exact hwd ▸ h.gone e he hmask watch hwatch

theorem pending_nil (sys : System) (directories : Table Nat Bytes) :
    Pending sys directories [] where
  known _ he := absurd he List.not_mem_nil
  names _ he := absurd he List.not_mem_nil
  wd_lt _ he := absurd he List.not_mem_nil
  gone _ he := absurd he List.not_mem_nil
  last := List.Pairwise.nil

theorem Pending.tail {e : Event} (h : Pending sys directories (e :: pending)) :
    Pending sys directories pending where
  known x hx := h.known x (List.mem_cons_of_mem _ hx)
  names x hx := h.names x (List.mem_cons_of_mem _ hx)
  wd_lt x hx := h.wd_lt x (List.mem_cons_of_mem _ hx)
  gone x hx := h.gone x (List.mem_cons_of_mem _ hx)
  last := (List.pairwise_cons.mp h.last).2

/-- Behind the last event of a watch the watch can be forgotten. -/
theorem Pending.erase {e : Event} (h : Pending sys directories (e :: pending))
    (hmask : e.mask = .ignored) : Pending sys (directories.erase e.wd) pending where
  known x hx := by
    obtain ⟨dir, hdir, hcreate⟩ := h.tail.known x hx
    have hne := (List.pairwise_cons.mp h.last).1 x hx hmask
    exact ⟨dir, (AList.lookup_erase_ne hne).trans hdir, hcreate⟩
  names := h.tail.names
  wd_lt := h.tail.wd_lt
  gone := h.tail.gone
  last := h.tail.last

/-- The events of a directory. -/
theorem ofWatch_notify {dir : List Bytes} {mask : Mask} {name : Option Bytes} {entry : Entry}
    (hentry : ∀ n ∈ entry.path, FileName n)
    (hcreate : mask = .create → ∃ n, name = some n ∧ entry.path = dir ++ [n]) {e : Event}
    (he : e ∈ sys.notify dir mask name entry) :
    OfWatch sys e ∧ e.mask = mask ∧ e.name = name ∧ e.entry = entry := by
  obtain ⟨watch, hwatch, rfl⟩ := List.mem_map.mp he
  obtain ⟨hmem, hpath⟩ := mem_of_watchAt (Option.mem_toList.mp hwatch)
  exact ⟨⟨⟨watch, hmem, rfl, fun hmask => hpath ▸ hcreate hmask⟩, hentry⟩, rfl, rfl, rfl⟩

/-! ## What other programs do to the watches -/

/-- A new entry has no watch, and has taken no number. -/
theorem Known.create (h : Known sys directories) {dir : List Bytes} {name : Bytes}
    {type : FileType} {parent : Node} (hname : FileName name) (hdir : sys.tree dir = some parent)
    (htype : parent.type = .directory) (hnew : sys.tree (dir ++ [name]) = none) :
    Known (sys.create dir name type) directories := by
  have htree : ∀ path, path ≠ dir ++ [name] →
      (sys.create dir name type).tree path = sys.tree path :=
    fun path hne => Function.update_of_ne hne _ _
  have hself : (sys.create dir name type).tree (dir ++ [name]) =
      some ⟨type, sys.created + 1⟩ := Function.update_self _ _ _
  -- what is there already is somewhere else
  have hold : ∀ path node, sys.tree path = some node → path ≠ dir ++ [name] := by
    rintro path node hnode rfl
    cases hnew.symm.trans hnode
  constructor
  · obtain ⟨node, hnode, hroot⟩ := h.root
    exact ⟨node, (htree _ (hold _ _ hnode)).trans hnode, hroot⟩
  · intro d n node hnode
    by_cases heq : d ++ [n] = dir ++ [name]
    · obtain ⟨rfl, hn⟩ := List.append_inj' heq rfl
      cases hn
      exact ⟨hname, parent, (htree _ (hold _ _ hdir)).trans hdir, htype⟩
    · rw [htree _ heq] at hnode
      obtain ⟨hn, p, hp, hptype⟩ := h.parent d n node hnode
      exact ⟨hn, p, (htree _ (hold _ _ hp)).trans hp, hptype⟩
  · intro path node hnode
    by_cases heq : path = dir ++ [name]
    · rw [heq, hself] at hnode
      cases hnode
      exact Nat.le_refl _
    · rw [htree _ heq] at hnode
      exact Nat.le_succ_of_le (h.id_le path node hnode)
  · intro watch hwatch
    obtain ⟨node, hnode, hid⟩ := h.watches watch hwatch
    exact ⟨node, (htree _ (hold _ _ hnode)).trans hnode, hid⟩
  · exact h.directories
  · exact h.wd_lt
  · exact h.wd_inj

theorem mem_watches_delete {dir : List Bytes} {name : Bytes} {node : Node} {ownFirst : Bool}
    {watch : Watch} : watch ∈ (sys.delete dir name node ownFirst).watches ↔
      watch ∈ sys.watches ∧ watch.entry ≠ ⟨dir ++ [name], node.id⟩ := by
  show watch ∈ sys.watches.filter _ ↔ _
  rw [List.mem_filter, decide_eq_true_iff]

/-- What is watched is not what was deleted. -/
theorem Known.ne_deleted (h : Known sys directories) {dir : List Bytes} {name : Bytes}
    {node : Node} (hnode : sys.tree (dir ++ [name]) = some node) {watch : Watch}
    (hwatch : watch ∈ sys.watches) (hne : watch.entry ≠ ⟨dir ++ [name], node.id⟩) :
    watch.entry.path ≠ dir ++ [name] := by
  intro hpath
  obtain ⟨node', hnode', hid⟩ := h.watches watch hwatch
  rw [hpath, hnode] at hnode'
  cases hnode'
  exact hne (by rw [← hpath, hid])

/-- What is deleted loses its watch; its number stays in the map and is not given again. -/
theorem Known.delete (h : Known sys directories) {dir : List Bytes} {name : Bytes} {node : Node}
    {ownFirst : Bool} (hnode : sys.tree (dir ++ [name]) = some node)
    (hempty : ∀ n, sys.tree (dir ++ [name] ++ [n]) = none) :
    Known (sys.delete dir name node ownFirst) directories := by
  have htree : ∀ path, path ≠ dir ++ [name] →
      (sys.delete dir name node ownFirst).tree path = sys.tree path :=
    fun path hne => Function.update_of_ne hne _ _
  have hself : (sys.delete dir name node ownFirst).tree (dir ++ [name]) = none :=
    Function.update_self _ _ _
  have hne : ∀ path n, (sys.delete dir name node ownFirst).tree path = some n →
      path ≠ dir ++ [name] := by
    rintro path n hn rfl
    cases hself.symm.trans hn
  constructor
  · obtain ⟨root, hroot, htype⟩ := h.root
    exact ⟨root, (htree _ (by simp)).trans hroot, htype⟩
  · intro d n x hx
    have hold := (htree _ (hne _ _ hx)).symm.trans hx
    obtain ⟨hn, p, hp, hptype⟩ := h.parent d n x hold
    refine ⟨hn, p, (htree _ ?_).trans hp, hptype⟩
    -- nothing was in it
    rintro rfl
    cases (hempty n).symm.trans hold
  · intro path x hx
    exact h.id_le path x ((htree _ (hne _ _ hx)).symm.trans hx)
  · intro watch hwatch
    obtain ⟨hmem, hentry⟩ := mem_watches_delete.mp hwatch
    obtain ⟨x, hx, hid⟩ := h.watches watch hmem
    exact ⟨x, (htree _ (h.ne_deleted hnode hmem hentry)).trans hx, hid⟩
  · exact fun watch hwatch => h.directories watch (mem_watches_delete.mp hwatch).1
  · exact fun watch hwatch => h.wd_lt watch (mem_watches_delete.mp hwatch).1
  · intro watch hwatch watch' hwatch'
    exact h.wd_inj watch (mem_watches_delete.mp hwatch).1 watch' (mem_watches_delete.mp hwatch').1

theorem Known.modify (h : Known sys directories) {dir : List Bytes} {name : Bytes} {node : Node}
    {ownFirst : Bool} : Known (sys.modify dir name node ownFirst) directories :=
  ⟨h.root, h.parent, h.id_le, h.watches, h.directories, h.wd_lt, h.wd_inj⟩

/-! ## What is added to the watches -/

/-- What a new watch changes. -/
structure Registered (sys : System) (directories : Table Nat Bytes) (path : List Bytes)
    (sys' : System) (directories' : Table Nat Bytes) : Prop where
  known : Known sys' directories'
  pending : ∀ pending, Pending sys directories pending → Pending sys' directories' pending
  tree : sys'.tree = sys.tree
  created : sys'.created = sys.created
  queue : sys'.queue = sys.queue
  watched : ∀ p, sys'.Watched p ↔ sys.Watched p ∨ p = path

/-- A directory is watched, or is so already. -/
theorem Known.watchDirectory {w : DirectoryWatcher} (h : Known sys w.directories)
    {fsPath : Bytes} {node : Node} (hnode : sys.tree (w.names fsPath) = some node) :
    ∃ sys' directories', w.watchDirectory sys fsPath (render (w.names fsPath)) =
        some (sys', { w with directories := directories' }) ∧
      Registered sys w.directories (w.names fsPath) sys' directories' := by
  generalize hpath : w.names fsPath = path at hnode
  cases hwatch : sys.watchAt path with
  -- the directory has a watch already, and the map gets the entry that it has
  | some watch =>
    obtain ⟨hmem, hwatched⟩ := mem_of_watchAt hwatch
    have hlookup : ∀ wd, (w.directories.insert watch.wd (render path)).lookup wd =
        w.directories.lookup wd := by
      have hsame := h.directories watch hmem
      rw [hwatched] at hsame
      exact fun wd => AList.perm_lookup (Table.insert_perm hsame)
    refine ⟨sys, w.directories.insert watch.wd (render path), ?_, ?_⟩
    · rw [DirectoryWatcher.watchDirectory, hpath, System.addWatch, hnode]
      simp only [Option.map_some, hwatch]
    · constructor
      · exact ⟨h.root, h.parent, h.id_le, h.watches,
          fun x hx => (hlookup _).trans (h.directories x hx), h.wd_lt, h.wd_inj⟩
      · intro pending hpending
        refine ⟨fun e he => ?_, hpending.names, hpending.wd_lt, hpending.gone, hpending.last⟩
        rw [hlookup]
        exact hpending.known e he
      · rfl
      · rfl
      · rfl
      · intro p
        constructor
        · exact Or.inl
        · rintro (hp | rfl)
          · exact hp
          · exact ⟨watch, hmem, hwatched⟩
  -- the watch is new, and so is its number: no event has it yet
  | none =>
    let new : Watch := ⟨sys.nextWd, ⟨path, node.id⟩⟩
    have hmem : ∀ x, x ∈ sys.watches ++ [new] → x ∈ sys.watches ∨ x = new := by
      intro x hx
      exact (List.mem_append.mp hx).imp id List.mem_singleton.mp
    have hlookup : ∀ wd, wd < sys.nextWd →
        (w.directories.insert sys.nextWd (render path)).lookup wd = w.directories.lookup wd :=
      fun wd hwd => AList.lookup_insert_ne (Nat.ne_of_lt hwd)
    refine ⟨{ sys with watches := sys.watches ++ [new], nextWd := sys.nextWd + 1 },
      w.directories.insert sys.nextWd (render path), ?_, ?_⟩
    · rw [DirectoryWatcher.watchDirectory, hpath, System.addWatch, hnode]
      simp only [Option.map_some, hwatch, new]
    · constructor
      · constructor
        · exact h.root
        · exact h.parent
        · exact h.id_le
        · intro x hx
          rcases hmem x hx with hx | rfl
          · exact h.watches x hx
          · exact ⟨node, hnode, rfl⟩
        · intro x hx
          rcases hmem x hx with hx | rfl
          · exact (hlookup _ (h.wd_lt x hx)).trans (h.directories x hx)
          · exact AList.lookup_insert _
        · intro x hx
          rcases hmem x hx with hx | rfl
          · exact Nat.lt_succ_of_lt (h.wd_lt x hx)
          · exact Nat.lt_succ_self _
        · intro x hx y hy heq
          rcases hmem x hx with hx | rfl
          · rcases hmem y hy with hy | rfl
            · exact h.wd_inj x hx y hy heq
            · exact absurd heq (Nat.ne_of_lt (h.wd_lt x hx))
          · rcases hmem y hy with hy | rfl
            · exact absurd heq.symm (Nat.ne_of_lt (h.wd_lt y hy))
            · rfl
      · intro pending hpending
        constructor
        · intro e he
          rw [hlookup _ (hpending.wd_lt e he)]
          exact hpending.known e he
        · exact hpending.names
        · exact fun e he => Nat.lt_succ_of_lt (hpending.wd_lt e he)
        · intro e he hmask x hx
          rcases hmem x hx with hx | rfl
          · exact hpending.gone e he hmask x hx
          · exact (Nat.ne_of_lt (hpending.wd_lt e he)).symm
        · exact hpending.last
      · rfl
      · rfl
      · rfl
      · intro p
        constructor
        · rintro ⟨x, hx, rfl⟩
          rcases hmem x hx with hx | rfl
          · exact Or.inl ⟨x, hx, rfl⟩
          · exact Or.inr rfl
        · rintro (⟨x, hx, rfl⟩ | rfl)
          · exact ⟨x, List.mem_append_left _ hx, rfl⟩
          · exact ⟨new, List.mem_append_right _ List.mem_cons_self, rfl⟩

/-- Events of watches that stay. -/
theorem pairwise_of_mask {events : List Event} (h : ∀ e ∈ events, e.mask ≠ .ignored) :
    events.Pairwise fun e e' => e.mask = .ignored → e'.wd ≠ e.wd := by
  refine List.pairwise_iff_forall_sublist.mpr fun {e e'} hsub hmask => ?_
  exact absurd hmask (h e (hsub.subset List.mem_cons_self))

/-- The event for a new entry has the number of the watch on its directory, which is in the map. -/
theorem Pending.create (h : Pending sys directories pending) (hknown : Known sys directories)
    {dir : List Bytes} {name : Bytes} {type : FileType} {parent : Node} (hname : FileName name)
    (hdir : sys.tree dir = some parent) :
    Pending (sys.create dir name type) directories
      (pending ++ sys.notify dir .create (some name) ⟨dir ++ [name], sys.created + 1⟩) := by
  have hnames : ∀ n ∈ dir ++ [name], FileName n :=
    List.forall_mem_append.mpr ⟨hknown.names hdir, List.forall_mem_singleton.mpr hname⟩
  have hevents : ∀ e ∈ sys.notify dir .create (some name) ⟨dir ++ [name], sys.created + 1⟩,
      OfWatch sys e ∧ e.mask = .create := by
    intro e he
    obtain ⟨hof, hmask, -, -⟩ := ofWatch_notify hnames (fun _ => ⟨name, rfl, rfl⟩) he
    exact ⟨hof, hmask⟩
  have hmask : ∀ e ∈ sys.notify dir .create (some name) ⟨dir ++ [name], sys.created + 1⟩,
      e.mask ≠ .ignored := by
    intro e he heq
    cases heq.symm.trans (hevents e he).2
  have hwatches : ∀ watch ∈ (sys.create dir name type).watches, watch ∈ sys.watches :=
    fun watch hwatch => hwatch
  exact h.append hknown hwatches rfl (fun e he => (hevents e he).1)
    (fun e he heq => absurd heq (hmask e he)) (pairwise_of_mask hmask)

/-- The watch of an entry, which goes away with it. -/
theorem Known.entry_of_watchAt (h : Known sys directories) {path : List Bytes} {node : Node}
    (hnode : sys.tree path = some node) {watch : Watch} (hwatch : sys.watchAt path = some watch) :
    watch ∈ sys.watches ∧ watch.entry = ⟨path, node.id⟩ := by
  obtain ⟨hmem, hpath⟩ := mem_of_watchAt hwatch
  obtain ⟨node', hnode', hid⟩ := h.watches watch hmem
  rw [hpath, hnode] at hnode'
  cases hnode'
  refine ⟨hmem, ?_⟩
  rw [hid, ← hpath]

/-- In whichever order the events of an entry and of its directory are. -/
theorem mem_or_mem_of_mem_ite {ownFirst : Bool} {own events : List Event} {e : Event}
    (he : e ∈ if ownFirst then own ++ events else events ++ own) : e ∈ own ∨ e ∈ events := by
  split_ifs at he
  · exact List.mem_append.mp he
  · exact (List.mem_append.mp he).symm

/-- A deletion makes events for the directory and, if it was watched, for the entry itself. None of
them is a creation. -/
theorem Pending.delete (h : Pending sys directories pending) (hknown : Known sys directories)
    {dir : List Bytes} {name : Bytes} {node : Node} {ownFirst : Bool}
    (hnode : sys.tree (dir ++ [name]) = some node) :
    ∃ events, (sys.delete dir name node ownFirst).queue = sys.queue ++ events ∧
      (∀ e ∈ events, e.mask ≠ .create) ∧
      Pending (sys.delete dir name node ownFirst) directories (pending ++ events) := by
  have hnames := hknown.names hnode
  generalize hevents : sys.notify dir .delete (some name) ⟨dir ++ [name], node.id⟩ = events
  generalize hown : (sys.watchAt (dir ++ [name])).toList.map
    (fun watch => (⟨watch.wd, .ignored, none, ⟨dir ++ [name], node.id⟩⟩ : Event)) = own
  have hmem : ∀ e ∈ events, OfWatch sys e ∧ e.mask = .delete ∧ ∃ watch ∈ sys.watches,
      e.wd = watch.wd ∧ watch.entry.path = dir := by
    intro e he
    rw [← hevents] at he
    obtain ⟨hof, hmask, -⟩ := ofWatch_notify hnames (fun h => by cases h) he
    obtain ⟨watch, hwatch, rfl⟩ := List.mem_map.mp he
    obtain ⟨hmem, hpath⟩ := mem_of_watchAt (Option.mem_toList.mp hwatch)
    exact ⟨hof, hmask, watch, hmem, rfl, hpath⟩
  have hmemOwn : ∀ e ∈ own, OfWatch sys e ∧ e.mask = .ignored ∧ ∃ watch ∈ sys.watches,
      e.wd = watch.wd ∧ watch.entry = ⟨dir ++ [name], node.id⟩ := by
    intro e he
    rw [← hown] at he
    obtain ⟨watch, hwatch, rfl⟩ := List.mem_map.mp he
    obtain ⟨hmem, hentry⟩ := hknown.entry_of_watchAt hnode (Option.mem_toList.mp hwatch)
    exact ⟨⟨⟨watch, hmem, rfl, nofun⟩, hnames⟩, rfl, watch, hmem, rfl, hentry⟩
  -- a directory is not watched by the watch of what is in it
  have hcross : ∀ e ∈ own, ∀ e' ∈ events, e'.wd ≠ e.wd := by
    intro e he e' he' heq
    obtain ⟨-, -, watch, hwatch, hwd, hentry⟩ := hmemOwn e he
    obtain ⟨-, -, watch', hwatch', hwd', hpath⟩ := hmem e' he'
    rw [hwd, hwd'] at heq
    rw [hknown.wd_inj watch' hwatch' watch hwatch heq, hentry] at hpath
    simp at hpath
  have hlastOwn : own.Pairwise fun e e' => e.mask = .ignored → e'.wd ≠ e.wd := by
    rw [← hown]
    cases sys.watchAt (dir ++ [name]) with
    | none => exact List.Pairwise.nil
    | some watch => exact List.pairwise_singleton _ _
  have hlastEvents : events.Pairwise fun e e' => e.mask = .ignored → e'.wd ≠ e.wd :=
    pairwise_of_mask fun e he hmask => by cases hmask.symm.trans (hmem e he).2.1
  refine ⟨if ownFirst then own ++ events else events ++ own, ?_, ?_, ?_⟩
  · show sys.queue ++ _ = _
    rw [hevents, hown]
  · intro e he hmask
    rcases mem_or_mem_of_mem_ite he with he' | he'
    · cases hmask.symm.trans (hmemOwn e he').2.1
    · cases hmask.symm.trans (hmem e he').2.1
  · refine h.append hknown (fun watch hwatch => (mem_watches_delete.mp hwatch).1) rfl ?_ ?_ ?_
    · intro e he
      exact (mem_or_mem_of_mem_ite he).elim (fun he => (hmemOwn e he).1) fun he => (hmem e he).1
    · intro e he hmask watch hwatch heq
      obtain ⟨hold, hne⟩ := mem_watches_delete.mp hwatch
      rcases mem_or_mem_of_mem_ite he with he | he
      · obtain ⟨-, -, watch', hwatch', hwd, hentry⟩ := hmemOwn e he
        rw [hknown.wd_inj watch hold watch' hwatch' (heq.trans hwd)] at hne
        exact hne hentry
      · cases hmask.symm.trans (hmem e he).2.1
    · split_ifs
      · exact List.pairwise_append.mpr
          ⟨hlastOwn, hlastEvents, fun e he e' he' _ => hcross e he e' he'⟩
      · refine List.pairwise_append.mpr ⟨hlastEvents, hlastOwn, fun e he e' he' hmask => ?_⟩
        cases hmask.symm.trans (hmem e he).2.1

/-- A modification makes events of the same two kinds. -/
theorem Pending.modify (h : Pending sys directories pending) (hknown : Known sys directories)
    {dir : List Bytes} {name : Bytes} {node : Node} {ownFirst : Bool}
    (hnode : sys.tree (dir ++ [name]) = some node) :
    ∃ events, (sys.modify dir name node ownFirst).queue = sys.queue ++ events ∧
      (∀ e ∈ events, e.mask ≠ .create) ∧
      Pending (sys.modify dir name node ownFirst) directories (pending ++ events) := by
  have hnames := hknown.names hnode
  generalize hevents : (sys.notify dir .modify (some name) ⟨dir ++ [name], node.id⟩).flatMap
    sys.merge = events
  generalize hown : (sys.notify (dir ++ [name]) .modify none ⟨dir ++ [name], node.id⟩).flatMap
    sys.merge = own
  have hmerge : ∀ d n, ∀ e ∈ (sys.notify d .modify n ⟨dir ++ [name], node.id⟩).flatMap sys.merge,
      OfWatch sys e ∧ e.mask = .modify := by
    intro d n e he
    obtain ⟨e', he', hmem⟩ := List.mem_flatMap.mp he
    rw [System.merge] at hmem
    split_ifs at hmem
    · cases hmem
    · rw [List.mem_singleton.mp hmem]
      obtain ⟨hof, hmask, -⟩ := ofWatch_notify hnames (fun h => by cases h) he'
      exact ⟨hof, hmask⟩
  have hall : ∀ e ∈ if ownFirst then own ++ events else events ++ own,
      OfWatch sys e ∧ e.mask = .modify := by
    intro e he
    rcases mem_or_mem_of_mem_ite he with he | he
    · exact hmerge _ _ e (hown ▸ he)
    · exact hmerge _ _ e (hevents ▸ he)
  have hmask : ∀ mask, mask ≠ .modify → ∀ e ∈ if ownFirst then own ++ events else events ++ own,
      e.mask ≠ mask := by
    intro mask hne e he heq
    exact hne (heq.symm.trans (hall e he).2)
  have hwatches : ∀ watch ∈ (sys.modify dir name node ownFirst).watches, watch ∈ sys.watches :=
    fun watch hwatch => hwatch
  refine ⟨if ownFirst then own ++ events else events ++ own, ?_, hmask .create nofun, ?_⟩
  · show sys.queue ++ _ = _
    rw [hevents, hown]
  · exact h.append hknown hwatches rfl (fun e he => (hall e he).1)
      (fun e he heq => absurd heq (hmask .ignored nofun e he))
      (pairwise_of_mask (hmask .ignored nofun))

/-! ## Reports -/

/-- What holds of the entries that are announced: those that are reported, and those that
will be. An entry is if the directory that it is in is watched; what is there from the start
is in a watched one. -/
structure Reports (sys : System) (announced : List Entry) : Prop where
  nodup : announced.Nodup
  id_le : ∀ entry ∈ announced, entry.id ≤ sys.created
  mem_iff : ∀ dir name node, sys.tree (dir ++ [name]) = some node → 1 ≤ node.id →
    (⟨dir ++ [name], node.id⟩ ∈ announced ↔ sys.Watched dir)
  initial : ∀ dir name node, sys.tree (dir ++ [name]) = some node → node.id = 0 → sys.Watched dir

/-- The entry of a creation event. -/
def Event.created? (e : Event) : Option Entry := if e.mask = .create then some e.entry else none

/-- The entry of a change that says it was added. -/
def DirectoryChange.added? (change : DirectoryChange) : Option Entry :=
  if change.action = .added then some change.entry else none

/-- A directory announces what is created in it if it is watched. -/
theorem filterMap_notify_create (h : Known sys directories) (dir : List Bytes)
    (name : Option Bytes) (entry : Entry) :
    ((sys.notify dir .create name entry).filterMap Event.created? = [entry] ∧ sys.Watched dir) ∨
      ((sys.notify dir .create name entry).filterMap Event.created? = [] ∧ ¬sys.Watched dir) := by
  rw [← h.watchAt_isSome, System.notify]
  cases sys.watchAt dir with
  | none => exact Or.inr ⟨rfl, nofun⟩
  | some watch => exact Or.inl ⟨rfl, rfl⟩

theorem filterMap_created_eq_nil {events : List Event} (h : ∀ e ∈ events, e.mask ≠ .create) :
    events.filterMap Event.created? = [] :=
  List.filterMap_eq_nil_iff.mpr fun e he => if_neg (h e he)

variable {announced : List Entry}

/-- An entry that is created in a watched directory is announced by the event for it, under the
number that it has been given. -/
theorem Reports.create (h : Reports sys announced) (hknown : Known sys directories)
    {dir : List Bytes} {name : Bytes} {type : FileType}
    (hnew : sys.tree (dir ++ [name]) = none) :
    Reports (sys.create dir name type) (announced ++
      (sys.notify dir .create (some name) ⟨dir ++ [name], sys.created + 1⟩).filterMap
        Event.created?) := by
  have htree : ∀ path, path ≠ dir ++ [name] →
      (sys.create dir name type).tree path = sys.tree path :=
    fun path hne => Function.update_of_ne hne _ _
  have hself : (sys.create dir name type).tree (dir ++ [name]) =
      some ⟨type, sys.created + 1⟩ := Function.update_self _ _ _
  -- its number is new
  have hfresh : ⟨dir ++ [name], sys.created + 1⟩ ∉ announced :=
    fun hmem => Nat.not_succ_le_self _ (h.id_le _ hmem)
  have hinitial : ∀ d n node, (sys.create dir name type).tree (d ++ [n]) = some node →
      node.id = 0 → sys.Watched d := by
    intro d n node hnode hid
    by_cases heq : d ++ [n] = dir ++ [name]
    · rw [heq, hself] at hnode
      cases hnode
      cases hid
    · exact h.initial d n node ((htree _ heq).symm.trans hnode) hid
  rcases filterMap_notify_create hknown dir (some name) ⟨dir ++ [name], sys.created + 1⟩ with
    ⟨hevents, hwatched⟩ | ⟨hevents, hwatched⟩
  · rw [hevents]
    constructor
    · exact List.nodup_append.mpr ⟨h.nodup, List.nodup_singleton _, by
        rintro a ha b hb rfl
        exact hfresh (List.mem_singleton.mp hb ▸ ha)⟩
    · intro entry hentry
      rcases List.mem_append.mp hentry with hentry | hentry
      · exact Nat.le_succ_of_le (h.id_le entry hentry)
      · rw [List.mem_singleton.mp hentry]
        exact Nat.le_refl _
    · intro d n node hnode hid
      by_cases heq : d ++ [n] = dir ++ [name]
      · obtain ⟨rfl, hn⟩ := List.append_inj' heq rfl
        cases hn
        cases hself.symm.trans hnode
        exact iff_of_true (List.mem_append_right _ List.mem_cons_self) hwatched
      · rw [htree _ heq] at hnode
        rw [List.mem_append, h.mem_iff d n node hnode hid, List.mem_singleton]
        refine or_iff_left fun hentry => heq (congrArg Entry.path hentry)
    · exact hinitial
  · rw [hevents, List.append_nil]
    constructor
    · exact h.nodup
    · exact fun entry hentry => Nat.le_succ_of_le (h.id_le entry hentry)
    · intro d n node hnode hid
      by_cases heq : d ++ [n] = dir ++ [name]
      · obtain ⟨rfl, hn⟩ := List.append_inj' heq rfl
        cases hn
        cases hself.symm.trans hnode
        exact iff_of_false hfresh hwatched
      · rw [htree _ heq] at hnode
        exact h.mem_iff d n node hnode hid
    · exact hinitial

/-- The other watches stay. -/
theorem watched_delete {dir : List Bytes} {name : Bytes} {node : Node} {ownFirst : Bool}
    {path : List Bytes} (hne : path ≠ dir ++ [name]) :
    (sys.delete dir name node ownFirst).Watched path ↔ sys.Watched path := by
  constructor
  · rintro ⟨watch, hwatch, hpath⟩
    exact ⟨watch, (mem_watches_delete.mp hwatch).1, hpath⟩
  · rintro ⟨watch, hwatch, hpath⟩
    refine ⟨watch, mem_watches_delete.mpr ⟨hwatch, fun hentry => hne ?_⟩, hpath⟩
    rw [← hpath, hentry]

/-- A deletion takes back no announcement, and the entry is not there any more. -/
theorem Reports.delete (h : Reports sys announced) {dir : List Bytes} {name : Bytes}
    {node : Node} {ownFirst : Bool} (hempty : ∀ n, sys.tree (dir ++ [name] ++ [n]) = none) :
    Reports (sys.delete dir name node ownFirst) announced := by
  -- what is there afterwards was there before, in a directory that is still there
  have hold : ∀ d n x, (sys.delete dir name node ownFirst).tree (d ++ [n]) = some x →
      sys.tree (d ++ [n]) = some x ∧ d ≠ dir ++ [name] := by
    intro d n x hx
    have hne : d ++ [n] ≠ dir ++ [name] := by
      intro heq
      rw [heq, show (sys.delete dir name node ownFirst).tree (dir ++ [name]) = none from
        Function.update_self _ _ _] at hx
      cases hx
    have hold : sys.tree (d ++ [n]) = some x := (Function.update_of_ne hne _ _).symm.trans hx
    refine ⟨hold, ?_⟩
    rintro rfl
    cases (hempty n).symm.trans hold
  constructor
  · exact h.nodup
  · exact h.id_le
  · intro d n x hx hid
    obtain ⟨hx, hne⟩ := hold d n x hx
    rw [h.mem_iff d n x hx hid, watched_delete hne]
  · intro d n x hx hid
    obtain ⟨hx, hne⟩ := hold d n x hx
    exact (watched_delete hne).mpr (h.initial d n x hx hid)

end

end Watching

end Zippylog
