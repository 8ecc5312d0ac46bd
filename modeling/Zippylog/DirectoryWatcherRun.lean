import Zippylog.DirectoryWatcherEvents

/-!
# Runs of a directory watcher

A run is steps of the watcher and of other programs in any order: an entry is created, changed or
deleted, the watcher is called, or one of its calls handles an event, which can take several calls
of the system with something between any two of them. What holds throughout is `State.Inv`: the
map of watches is right, every entry of a watched directory has exactly one report or event that
announces it, and every directory below a watched one is watched or is still going to be looked at.

- `State.Meets`: the condition of a step. When an event is handled its path exists; when a directory
  is added to the watches it still exists, and it has no entries unless it is watched already.
- `Inv.create`, `Inv.delete`, `Inv.modify`, `Inv.event`, `Inv.watch` and the like: a lemma for each
  kind of step.
- `State.Inv.step`: the invariant is kept by the steps that meet the condition.
-/

namespace Zippylog

open Wire Platform

namespace Watching

namespace Phase

/-- The events that are read and not handled. -/
def buffer : Phase → List Event
  | reading buffer => buffer
  | watching _ buffer => buffer
  | _ => []

/-- The change that is not collected yet. -/
def change : Phase → List DirectoryChange
  | watching change _ => [change]
  | _ => []

end Phase

namespace State

variable (s : State)

def pending : List Event := s.phase.buffer ++ s.sys.queue

/-- The changes that were found. -/
def found : List DirectoryChange := s.returned ++ s.watcher.changes ++ s.phase.change

/-- The changes that are reported. -/
def reported : List DirectoryChange := s.returned ++ s.watcher.changes

def announced : List Entry :=
  s.found.filterMap DirectoryChange.added? ++ s.pending.filterMap Event.created?

/-- The paths that are still looked at. -/
def expected : List (List Bytes) :=
  s.phase.change.map (fun change => change.entry.path) ++
    (s.pending.filterMap Event.created?).map Entry.path

/-- What holds of a watcher in all states. -/
structure Inv (s : State) : Prop where
  known : Known s.sys s.watcher.directories
  pending : Pending s.sys s.watcher.directories s.pending
  reports : Reports s.sys s.announced
  paths : ∀ change ∈ s.found, change.action = .added → change.path = render change.entry.path
  change : ∀ change ∈ s.phase.change, change.action = .added ∧
    ∀ name ∈ change.entry.path, FileName name
  dirs : ∀ dir name node, s.sys.tree (dir ++ [name]) = some node → node.type = .directory →
    s.sys.Watched dir → s.sys.Watched (dir ++ [name]) ∨ dir ++ [name] ∈ s.expected
  recurse : s.watcher.recurse = true
  phase : s.phase ≠ .thrown
  root : s.sys.Watched []

variable {s : State}

/-! ### Steps of other programs -/

section

variable {sys' : System} {events : List Event}

theorem pending_append (hqueue : sys'.queue = s.sys.queue ++ events) :
    pending { s with sys := sys' } = s.pending ++ events := by
  rw [pending, pending, hqueue, List.append_assoc]

theorem announced_append (hqueue : sys'.queue = s.sys.queue ++ events) :
    announced { s with sys := sys' } = s.announced ++ events.filterMap Event.created? := by
  rw [announced, announced, pending_append hqueue, List.filterMap_append, List.append_assoc]
  rfl

theorem expected_append (hqueue : sys'.queue = s.sys.queue ++ events) :
    expected { s with sys := sys' } =
      s.expected ++ (events.filterMap Event.created?).map Entry.path := by
  rw [expected, expected, pending_append hqueue, List.filterMap_append, List.map_append,
    List.append_assoc]

end

/-- Another program makes an entry: if its directory is watched, an event for it waits. -/
theorem Inv.create (h : s.Inv) {dir : List Bytes} {name : Bytes} {type : FileType} {parent : Node}
    (hname : FileName name) (hdir : s.sys.tree dir = some parent)
    (htype : parent.type = .directory) (hnew : s.sys.tree (dir ++ [name]) = none) :
    Inv { s with sys := s.sys.create dir name type } := by
  have hqueue : (s.sys.create dir name type).queue = s.sys.queue ++
      s.sys.notify dir .create (some name) ⟨dir ++ [name], s.sys.created + 1⟩ := rfl
  constructor
  · exact h.known.create hname hdir htype hnew
  · rw [pending_append hqueue]
    exact h.pending.create h.known hname hdir
  · rw [announced_append hqueue]
    exact h.reports.create h.known hnew
  · exact h.paths
  · exact h.change
  · intro d n node hnode hdirectory hwatched
    rw [expected_append hqueue]
    by_cases heq : d ++ [n] = dir ++ [name]
    · obtain ⟨rfl, hn⟩ := List.append_inj' heq rfl
      cases hn
      rcases filterMap_notify_create h.known d (some name) ⟨d ++ [name], s.sys.created + 1⟩ with
        ⟨hevents, -⟩ | ⟨-, hnot⟩
      · rw [hevents]
        exact Or.inr (List.mem_append_right _ List.mem_cons_self)
      · exact absurd hwatched hnot
    · have hold : s.sys.tree (d ++ [n]) = some node :=
        (Function.update_of_ne heq _ _).symm.trans hnode
      exact (h.dirs d n node hold hdirectory hwatched).imp id (List.mem_append_left _)
  · exact h.recurse
  · exact h.phase
  · exact h.root

/-- Another program removes an entry that has nothing in it. -/
theorem Inv.delete (h : s.Inv) {dir : List Bytes} {name : Bytes} {node : Node} {ownFirst : Bool}
    (hnode : s.sys.tree (dir ++ [name]) = some node)
    (hempty : ∀ n, s.sys.tree (dir ++ [name] ++ [n]) = none) :
    Inv { s with sys := s.sys.delete dir name node ownFirst } := by
  obtain ⟨events, hqueue, hmask, hpending⟩ := h.pending.delete h.known hnode
  have hcreated := filterMap_created_eq_nil hmask
  constructor
  · exact h.known.delete hnode hempty
  · rw [pending_append hqueue]
    exact hpending
  · rw [announced_append hqueue, hcreated, List.append_nil]
    exact h.reports.delete hempty
  · exact h.paths
  · exact h.change
  · intro d n x hx hdirectory hwatched
    have hne : d ++ [n] ≠ dir ++ [name] := by
      intro heq
      have hself : (s.sys.delete dir name node ownFirst).tree (dir ++ [name]) = none :=
        Function.update_self _ _ _
      rw [← heq] at hself
      cases hself.symm.trans hx
    have hold : s.sys.tree (d ++ [n]) = some x := (Function.update_of_ne hne _ _).symm.trans hx
    have hdne : d ≠ dir ++ [name] := by
      rintro rfl
      cases (hempty n).symm.trans hold
    rw [expected_append hqueue, hcreated, List.map_nil, List.append_nil]
    exact (h.dirs d n x hold hdirectory ((watched_delete hdne).mp hwatched)).imp
      (watched_delete hne).mpr id
  · exact h.recurse
  · exact h.phase
  · exact (watched_delete (by simp)).mpr h.root

/-- Another program writes to an entry. -/
theorem Inv.modify (h : s.Inv) {dir : List Bytes} {name : Bytes} {node : Node} {ownFirst : Bool}
    (hnode : s.sys.tree (dir ++ [name]) = some node) :
    Inv { s with sys := s.sys.modify dir name node ownFirst } := by
  obtain ⟨events, hqueue, hmask, hpending⟩ := h.pending.modify h.known hnode
  have hcreated := filterMap_created_eq_nil hmask
  constructor
  · exact h.known.modify
  · rw [pending_append hqueue]
    exact hpending
  · rw [announced_append hqueue, hcreated, List.append_nil]
    exact ⟨h.reports.nodup, h.reports.id_le, h.reports.mem_iff, h.reports.initial⟩
  · exact h.paths
  · exact h.change
  · rw [expected_append hqueue, hcreated, List.map_nil, List.append_nil]
    exact h.dirs
  · exact h.recurse
  · exact h.phase
  · exact h.root

/-! ### Steps of the watcher -/

/-- Events and changes that only move from one place to the next. -/
theorem Inv.move (h : s.Inv) {s' : State} {queue : List Event}
    (hsys : s'.sys = { s.sys with queue := queue })
    (hdirectories : s'.watcher.directories = s.watcher.directories)
    (hrecurse : s'.watcher.recurse = s.watcher.recurse) (hpending : s'.pending = s.pending)
    (hfound : s'.found = s.found) (hchange : s'.phase.change = s.phase.change)
    (hphase : s'.phase ≠ .thrown) : s'.Inv := by
  have hknown := h.known
  have hevents := h.pending
  have hreports := h.reports
  constructor
  · rw [hsys, hdirectories]
    exact ⟨hknown.root, hknown.parent, hknown.id_le, hknown.watches, hknown.directories,
      hknown.wd_lt, hknown.wd_inj⟩
  · rw [hsys, hdirectories, hpending]
    exact ⟨hevents.known, hevents.names, hevents.wd_lt, hevents.gone, hevents.last⟩
  · rw [hsys, announced, hfound, hpending]
    exact ⟨hreports.nodup, hreports.id_le, hreports.mem_iff, hreports.initial⟩
  · rw [hfound]
    exact h.paths
  · rw [hchange]
    exact h.change
  · rw [hsys, expected, hchange, hpending]
    exact h.dirs
  · rw [hrecurse]
    exact h.recurse
  · exact hphase
  · rw [hsys]
    exact h.root

/-- The watcher reads what waits, and goes on to handle it. -/
theorem Inv.waitForChanges (h : s.Inv) (hphase : s.phase = .idle) (count : Nat) :
    (s.waitForChanges count).Inv := by
  rw [State.waitForChanges]
  split_ifs
  · exact h
  · refine h.move rfl rfl rfl ?_ ?_ ?_ nofun
    · rw [State.pending, State.pending, hphase]
      exact List.take_append_drop _ _
    · rw [found, found, hphase]
      rfl
    · rw [hphase]
      rfl

theorem Inv.getChanges (h : s.Inv) : s.getChanges.Inv := by
  have hsys : s.getChanges.sys = { s.sys with queue := s.sys.queue } := rfl
  refine h.move hsys rfl rfl rfl ?_ rfl h.phase
  rw [found, found, State.getChanges, List.append_nil]

/-- The path that `stat` is about to look at. -/
def statPath? (s : State) (behind : Bytes) : Option (List Bytes) :=
  match s.phase with
  | .reading (e :: _) =>
    if e.mask = .create then
      (s.watcher.directories.lookup e.wd).map fun dir =>
        s.watcher.names (pathJoin s.watcher.path (pathJoin dir (e.name.getD behind)))
    else none
  | _ => none

/-- The path that is about to be watched. -/
def watchPath? (s : State) : Option (List Bytes) :=
  match s.phase with
  | .watching change _ => some (s.watcher.names (pathJoin s.watcher.path change.path))
  | _ => none

/-- What `stat` looks at is there. What is watched is there, and there is nothing in it yet
unless it is watched already. -/
def Meets (s : State) : Action → Prop
  | .event behind => ∀ path ∈ s.statPath? behind, (s.sys.tree path).isSome
  | .watch => ∀ path ∈ s.watchPath?, (s.sys.tree path).isSome ∧
      ((s.sys.watchAt path).isSome ∨ ∀ name, s.sys.tree (path ++ [name]) = none)
  | _ => True

theorem pending_reading {e : Event} {buffer : List Event}
    (hphase : s.phase = .reading (e :: buffer)) : s.pending = e :: (buffer ++ s.sys.queue) := by
  rw [State.pending, hphase]
  rfl

/-- An event is handled: its change is pushed. -/
theorem Inv.push (h : s.Inv) {e : Event} {buffer : List Event}
    (hphase : s.phase = .reading (e :: buffer)) {change : DirectoryChange}
    (hentry : change.added? = e.created?)
    (hpath : change.action = .added → change.path = render change.entry.path)
    (hdir : e.mask = .create → ∀ node, s.sys.tree e.entry.path = some node →
      node.type ≠ .directory) :
    (s.push change buffer).Inv := by
  have hpending : s.pending = e :: (s.push change buffer).pending := pending_reading hphase
  have hfound : (s.push change buffer).found = s.found ++ [change] := by
    rw [found, found, hphase, State.push]
    simp [Phase.change]
  -- the event goes and its change comes, which announce the same
  have hannounced : (s.push change buffer).announced = s.announced := by
    rw [announced, announced, hfound, hpending, List.filterMap_append, List.append_assoc]
    congr 1
    cases hcreated : e.created? with
    | none =>
      rw [List.filterMap_cons_none hcreated, List.filterMap_cons_none (hentry.trans hcreated)]
      rfl
    | some entry =>
      rw [List.filterMap_cons_some hcreated, List.filterMap_cons_some (hentry.trans hcreated)]
      rfl
  have hevents := h.pending
  rw [hpending] at hevents
  constructor
  · exact h.known
  · exact hevents.tail
  · rw [hannounced]
    exact h.reports
  · rw [hfound]
    exact List.forall_mem_append.mpr ⟨h.paths, List.forall_mem_singleton.mpr hpath⟩
  · exact fun c hc => absurd hc List.not_mem_nil
  · intro dir name node hnode hdirectory hwatched
    refine (h.dirs dir name node hnode hdirectory hwatched).imp id fun hmem => ?_
    rw [expected, hpending, hphase] at hmem
    rw [expected]
    cases hcreated : e.created? with
    | none =>
      rw [List.filterMap_cons_none hcreated] at hmem
      exact hmem
    | some entry =>
      rw [Event.created?] at hcreated
      split_ifs at hcreated with hmask
      cases hcreated
      have hcreated : e.created? = some e.entry := if_pos hmask
      rw [List.filterMap_cons_some hcreated] at hmem
      -- the event that was handled is for no directory
      rcases List.mem_cons.mp hmem with heq | hmem
      · rw [heq] at hnode
        exact absurd hdirectory (hdir hmask node hnode)
      · exact hmem
  · exact h.recurse
  · exact nofun
  · exact h.root

/-- The watch of an event is known. -/
theorem Inv.lookup (h : s.Inv) {e : Event} {buffer : List Event}
    (hphase : s.phase = .reading (e :: buffer)) :
    ∃ dir, s.watcher.directories.lookup e.wd = some (render dir) ∧
      (e.mask = .create → ∃ name, e.name = some name ∧ e.entry.path = dir ++ [name]) := by
  refine h.pending.known e ?_
  rw [pending_reading hphase]
  exact List.mem_cons_self

/-- A watch that is gone is forgotten. -/
theorem Inv.ignored (h : s.Inv) {e : Event} {buffer : List Event}
    (hphase : s.phase = .reading (e :: buffer)) (hmask : e.mask = .ignored) :
    Inv { s with
      watcher := { s.watcher with directories := s.watcher.directories.erase e.wd }
      phase := .reading buffer } := by
  have hpending := pending_reading hphase
  have hevents := h.pending
  rw [hpending] at hevents
  have hcreated : e.created? = none := if_neg (by rw [hmask]; exact nofun)
  have hknown := h.known
  have hgone := hevents.gone e List.mem_cons_self hmask
  constructor
  · exact ⟨hknown.root, hknown.parent, hknown.id_le, hknown.watches,
      fun watch hwatch => (AList.lookup_erase_ne (hgone watch hwatch)).trans
        (hknown.directories watch hwatch), hknown.wd_lt, hknown.wd_inj⟩
  · exact hevents.erase hmask
  · have hannounced := h.reports
    rw [announced, hpending, List.filterMap_cons_none hcreated, found, hphase] at hannounced
    exact hannounced
  · have hpaths := h.paths
    rw [found, hphase] at hpaths
    exact hpaths
  · exact fun c hc => absurd hc List.not_mem_nil
  · have hdirs := h.dirs
    rw [expected, hpending, List.filterMap_cons_none hcreated, hphase] at hdirs
    exact hdirs
  · exact h.recurse
  · exact nofun
  · exact h.root

/-- A new directory is about to be watched. -/
theorem Inv.directory (h : s.Inv) {e : Event} {buffer : List Event}
    (hphase : s.phase = .reading (e :: buffer)) (hmask : e.mask = .create) :
    Inv { s with phase := .watching ⟨render e.entry.path, .added, e.entry⟩ buffer } := by
  have hpending := pending_reading hphase
  have hcreated : e.created? = some e.entry := if_pos hmask
  have hfound : s.found = s.reported := by
    rw [found, hphase]
    exact List.append_nil _
  have hevents := h.pending
  rw [hpending] at hevents
  constructor
  · exact h.known
  · exact hevents.tail
  · have hreports := h.reports
    rw [announced, hpending, List.filterMap_cons_some hcreated, hfound] at hreports
    rw [announced, found, List.filterMap_append, List.append_assoc]
    exact hreports
  · have hpaths := h.paths
    rw [hfound] at hpaths
    exact List.forall_mem_append.mpr ⟨hpaths, List.forall_mem_singleton.mpr fun _ => rfl⟩
  · exact List.forall_mem_singleton.mpr ⟨rfl, hevents.names e List.mem_cons_self⟩
  · have hdirs := h.dirs
    rw [expected, hpending, List.filterMap_cons_some hcreated, hphase] at hdirs
    exact hdirs
  · exact h.recurse
  · exact nofun
  · exact h.root

/-- The entry of a creation event is what `stat` looks at. -/
theorem Inv.names_event (h : s.Inv) {e : Event} {buffer : List Event}
    (hphase : s.phase = .reading (e :: buffer)) :
    s.watcher.names (pathJoin s.watcher.path (render e.entry.path)) = e.entry.path := by
  refine s.watcher.names_pathJoin (h.pending.names e ?_)
  rw [pending_reading hphase]
  exact List.mem_cons_self

/-- The watcher handles one event. What it asks `stat` for is there: that is the condition. -/
theorem Inv.event (h : s.Inv) {behind : Bytes} (hmeets : s.Meets (.event behind)) :
    (s.event behind).Inv := by
  rw [State.event]
  split
  · rename_i hphase
    refine h.move (show _ = { s.sys with queue := s.sys.queue } from rfl) rfl rfl ?_ ?_ ?_ nofun
    · rw [State.pending, State.pending, hphase]
      rfl
    · rw [found, found, hphase]
      rfl
    · rw [hphase]
      rfl
  · rename_i e buffer hphase
    obtain ⟨dir, hlookup, hcreate⟩ := h.lookup hphase
    have hnot : e.mask ≠ .create → e.created? = none := fun hmask => if_neg hmask
    rw [hlookup]
    cases hmask : e.mask with
    -- the system has taken the watch away, and its number leaves the map
    | ignored => exact h.ignored hphase hmask
    -- a new entry is looked at with `stat`: a directory is to be watched as well
    | create =>
      obtain ⟨name, hname, hentry⟩ := hcreate hmask
      have hpath : pathJoin (render dir) (e.name.getD behind) = render e.entry.path := by
        rw [hname, hentry, ← pathJoin_render]
        rfl
      have hstat : s.statPath? behind = some e.entry.path := by
        rw [statPath?, hphase]
        dsimp only
        rw [if_pos hmask, hlookup, Option.map_some, hpath, h.names_event hphase]
      obtain ⟨node, hnode⟩ := Option.isSome_iff_exists.mp (hmeets _ hstat)
      dsimp only
      rw [hpath, h.names_event hphase, hnode]
      dsimp only
      split_ifs with hdirectory
      · exact h.directory hphase hmask
      · refine h.push hphase ?_ (fun _ => rfl) ?_
        · rw [Event.created?, if_pos hmask]
          rfl
        · intro _ node' hnode' htype
          cases hnode.symm.trans hnode'
          exact hdirectory ⟨htype, h.recurse⟩
    | delete =>
      refine h.push hphase (hnot (by rw [hmask]; exact nofun)).symm (fun h => by cases h) ?_
      exact fun heq => by cases hmask.symm.trans heq
    | modify =>
      refine h.push hphase (hnot (by rw [hmask]; exact nofun)).symm (fun h => by cases h) ?_
      exact fun heq => by cases hmask.symm.trans heq
  · exact h

section

variable {change : DirectoryChange} {buffer : List Event}

/-- What is about to be watched is the entry of the change. -/
theorem Inv.watchPath (h : s.Inv) (hphase : s.phase = .watching change buffer) :
    change.path = render change.entry.path ∧
      s.watcher.names (pathJoin s.watcher.path (render change.entry.path)) = change.entry.path ∧
      s.watchPath? = some change.entry.path := by
  have hmem : change ∈ s.phase.change := by
    rw [hphase]
    exact List.mem_cons_self
  obtain ⟨haction, hnames⟩ := h.change change hmem
  have hpath := h.paths change (List.mem_append_right _ hmem) haction
  have hjoin := s.watcher.names_pathJoin hnames
  refine ⟨hpath, hjoin, ?_⟩
  rw [watchPath?, hphase]
  dsimp only
  rw [hpath, hjoin]

theorem watch_eq (hphase : s.phase = .watching change buffer) :
    s.watch = match s.watcher.watchDirectory s.sys (pathJoin s.watcher.path change.path)
        change.path with
      | none => { s with phase := .thrown }
      | some (sys, w) => State.push { s with sys := sys, watcher := w } change buffer := by
  rw [State.watch.eq_def]
  generalize s.phase = phase at hphase
  subst hphase
  rfl

theorem pending_push (hphase : s.phase = .watching change buffer) {sys' : System}
    (hqueue : sys'.queue = s.sys.queue) (directories' : Table Nat Bytes) :
    State.pending (State.push
      { s with sys := sys', watcher := { s.watcher with directories := directories' } }
      change buffer) = s.pending := by
  rw [State.pending, State.pending, hphase]
  show buffer ++ sys'.queue = _
  rw [hqueue]
  rfl

theorem found_push (hphase : s.phase = .watching change buffer) (sys' : System)
    (directories' : Table Nat Bytes) :
    State.found (State.push
      { s with sys := sys', watcher := { s.watcher with directories := directories' } }
      change buffer) = s.found := by
  rw [found, found, hphase]
  simp [State.push, Phase.change]

end

/-- The watcher adds a directory, which is there, and is watched already or has nothing in it yet.
-/
theorem Inv.watch (h : s.Inv) (hmeets : s.Meets .watch) : s.watch.Inv := by
  rw [State.watch]
  split
  · rename_i change buffer hphase
    obtain ⟨hpath, hjoin, hwatch⟩ := h.watchPath hphase
    obtain ⟨hsome, hempty⟩ := hmeets _ hwatch
    obtain ⟨node, hnode⟩ := Option.isSome_iff_exists.mp hsome
    rw [← hjoin] at hnode
    -- the directory is there, so it is registered, now or already
    obtain ⟨sys', directories', hregister, hregistered⟩ := h.known.watchDirectory hnode
    rw [hjoin] at hregister hregistered
    rw [hpath, hregister]
    have hpending := pending_push hphase hregistered.queue directories'
    have hfound := found_push hphase sys' directories'
    constructor
    · exact hregistered.known
    · rw [hpending]
      exact hregistered.pending _ h.pending
    · rw [announced, hfound, hpending]
      refine ⟨h.reports.nodup, ?_, ?_, ?_⟩
      · show ∀ entry ∈ s.announced, entry.id ≤ sys'.created
        rw [hregistered.created]
        exact h.reports.id_le
      · intro dir name x hx hid
        have hold : s.sys.tree (dir ++ [name]) = some x := hregistered.tree ▸ hx
        refine (h.reports.mem_iff dir name x hold hid).trans ?_
        refine Iff.trans ?_ (hregistered.watched dir).symm
        constructor
        · exact Or.inl
        · rintro (hwatched | rfl)
          · exact hwatched
          · rcases hempty with hwatched | hempty
            · exact h.known.watchAt_isSome.mp hwatched
            · cases (hempty name).symm.trans hold
      · intro dir name x hx hid
        have hold : s.sys.tree (dir ++ [name]) = some x := hregistered.tree ▸ hx
        exact (hregistered.watched dir).mpr (Or.inl (h.reports.initial dir name x hold hid))
    · rw [hfound]
      exact h.paths
    · exact fun c hc => absurd hc List.not_mem_nil
    · intro dir name x hx hdirectory hwatched
      have hold : s.sys.tree (dir ++ [name]) = some x := hregistered.tree ▸ hx
      -- the directory that is watched now, and those that are still to be looked at
      by_cases heq : dir ++ [name] = change.entry.path
      · exact Or.inl ((hregistered.watched _).mpr (Or.inr heq))
      · have hwatched' : s.sys.Watched dir := by
          rcases (hregistered.watched dir).mp hwatched with hwatched | rfl
          · exact hwatched
          · rcases hempty with hwatched | hempty
            · exact h.known.watchAt_isSome.mp hwatched
            · cases (hempty name).symm.trans hold
        refine (h.dirs dir name x hold hdirectory hwatched').imp
          (fun hw => (hregistered.watched _).mpr (Or.inl hw)) fun hmem => ?_
        rw [expected, hphase] at hmem
        rw [expected, hpending]
        exact (List.mem_cons.mp hmem).resolve_left heq
    · exact h.recurse
    · exact nofun
    · exact (hregistered.watched []).mpr (Or.inl h.root)
  · exact h

/-- **The step lemma**: one case for each thing that can happen. -/
theorem Inv.step (h : s.Inv) {a : Action} {s' : State} (hstep : Step s a s') (hmeets : s.Meets a) :
    s'.Inv := by
  cases hstep with
  | create hname hdir htype hnew => exact h.create hname hdir htype hnew
  | delete hnode hempty => exact h.delete hnode hempty
  | modify hnode htype => exact h.modify hnode
  | waitForChanges hphase => exact h.waitForChanges hphase _
  | event hphase => exact h.event hmeets
  | watch hphase => exact h.watch hmeets
  | getChanges hphase => exact h.getChanges

end State

end Watching

end Zippylog
