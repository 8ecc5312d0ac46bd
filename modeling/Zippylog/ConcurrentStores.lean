import Zippylog.Interleaving
import Zippylog.StoreAccess

/-!
# Stores on the same directory

Any number of `SimpleDirectoryStore`s with one root, such as the log store of a server and
the one of its store writer. Each writes one envelope after the other, to any stream sets,
and between two file calls of one the others go on. What is wanted is that none of them notices:
a bucket or a stream set that another store has made is as good as one's own.

- A call is one step. Whether there is a directory or a file is answered as it is then; the
  time is anything.
- What is written goes to the end of a file that is open. It makes no directory, and is left
  out: an envelope is lost when `WriteEnvelope` does not come to an open file.
- `correct_iff_not_overtaken`: the stores do as they should in just the runs where none comes
  to make, or to open, what another one has made in the meantime. `MakeDirectory` looks whether the
  directory is there, and takes any failure of the `mkdir` behind that for one.
-/

namespace Zippylog

open Wire Platform

theorem Platform.makeDirectory_cases (fs : FileSystem) (path : Bytes) :
    (resolve path ∉ fs.directories ∧ makeDirectory fs path =
      (true, { fs with directories := resolve path :: fs.directories })) ∨
    makeDirectory fs path = (false, fs) := by
  simp only [makeDirectory]
  split_ifs with h
  · exact .inl ⟨h.2.1, rfl⟩
  · exact .inr rfl

namespace StoreAccess

/-! ## The disk -/

/-- A file system, with the directories that were made and by which store. -/
structure Disk (ι : Type) where
  fs : FileSystem
  made : List (ι × List Bytes)
  made_mem : ∀ m ∈ made, m.2 ∈ fs.directories

namespace Disk

variable {ι : Type}

/-- A file system before any store made a directory. -/
def ofFileSystem (fs : FileSystem) : Disk ι where
  fs := fs
  made := []
  made_mem := fun _ hm => absurd hm List.not_mem_nil

/-- Another store has made this directory. -/
def MadeByOther (i : ι) (d : Disk ι) (path : Bytes) : Prop :=
  ∃ j, j ≠ i ∧ (j, resolve path) ∈ d.made

/-- What there is at a path. -/
def fileType? (d : Disk ι) (path : Bytes) : Option FileType :=
  if Platform.pathIsDirectory d.fs path then some .directory
  else (d.fs.files.lookup (resolve path)).map fun _ => .regular

/-- A store makes a directory: what `mkdir` answers, and the disk then. -/
def mkdir (i : ι) (d : Disk ι) (path : Bytes) : Bool × Disk ι :=
  if h : (Platform.makeDirectory d.fs path).1 = true then
    (true,
      { fs := (Platform.makeDirectory d.fs path).2
        made := (i, resolve path) :: d.made
        made_mem := by
          obtain ⟨-, heq⟩ | heq := makeDirectory_cases d.fs path
          · rw [heq]
            exact List.forall_mem_cons.mpr ⟨List.mem_cons_self,
              fun m hm => List.mem_cons_of_mem _ (d.made_mem m hm)⟩
          · rw [heq] at h
            cases h })
  else (false, d)

/-- A file is opened to append: whether it opens, and the disk then. -/
def openAppend (d : Disk ι) (path : Bytes) : Bool × Disk ι :=
  match openFile d.fs path with
  | none => (false, d)
  | some content =>
    (true,
      { d with
        fs := { d.fs with files := d.fs.files.insert (resolve path) (content.getD []) } })

/-- A call of a store. -/
inductive Call (i : ι) (d : Disk ι) : (op : FileCall) → FileAnswer op → Disk ι → Prop where
  | stat (path : Bytes) (size : Int) : Call i d (.stat path)
      ((d.fileType? path).isSome, ⟨(d.fileType? path).getD .unknown, size⟩) d
  | readdir (path : Bytes) (entries : Option (List DirectoryEntry)) :
      Call i d (.readdir path) entries d
  | mkdir (path : Bytes) : Call i d (.mkdir path) (d.mkdir i path).1 (d.mkdir i path).2
  | openRead (path : Bytes) (content : Option Bytes) : Call i d (.openRead path) content d
  | openAppend (path : Bytes) :
      Call i d (.openAppend path) (d.openAppend path).1 (d.openAppend path).2
  | gettimeofday (time : Int) : Call i d .gettimeofday time d

/-! ### What calls do to the disk -/

variable {i j : ι} {d d' d'' : Disk ι} {path : Bytes}

/-- A directory is made where there is none and its parent is one; otherwise nothing changes. -/
theorem mkdir_cases (i : ι) (d : Disk ι) (path : Bytes) :
    (resolve path ∉ d.fs.directories ∧ (d.mkdir i path).1 = true ∧
      (d.mkdir i path).2.fs = { d.fs with directories := resolve path :: d.fs.directories } ∧
      (d.mkdir i path).2.made = (i, resolve path) :: d.made) ∨
    d.mkdir i path = (false, d) := by
  obtain ⟨hnot, heq⟩ | heq := makeDirectory_cases d.fs path
  · have htrue : (Platform.makeDirectory d.fs path).1 = true := by rw [heq]
    simp only [mkdir, dif_pos htrue]
    exact .inl ⟨hnot, trivial, by rw [heq], trivial⟩
  · have hfalse : ¬ (Platform.makeDirectory d.fs path).1 = true := by
      rw [heq]
      exact Bool.false_ne_true
    exact .inr (dif_neg hfalse)

theorem mkdir_of_mem (h : resolve path ∈ d.fs.directories) : d.mkdir i path = (false, d) := by
  obtain ⟨hnot, -⟩ | heq := mkdir_cases i d path
  · exact absurd h hnot
  · exact heq

/-- A file is opened or made in a directory that is there; otherwise nothing changes. -/
theorem openAppend_cases (d : Disk ι) (path : Bytes) :
    (resolve path ∉ d.fs.directories ∧ (d.openAppend path).1 = true ∧
      (d.openAppend path).2.made = d.made ∧
      ∃ content, (d.openAppend path).2.fs =
        { d.fs with files := d.fs.files.insert (resolve path) content }) ∨
    d.openAppend path = (false, d) := by
  rw [openAppend]
  cases hopen : openFile d.fs path with
  | none => exact .inr rfl
  | some content =>
    refine .inl ⟨?_, rfl, rfl, _, rfl⟩
    intro hmem
    rw [openFile, if_pos hmem] at hopen
    cases hopen

theorem openAppend_of_mem (h : resolve path ∈ d.fs.directories) :
    d.openAppend path = (false, d) := by
  obtain ⟨hnot, -⟩ | heq := openAppend_cases d path
  · exact absurd h hnot
  · exact heq

/-- What the other stores do, as a store sees it. -/
structure Grows (i : ι) (d d' : Disk ι) : Prop where
  directories : ∀ p ∈ d.fs.directories, p ∈ d'.fs.directories
  files : ∀ p ∈ d.fs.files, p ∈ d'.fs.files
  made : ∀ m ∈ d.made, m ∈ d'.made
  madeByOther : ∀ p ∈ d'.fs.directories, p ∈ d.fs.directories ∨ ∃ j, j ≠ i ∧ (j, p) ∈ d'.made

theorem Grows.refl (i : ι) (d : Disk ι) : Grows i d d where
  directories _ hp := hp
  files _ hp := hp
  made _ hm := hm
  madeByOther _ hp := .inl hp

theorem Grows.trans (h : Grows i d d') (h' : Grows i d' d'') : Grows i d d'' where
  directories p hp := h'.directories p (h.directories p hp)
  files p hp := h'.files p (h.files p hp)
  made m hm := h'.made m (h.made m hm)
  madeByOther p hp := by
    obtain hp' | hother := h'.madeByOther p hp
    · exact (h.madeByOther p hp').imp_right fun ⟨j, hj, hm⟩ => ⟨j, hj, h'.made _ hm⟩
    · exact .inr hother

/-- What another store makes is made for this one. -/
theorem grows_mkdir (hj : j ≠ i) : Grows i d (d.mkdir j path).2 := by
  obtain ⟨-, -, hfs, hmade⟩ | heq := mkdir_cases j d path
  · constructor
    · exact fun p hp => hfs ▸ List.mem_cons_of_mem _ hp
    · exact fun p hp => hfs ▸ hp
    · exact fun m hm => hmade ▸ List.mem_cons_of_mem _ hm
    · intro p hp
      rw [hfs] at hp
      rw [hmade]
      obtain rfl | hp := List.mem_cons.mp hp
      · exact .inr ⟨j, hj, List.mem_cons_self⟩
      · exact .inl hp
  · rw [heq]
    exact .refl i d

/-- A file that is opened makes no directory. -/
theorem grows_openAppend : Grows i d (d.openAppend path).2 := by
  obtain ⟨-, -, hmade, content, hfs⟩ | heq := openAppend_cases d path
  · constructor
    · exact fun p hp => hfs ▸ hp
    · exact fun p hp => hfs ▸ (AList.mem_insert _).mpr (.inr hp)
    · exact fun m hm => hmade ▸ hm
    · intro p hp
      rw [hfs] at hp
      exact .inl hp
  · rw [heq]
    exact .refl i d

theorem Call.grows {op : FileCall} {x : FileAnswer op} (h : Call j d op x d') (hj : j ≠ i) :
    Grows i d d' := by
  cases h with
  | stat | readdir | openRead | gettimeofday => exact .refl i d
  | mkdir path => exact grows_mkdir hj
  | openAppend path => exact grows_openAppend

theorem getD_fileType?_eq_directory_iff :
    (d.fileType? path).getD .unknown = .directory ↔ resolve path ∈ d.fs.directories := by
  by_cases hdir : resolve path ∈ d.fs.directories
  · simp [fileType?, Platform.pathIsDirectory, hdir]
  · cases hfile : d.fs.files.lookup (resolve path) <;>
      simp [fileType?, Platform.pathIsDirectory, hdir, hfile]

theorem isSome_fileType?_of_mem (h : resolve path ∈ d.fs.files) :
    (d.fileType? path).isSome = true := by
  rw [fileType?]
  split_ifs
  · rfl
  · rw [Option.isSome_map]
    exact AList.lookup_isSome.mpr h

theorem MadeByOther.mem (h : d.MadeByOther i path) : resolve path ∈ d.fs.directories := by
  obtain ⟨j, -, hm⟩ := h
  exact d.made_mem _ hm

end Disk

/-! ## Stores at work -/

/-- The path that a call makes something at. -/
def creates? : FileCall → Option Bytes
  | .mkdir path | .openAppend path => some path
  | _ => none

/-- It was not made. -/
def Refused : (op : FileCall) → FileAnswer op → Prop
  | .mkdir _, made => made = false
  | .openAppend _, opened => opened = false
  | _, _ => False

section

variable (ι : Type)

abbrev DiskCall := Program.Call (Disk ι) FileCall FileAnswer

/-- Stores with the writes they have done, and the one each is doing. -/
abbrev Stores := Program.Shared ι (Disk ι) FileCall FileAnswer (WriteResult × List Bytes)

abbrev Write := Program.Job (Disk ι) FileCall FileAnswer (WriteResult × List Bytes)

end

variable {ι : Type}

/-- What a store does, amid what the others do. Where a directory cannot be made because
there is one, it was made by another store. -/
def setting (i : ι) : Program.Setting (Disk ι) FileCall FileAnswer where
  env := Disk.Call i
  rely := Disk.Grows i
  refused := Refused
  assured d op _ := ∀ path, op = .mkdir path → resolve path ∈ d.fs.directories →
    d.MadeByOther i path
  rely_refl := Disk.Grows.refl i
  rely_trans := Disk.Grows.trans

/-- The streams that are open after some writes. -/
def openedAfter : List (Write ι) → List Bytes
  | ⟨_, .done (_, opened)⟩ :: _ => opened
  | _ => []

/-- The next write of a store: to any stream set. -/
def NextWrite (root : Bytes) (_ : ι) (writes : List (Write ι))
    (p : FileProgram (WriteResult × List Bytes)) : Prop :=
  ∃ bucket set, p = writeEnvelope root bucket set (openedAfter writes)

/-- Stores that have done nothing. -/
def Stores.initial (fs : FileSystem) : Stores ι where
  state := .ofFileSystem fs
  jobs _ := []

/-- The states that stores come to, from a file system on. -/
def Stores.Reachable [DecidableEq ι] (root : Bytes) (fs : FileSystem) : Stores ι → Prop :=
  Relation.ReflTransGen (Program.Shared.Step (NextWrite root) setting) (.initial fs)

/-- The call comes to make something where another store has made a directory. -/
def Overtaken (i : ι) (c : DiskCall ι) : Prop :=
  ∃ path, creates? c.op = some path ∧ c.before.MadeByOther i path

/-- The call was refused, and not because another store has made a directory there. -/
def Obstructed (i : ι) (c : DiskCall ι) : Prop := Refused c.op c.answer ∧ ¬ Overtaken i c

/-- No write fails because another store was first, and to make a directory that exists
succeeds. -/
structure Stores.Correct (w : Stores ι) : Prop where
  written : ∀ i, ∀ write ∈ w.jobs i, ∀ result opened, write.rest = .done (result, opened) →
    result = .written ∨ ∃ c ∈ write.calls, Obstructed i c
  created : ∀ i, ∀ write ∈ w.jobs i, ∀ c ∈ write.calls, ∀ path, c.op = .mkdir path →
    resolve path ∈ c.before.fs.directories → ¬ Refused c.op c.answer

/-! ### What a write does amid others -/

/-- The results of a write that did not come to a file, and of one that did. -/
def NotWritten (r : WriteResult × List Bytes) : Prop := r.1 ≠ .written

def Written (_ : Disk ι) (r : WriteResult × List Bytes) : Prop := r.1 = .written

variable {i : ι} {d : Disk ι} {root bucket set stream path : Bytes}

theorem stat_amid : (stat path).Amid (setting i) (fun _ => False)
    (fun t x => Disk.Grows i d t ∧ x.1 = (t.fileType? path).isSome ∧
      (x.2.type = .directory ↔ resolve path ∈ t.fs.directories)) d := by
  refine .ask_of_not (fun t ht x t' hx p hp => ?_) (fun x hx => hx) (fun t ht x t' hx => ?_)
  · cases hp
  · cases hx with
    | stat size => exact ⟨ht, rfl, Disk.getD_fileType?_eq_directory_iff⟩

theorem pathIsDirectory_amid : (pathIsDirectory path).Amid (setting i) (fun _ => False)
    (fun t a => a = false → resolve path ∉ t.fs.directories) d := by
  refine stat_amid.bind (fun a ha => ha.elim) fun t a ha => ?_
  intro hfalse hmem
  exact of_decide_eq_false hfalse (ha.2.2.mpr hmem)

/-- After the directory was not there: if it is now, another store has made it. -/
theorem makeDirectory_amid (h : resolve path ∉ d.fs.directories) :
    (makeDirectory path).Amid (setting i) (· = false) (fun _ a => a = true) d := by
  refine .ask (fun t ht x t' hx p hp hmem => ?_) (fun x hx => hx) (fun t ht x t' hx hr => ?_)
  · cases hp
    exact (ht.madeByOther _ hmem).resolve_left h
  · exact Bool.not_eq_false _ |>.mp hr

theorem ensure_amid : (ensure (pathIsDirectory path) (makeDirectory path)).Amid (setting i)
    (· = false) (fun _ a => a = true) d := by
  refine pathIsDirectory_amid.bind (fun a ha => ha.elim) fun t a ha => ?_
  cases a with
  | true => exact rfl
  | false => exact makeDirectory_amid (ha rfl)

/-- The file that was opened stays, so that it can be looked at. -/
theorem openOutputStream_amid : (openOutputStream path).Amid (setting i) (· ≠ .written)
    (fun _ r => r = .written) d := by
  have hopen : (askFile (.openAppend path)).Amid (setting i) (· = false)
      (fun t a => a = true ∧ resolve path ∈ t.fs.files) d := by
    refine .ask (fun t ht x t' hx p hp => ?_) (fun x hx => hx) (fun t ht x t' hx hr => ?_)
    · cases hp
    · cases hx with
      | openAppend =>
        refine ⟨Bool.not_eq_false _ |>.mp hr, ?_⟩
        obtain ⟨-, -, -, content, hfs⟩ | heq := Disk.openAppend_cases t path
        · rw [hfs]
          exact (AList.mem_insert _).mpr (.inl rfl)
        · rw [heq] at hr
          exact absurd rfl hr
  refine hopen.bind ?_ fun t a ha => ?_
  · rintro a rfl
    exact ⟨_, rfl, nofun⟩
  · obtain ⟨rfl, hfile⟩ := ha
    refine stat_amid.bind (fun a ha => ha.elim) fun t' (ok, st) hx => ?_
    obtain ⟨ht, hok, -⟩ := hx
    obtain rfl : ok = true := hok.trans (Disk.isSome_fileType?_of_mem (ht.files _ hfile))
    exact rfl

/-- The bucket, the stream set and the file, one behind the other, with the other stores going on in
between. -/
theorem createOutputStream_amid : (createOutputStream root bucket set stream).Amid (setting i)
    (· ≠ .written) (fun _ r => r = .written) d := by
  have hstop : ∀ (p : FileProgram WriteResult) (a : Bool), a = false →
      ∃ r, (if a = true then p else .done .failed) = .done r ∧ r ≠ .written := by
    rintro p a rfl
    exact ⟨.failed, rfl, nofun⟩
  refine ensure_amid.bind (hstop _) fun t a ha => ?_
  subst ha
  refine ensure_amid.bind (hstop _) fun t a ha => ?_
  subst ha
  exact openOutputStream_amid

/-- **A write amid others**: what is refused ends it, and nothing else fails. -/
theorem writeEnvelope_amid (root bucket set : Bytes) (opened : List Bytes) :
    (writeEnvelope root bucket set opened).Amid (setting i) NotWritten Written d := by
  have htime : (askFile .gettimeofday).Amid (setting i) (fun _ => False) (fun _ _ => True) d :=
    .ask_of_not (fun t ht x t' hx p hp => nomatch hp) (fun x hx => hx) (fun _ _ _ _ _ => trivial)
  refine htime.bind (fun a ha => ha.elim) fun t time _ => ?_
  obtain ⟨stream, hstream⟩ : ∃ stream,
      Store.streamNameForTime (unixMicroTimeToZippyTime time) 3600 = .ok stream := by
    rw [Store.streamNameForTime, if_neg (by decide), if_pos rfl]
    exact ⟨_, rfl⟩
  simp only [hstream]
  split_ifs
  · exact rfl
  · refine createOutputStream_amid.bind (fun r hr => ?_) fun t' r hr => ?_
    · cases r with
      | written => exact absurd rfl hr
      | failed | threw => exact ⟨_, rfl, nofun⟩
    · subst hr
      exact rfl

/-- A call that comes to make something where there is a directory is refused. -/
theorem refused_of_mem {d' : Disk ι} {op : FileCall} {x : FileAnswer op}
    (h : Disk.Call i d op x d') (hop : creates? op = some path)
    (hmem : resolve path ∈ d.fs.directories) : Refused op x := by
  cases h with
  | stat | readdir | openRead | gettimeofday => cases hop
  | mkdir path' =>
    cases hop
    exact congrArg Prod.fst (Disk.mkdir_of_mem hmem)
  | openAppend path' =>
    cases hop
    exact congrArg Prod.fst (Disk.openAppend_of_mem hmem)

/-! ## Runs -/

section

variable [DecidableEq ι] {fs : FileSystem} {w : Stores ι}

theorem Stores.Reachable.sound (h : Stores.Reachable root fs w) :
    Program.Shared.Sound setting NotWritten Written w := by
  refine Program.Shared.Sound.run (fun i j hj s op x t hx => Disk.Call.grows hx hj) ?_ ?_ h
  · rintro i writes p ⟨bucket, set, rfl⟩ d
    exact writeEnvelope_amid root bucket set _
  · exact fun i => ⟨nofun, nofun, nofun⟩

/-- **A write fails by one refused call**, its last one. -/
theorem Stores.Reachable.refused_cases (h : Stores.Reachable root fs w) {write : Write ι}
    (hwrite : write ∈ w.jobs i) :
    (∃ c ∈ write.calls, Refused c.op c.answer ∧
      (∀ c' ∈ write.calls, Refused c'.op c'.answer → c' = c) ∧
      ∃ result opened, write.rest = .done (result, opened) ∧ result ≠ .written) ∨
    ((∀ c ∈ write.calls, ¬ Refused c.op c.answer) ∧
      ∀ result opened, write.rest = .done (result, opened) → result = .written) := by
  cases (h.sound i).sound write hwrite with
  | going hcalls => exact .inr ⟨hcalls, nofun⟩
  | ended hcalls ha =>
    refine .inr ⟨hcalls, fun result opened hrest => ?_⟩
    cases hrest
    exact ha
  | @stopped c calls a hc hcalls ha =>
    refine .inl ⟨c, List.mem_cons_self, hc, ?_, a.1, a.2, rfl, ha⟩
    refine List.forall_mem_cons.mpr ⟨fun _ => rfl, fun c' hc' hrefused => ?_⟩
    exact absurd hrefused (hcalls c' hc')

theorem Stores.Reachable.refused_of_overtaken (h : Stores.Reachable root fs w)
    {write : Write ι} (hwrite : write ∈ w.jobs i) {c : DiskCall ι} (hc : c ∈ write.calls)
    (hover : Overtaken i c) : Refused c.op c.answer := by
  obtain ⟨path, hop, hmade⟩ := hover
  obtain ⟨⟨d', hcall⟩, -⟩ := (h.sound i).assured write hwrite c hc
  exact refused_of_mem hcall hop hmade.mem

/-- **The stores do as they should just when none is overtaken**: in a run, no write fails
because another store has made the directory first, and no `mkdir` fails where the directory
is, if and only if no call of the run comes to make something where another store has made a
directory. -/
theorem Stores.correct_iff_not_overtaken (root : Bytes) (fs : FileSystem) (w : Stores ι)
    (h : Stores.Reachable root fs w) :
    w.Correct ↔ ∀ i, ∀ write ∈ w.jobs i, ∀ c ∈ write.calls, ¬ Overtaken i c := by
  constructor
  · intro hcorrect i write hwrite c hc hover
    have hrefused := h.refused_of_overtaken hwrite hc hover
    obtain ⟨c₀, hc₀, -, hunique, result, opened, hrest, hresult⟩ | ⟨hnone, -⟩ :=
      h.refused_cases hwrite
    · -- the write is over, and for no other reason
      obtain ⟨c', hc', hrefused', hnot⟩ :=
        (hcorrect.written i write hwrite result opened hrest).resolve_left hresult
      obtain rfl := (hunique c hc hrefused).trans (hunique c' hc' hrefused').symm
      exact hnot hover
    · exact hnone c hc hrefused
  · intro hnone
    constructor
    · intro i write hwrite result opened hrest
      obtain ⟨c, hc, hrefused, -⟩ | ⟨-, hwritten⟩ := h.refused_cases hwrite
      · exact .inr ⟨c, hc, hrefused, hnone i write hwrite c hc⟩
      · exact .inl (hwritten result opened hrest)
    · intro i write hwrite c hc path hop hmem
      obtain ⟨-, hassured⟩ := (h.sound i).assured write hwrite c hc
      have hover : Overtaken i c := ⟨path, by rw [hop]; rfl, hassured path hop hmem⟩
      exact absurd hover (hnone i write hwrite c hc)

theorem Stores.Reachable.initial (root : Bytes) (fs : FileSystem) :
    Stores.Reachable root fs (Stores.initial fs : Stores ι) := .refl

theorem Stores.Reachable.write (h : Stores.Reachable root fs w) (i : ι) (bucket set : Bytes)
    (hover : ∀ write ∈ (w.jobs i).head?, write.Over) :
    Stores.Reachable root fs { w with
      jobs := Function.update w.jobs i
        (⟨[], writeEnvelope root bucket set (openedAfter (w.jobs i))⟩ :: w.jobs i) } :=
  h.tail (.start hover ⟨bucket, set, rfl⟩)

theorem Stores.Reachable.call (h : Stores.Reachable root fs w) (i : ι)
    {calls : List (DiskCall ι)} {op : FileCall}
    {next : FileAnswer op → FileProgram (WriteResult × List Bytes)} {writes : List (Write ι)}
    {x : FileAnswer op} {d : Disk ι} (hjobs : w.jobs i = ⟨calls, .call op next⟩ :: writes)
    (hx : Disk.Call i w.state op x d) :
    Stores.Reachable root fs
      ⟨d, Function.update w.jobs i (⟨⟨w.state, op, x⟩ :: calls, next x⟩ :: writes)⟩ :=
  h.tail (.call hjobs hx)

end

/-- The directory of a store, and nothing in it. -/
def emptyStore : FileSystem where
  directories := [[], [str "store"]]
  files := ∅

/-- A store writes, and makes the bucket. -/
theorem Stores.correct_alone : ∃ w : Stores Bool, Stores.Reachable (str "/store") emptyStore w ∧
    w.state.made = [(false, [str "store", str "zippylog"])] ∧ w.Correct := by
  have h₁ := (Stores.Reachable.initial (str "/store") emptyStore).write false
    (str "zippylog") (str "server") nofun
  have h₂ := h₁.call false rfl (.gettimeofday 0)
  have h₃ := h₂.call false rfl (.stat _ 0)
  have h₄ := h₃.call false rfl (.mkdir _)
  refine ⟨_, h₄, by decide, (Stores.correct_iff_not_overtaken _ _ _ h₄).mpr ?_⟩
  -- at each call nothing was made yet
  rintro i write hwrite c hc ⟨path, -, j, -, hmade⟩
  cases i with
  | true => exact List.not_mem_nil hwrite
  | false =>
    obtain rfl := List.mem_singleton.mp hwrite
    obtain rfl | hc := List.mem_cons.mp hc
    · exact List.not_mem_nil hmade
    obtain rfl | hc := List.mem_cons.mp hc
    · exact List.not_mem_nil hmade
    · obtain rfl := List.mem_singleton.mp hc
      exact List.not_mem_nil hmade

/-- Two stores write to two stream sets of a new bucket. Both look for the bucket before
either makes it: the second one does not make it, and its write fails. -/
theorem Stores.not_correct_race : ¬ ∀ w : Stores Bool,
    Stores.Reachable (str "/store") emptyStore w → w.Correct := by
  intro hall
  have h₁ := (Stores.Reachable.initial (str "/store") emptyStore).write false
    (str "zippylog") (str "server") nofun
  have h₂ := h₁.write true (str "zippylog") (str "client") nofun
  have h₃ := h₂.call false rfl (.gettimeofday 0)
  have h₄ := h₃.call false rfl (.stat _ 0)
  have h₅ := h₄.call true rfl (.gettimeofday 0)
  have h₆ := h₅.call true rfl (.stat _ 0)
  have h₇ := h₆.call false rfl (.mkdir _)
  have h₈ := h₇.call true rfl (.mkdir _)
  obtain hwritten | ⟨c, hc, hrefused, hnot⟩ :=
    (hall _ h₈).written true _ List.mem_cons_self .failed [] rfl
  · cases hwritten
  · obtain rfl | hc := List.mem_cons.mp hc
    · exact hnot ⟨_, rfl, false, nofun, by decide⟩
    obtain rfl | hc := List.mem_cons.mp hc
    · exact hrefused
    · obtain rfl := List.mem_singleton.mp hc
      exact hrefused

end StoreAccess

end Zippylog
