import Zippylog.SimpleDirectoryStore

/-!
# What a store writes

Every stream of a store has one file and at most one open stream, and what was
written to it is the file and what the stream has not written out yet
(`SimpleDirectoryStore.Holds`). A stream is named by the bucket, the stream set and
the hour counted from the epoch, and no two of them have one path: a path can be taken apart again,
and names of hours are different.

- `SimpleDirectoryStore.Holds.step`: the step lemma;
- `SimpleDirectoryStore.Holds.run`: the run lemma, for any calls in any order;
- `SimpleDirectoryStore.Holds.destroy`: what a destroyed store leaves behind, once all of its
  buffers are written out;
- `write_read_agreement`: from these, what can be read of a store that was destroyed.
-/

namespace Zippylog

open Wire Platform Calendar

/-! ## Names of streams -/

namespace Store

/-- The name of the stream of an hour, counted from the epoch: `YYYY-MM-DD-HH`. -/
def hourName (hour : Nat) : Bytes :=
  let date := Date.ofDays (hour / 24 : Nat)
  padded 4 date.year ++ dash :: (padded 2 date.mon ++ dash :: padded 2 date.mday) ++
    dash :: padded 2 (hour % 24)

/-- The hour of a time in microseconds. -/
def hourOf (time : Int) : Nat := (time / 3600000000).toNat

/-- The seconds since the epoch as a `Time` has them. -/
structure Clock (t : Time) (n : Nat) : Prop where
  year : t.year = (Date.ofDays (n / 86400 : Nat)).year
  mon : t.mon = (Date.ofDays (n / 86400 : Nat)).mon
  mday : t.mday = (Date.ofDays (n / 86400 : Nat)).mday
  hour : t.hour = n / 3600 % 24
  second : t.min * 60 + t.sec = n % 3600

/-- For times of 32 bits of seconds the broken-down time is that of the calendar. -/
theorem clock_unixMicroTimeToZippyTime {time : Int} (h0 : 0 ≤ time)
    (hlt : time < 2 ^ 31 * 1000000) :
    Clock (unixMicroTimeToZippyTime time) (time / 1000000).toNat := by
  obtain ⟨n, rfl⟩ := Int.eq_ofNat_of_zero_le h0
  have hsec : toInt32 ((n : Int).tdiv 1000000) = (n / 1000000 : Nat) := by
    have hdiv : (n : Int).tdiv 1000000 = (n / 1000000 : Nat) := Int.ofNat_tdiv n 1000000
    have h1 : -(((2 ^ 32 : Nat) : Int) / 2) ≤ (n / 1000000 : Nat) := by omega
    have h2 : ((n / 1000000 : Nat) : Int) < (((2 ^ 32 : Nat) : Int) + 1) / 2 := by omega
    rw [hdiv, toInt32, Int.bmod_eq_of_le h1 h2]
  have hnat : ((n : Int) / 1000000).toNat = n / 1000000 := by omega
  rw [hnat]
  generalize n / 1000000 = m at hsec
  have hday : (m : Int) / 86400 = (m / 86400 : Nat) := by omega
  refine ⟨?_, ?_, ?_, ?_, ?_⟩
  · simp only [unixMicroTimeToZippyTime, hsec, hday]
  · simp only [unixMicroTimeToZippyTime, hsec, hday]
  · simp only [unixMicroTimeToZippyTime, hsec, hday]
  · simp only [unixMicroTimeToZippyTime, hsec]
    omega
  · simp only [unixMicroTimeToZippyTime, hsec]
    omega

theorem Clock.streamNameForTime_hour {t : Time} {n : Nat} (h : Clock t n) :
    streamNameForTime t 3600 = .ok (hourName (n / 3600)) := by
  have hday : n / 86400 = n / 3600 / 24 := by rw [Nat.div_div_eq_div_mul]
  rw [streamNameForTime, if_neg (by decide), if_pos rfl, h.year, h.mon, h.mday, h.hour, hday]
  rfl

theorem streamNameForTime_hour {time : Int} (h0 : 0 ≤ time) (hlt : time < 2 ^ 31 * 1000000) :
    streamNameForTime (unixMicroTimeToZippyTime time) 3600 = .ok (hourName (hourOf time)) := by
  have hhour : hourOf time = (time / 1000000).toNat / 3600 := by
    rw [hourOf]
    omega
  rw [hhour]
  exact (clock_unixMicroTimeToZippyTime h0 hlt).streamNameForTime_hour

theorem dash_notMem_padded (width n : Nat) : dash ∉ padded width n := by
  intro h
  exact absurd (digit_of_mem_padded h).1 (by decide)

/-- What is in front of the first dash, and behind it. -/
theorem append_dash_inj {bs bs' rest rest' : Bytes} (h : dash ∉ bs) (h' : dash ∉ bs')
    (heq : bs ++ dash :: rest = bs' ++ dash :: rest') : bs = bs' ∧ rest = rest' := by
  induction bs generalizing bs' with
  | nil =>
    cases bs' with
    | nil => exact ⟨rfl, (List.cons.inj heq).2⟩
    | cons c bs' => exact absurd ((List.cons.inj heq).1 ▸ List.mem_cons_self) h'
  | cons c bs ih =>
    cases bs' with
    | nil => exact absurd ((List.cons.inj heq).1 ▸ List.mem_cons_self) h
    | cons c' bs' =>
      obtain ⟨rfl, htail⟩ := List.cons.inj heq
      obtain ⟨rfl, hrest⟩ := ih (fun hm => h (List.mem_cons_of_mem _ hm))
        (fun hm => h' (List.mem_cons_of_mem _ hm)) htail
      exact ⟨rfl, hrest⟩

/-- The year has four digits and the other fields two, so the name of an hour gives back its fields.
-/
theorem hourName_injective {hour hour' : Nat} (h : hourName hour = hourName hour') :
    hour = hour' := by
  simp only [hourName, List.append_assoc, List.cons_append] at h
  obtain ⟨hyear, hrest⟩ := append_dash_inj (dash_notMem_padded _ _) (dash_notMem_padded _ _) h
  obtain ⟨hmon, hrest⟩ := append_dash_inj (dash_notMem_padded _ _) (dash_notMem_padded _ _) hrest
  obtain ⟨hmday, hrest⟩ := append_dash_inj (dash_notMem_padded _ _) (dash_notMem_padded _ _) hrest
  have hdate : Date.ofDays (hour / 24 : Nat) = Date.ofDays (hour' / 24 : Nat) :=
    Date.ext (padded_injective hyear) (padded_injective hmon) (padded_injective hmday)
  have hdays := Date.ofDays_injective hdate
  have hhours := padded_injective hrest
  omega

/-- The name of an hour is made of digits and dashes. -/
theorem isNameChar_of_mem_hour {year mon mday hour : Nat} {c : UInt8}
    (hc : c ∈ padded 4 year ++ dash :: (padded 2 mon ++ dash :: padded 2 mday) ++
      dash :: padded 2 hour) : isNameChar c = true := by
  have hpadded : ∀ {width n : Nat}, c ∈ padded width n → isNameChar c = true := by
    intro width n h
    have hdigit := digit_of_mem_padded h
    simp [isNameChar, hdigit]
  simp only [List.mem_append, List.mem_cons] at hc
  rcases hc with (h | rfl | h | rfl | h) | rfl | h
  · exact hpadded h
  · decide
  · exact hpadded h
  · decide
  · exact hpadded h
  · decide
  · exact hpadded h

theorem validName_hourName (hour : Nat) : ValidName (hourName hour) where
  ne_nil := by
    rw [hourName]
    exact List.append_ne_nil_of_right_ne_nil _ (List.cons_ne_nil _ _)
  chars _ hc := isNameChar_of_mem_hour hc

end Store

/-! ## Files of streams -/

theorem resolve_append (bs rest : Bytes) :
    resolve (bs ++ slash :: rest) = resolve bs ++ resolve rest := by
  rw [resolve, Store.splitSlash_append, List.filter_append]
  rfl

theorem resolve_name {name : Bytes} (hne : name ≠ []) (h : ∀ c ∈ name, c ≠ slash) :
    resolve name = [name] := by
  rw [resolve, Store.splitSlash_name h]
  simp [hne]

/-- The stream of an hour in a store. -/
@[ext]
structure HourStream where
  bucket : Bytes
  set : Bytes
  hour : Nat
  validBucket : ValidName bucket
  validSet : ValidName set
  deriving DecidableEq

namespace HourStream

/-- Its key in `out_streams`. -/
def path (x : HourStream) : Bytes := Store.streamPath x.bucket x.set (Store.hourName x.hour)

/-- Its file under the directory of the store. -/
def file (x : HourStream) (root : List Bytes) : List Bytes :=
  root ++ [x.bucket, x.set, Store.hourName x.hour ++ extension]

theorem path_injective {x y : HourStream} (h : x.path = y.path) : x = y := by
  obtain ⟨hbucket, hset, hname⟩ := Store.streamPath_injective x.validBucket x.validSet
    (Store.validName_hourName x.hour) y.validBucket y.validSet (Store.validName_hourName y.hour) h
  exact HourStream.ext hbucket hset (Store.hourName_injective hname)

theorem file_injective {x y : HourStream} {root : List Bytes} (h : x.file root = y.file root) :
    x = y := by
  have hnames := List.append_cancel_left h
  simp only [List.cons.injEq, and_true, List.append_cancel_right_eq] at hnames
  exact HourStream.ext hnames.1 hnames.2.1 (Store.hourName_injective hnames.2.2)

@[simp] theorem length_file (x : HourStream) (root : List Bytes) :
    (x.file root).length = root.length + 3 :=
  List.length_append

theorem dropLast_file (x : HourStream) (root : List Bytes) :
    (x.file root).dropLast = root ++ [x.bucket, x.set] := by
  rw [file, List.dropLast_append_of_ne_nil (List.cons_ne_nil _ _)]
  rfl

end HourStream

namespace SimpleDirectoryStore

/-- The directory of the store. -/
def root (store : SimpleDirectoryStore) : List Bytes := resolve store.rootPath

theorem resolve_validName {name : Bytes} (h : ValidName name) : resolve name = [name] :=
  resolve_name h.ne_nil fun c hc => Store.ne_slash_of_isNameChar (h.chars c hc)

theorem resolve_bucketPath (store : SimpleDirectoryStore) {bucket : Bytes} (h : ValidName bucket) :
    resolve (store.pathToFilesystemPath (Store.bucketPath bucket)) = store.root ++ [bucket] := by
  rw [pathToFilesystemPath, resolve_append, Store.bucketPath,
    show slash :: bucket = [] ++ slash :: bucket from rfl, resolve_append, resolve_validName h]
  rfl

theorem resolve_streamsetPath (store : SimpleDirectoryStore) {bucket set : Bytes}
    (hb : ValidName bucket) (hs : ValidName set) :
    resolve (store.pathToFilesystemPath (Store.streamsetPath bucket set)) =
      store.root ++ [bucket, set] := by
  have hpath : Store.streamsetPath bucket set = [] ++ slash :: (bucket ++ slash :: set) := by
    simp [Store.streamsetPath, Store.bucketPath]
  rw [pathToFilesystemPath, resolve_append, hpath, resolve_append, resolve_append,
    resolve_validName hb, resolve_validName hs]
  rfl

/-- The file of a stream is found along the directory of the store, the bucket and the set. -/
theorem resolve_streamFilesystemPath (store : SimpleDirectoryStore) (x : HourStream) :
    resolve (store.streamFilesystemPath x.path) = x.file store.root := by
  have hpath : store.streamFilesystemPath x.path = store.rootPath ++ slash :: ([] ++
      slash :: (x.bucket ++ slash :: (x.set ++
        slash :: (Store.hourName x.hour ++ extension)))) := by
    simp [streamFilesystemPath, pathToFilesystemPath, HourStream.path, Store.streamPath,
      Store.streamsetPath, Store.bucketPath]
  have hname : resolve (Store.hourName x.hour ++ extension) =
      [Store.hourName x.hour ++ extension] := by
    refine resolve_name (List.append_ne_nil_of_left_ne_nil
      (Store.validName_hourName x.hour).ne_nil _) fun c hc => ?_
    rcases List.mem_append.mp hc with hc | hc
    · exact Store.ne_slash_of_isNameChar ((Store.validName_hourName x.hour).chars c hc)
    · rintro rfl
      exact absurd hc (by decide)
  rw [hpath, resolve_append, resolve_append, resolve_append, resolve_append,
    resolve_validName x.validBucket, resolve_validName x.validSet, hname]
  rfl

/-! ## What a store holds -/

/-- The store as a map of streams to the bodies of their records: what is open,
in the buffers and in the files agrees with it, and there is nothing else under
the directory of the store. -/
structure Holds (store : SimpleDirectoryStore) (opened : Set HourStream)
    (contents : HourStream → List Bytes) : Prop where
  root_mem : store.root ∈ store.fs.directories
  directory_le (p : List Bytes) (h : store.root <+: p) (hd : p ∈ store.fs.directories) :
    p.length ≤ store.root.length + 2
  stream_of_key (key : Bytes) (h : key ∈ store.outStreams) : ∃ x : HourStream, key = x.path
  stream_of_file (p : List Bytes) (h : store.root <+: p) (hf : p ∈ store.fs.files) :
    ∃ x : HourStream, p = x.file store.root
  of_mem (x : HourStream) (h : x ∈ opened) :
    ∃ buffer content, store.outStreams.lookup x.path = some ⟨x.file store.root, buffer⟩ ∧
      store.fs.files.lookup (x.file store.root) = some content ∧
      FileOutputStream.Holds ⟨content, buffer⟩ (contents x)
  of_notMem (x : HourStream) (h : x ∉ opened) :
    store.outStreams.lookup x.path = none ∧
      store.fs.files.lookup (x.file store.root) = none ∧ contents x = []

/-- No two open streams write to one file. -/
def OneStreamPerFile (store : SimpleDirectoryStore) : Prop :=
  ∀ key key' os os', store.outStreams.lookup key = some os →
    store.outStreams.lookup key' = some os' → os.file = os'.file → key = key'

variable {store : SimpleDirectoryStore} {opened : Set HourStream}
  {contents : HourStream → List Bytes}

theorem Holds.file_eq (h : store.Holds opened contents) {x : HourStream} {os : OpenOutputStream}
    (hos : store.outStreams.lookup x.path = some os) : os.file = x.file store.root := by
  by_cases hx : x ∈ opened
  · obtain ⟨buffer, content, hlookup, -, -⟩ := h.of_mem x hx
    rw [hos] at hlookup
    cases hlookup
    rfl
  · rw [(h.of_notMem x hx).1] at hos
    cases hos

theorem Holds.oneStreamPerFile (h : store.Holds opened contents) : store.OneStreamPerFile := by
  intro key key' os os' hos hos' hfile
  obtain ⟨x, rfl⟩ := h.stream_of_key key (AList.lookup_isSome.mp (by rw [hos]; rfl))
  obtain ⟨x', rfl⟩ := h.stream_of_key key' (AList.lookup_isSome.mp (by rw [hos']; rfl))
  rw [h.file_eq hos, h.file_eq hos'] at hfile
  rw [HourStream.file_injective hfile]

/-! ## Operations on a stream -/

/-- What an operation on an open stream does to the store: it changes this stream and its file. -/
theorem onStream_of_lookup {key : Bytes} {os : OpenOutputStream} {content : Bytes}
    (f : FileOutputStream → FileOutputStream) (hos : store.outStreams.lookup key = some os)
    (hcontent : store.fs.files.lookup os.file = some content) :
    store.onStream key f =
      { store with
        fs := { store.fs with
          files := store.fs.files.insert os.file (f ⟨content, os.buffer⟩).file }
        outStreams := store.outStreams.insert key
          { os with buffer := (f ⟨content, os.buffer⟩).buffer } } := by
  rw [onStream, hos]
  simp only [hcontent, Option.getD_some]

/-- **Step lemma** for an open stream: the records that `f` adds are those of that
stream, and all others stay. -/
theorem Holds.onStream (h : store.Holds opened contents) {x : HourStream} (hx : x ∈ opened)
    {f : FileOutputStream → FileOutputStream} (new : List Bytes)
    (hf : ∀ {s : FileOutputStream} {bodies : List Bytes}, s.Holds bodies →
      (f s).Holds (bodies ++ new)) :
    (store.onStream x.path f).Holds opened (Function.update contents x (contents x ++ new)) := by
  obtain ⟨buffer, content, hos, hcontent, hholds⟩ := h.of_mem x hx
  rw [onStream_of_lookup f hos hcontent]
  constructor
  · exact h.root_mem
  · exact h.directory_le
  · intro key hkey
    rcases AList.mem_insert _ |>.mp hkey with rfl | hkey
    · exact ⟨x, rfl⟩
    · exact h.stream_of_key key hkey
  · intro p hp hfile
    rcases AList.mem_insert _ |>.mp hfile with rfl | hfile
    · exact ⟨x, rfl⟩
    · exact h.stream_of_file p hp hfile
  · intro y hy
    by_cases hxy : y = x
    · subst hxy
      refine ⟨_, _, AList.lookup_insert _, AList.lookup_insert _, ?_⟩
      rw [Function.update_self]
      exact hf hholds
    · obtain ⟨buffer', content', hos', hcontent', hholds'⟩ := h.of_mem y hy
      refine ⟨buffer', content', ?_, ?_, ?_⟩
      · exact (AList.lookup_insert_ne fun he => hxy (HourStream.path_injective he)).trans hos'
      · exact (AList.lookup_insert_ne fun he => hxy (HourStream.file_injective he)).trans hcontent'
      · rw [Function.update_of_ne hxy]
        exact hholds'
  · intro y hy
    have hxy : y ≠ x := fun he => hy (he ▸ hx)
    obtain ⟨hos', hcontent', hnil⟩ := h.of_notMem y hy
    refine ⟨?_, ?_, ?_⟩
    · exact (AList.lookup_insert_ne fun he => hxy (HourStream.path_injective he)).trans hos'
    · exact (AList.lookup_insert_ne fun he => hxy (HourStream.file_injective he)).trans hcontent'
    · rw [Function.update_of_ne hxy]
      exact hnil

/-- An operation that only moves bytes from a buffer to its file. -/
theorem Holds.onStream_same (h : store.Holds opened contents) (key : Bytes)
    {f : FileOutputStream → FileOutputStream}
    (hf : ∀ {s : FileOutputStream} {bodies : List Bytes}, s.Holds bodies → (f s).Holds bodies) :
    (store.onStream key f).Holds opened contents := by
  cases hos : store.outStreams.lookup key with
  | none =>
    rw [SimpleDirectoryStore.onStream, hos]
    exact h
  | some os =>
    obtain ⟨x, rfl⟩ := h.stream_of_key key (AList.lookup_isSome.mp (by rw [hos]; rfl))
    have hx : x ∈ opened := by
      by_contra hx
      rw [(h.of_notMem x hx).1] at hos
      cases hos
    have hsame := h.onStream hx [] fun hs => by
      rw [List.append_nil]
      exact hf hs
    rwa [List.append_nil, Function.update_eq_self] at hsame

/-! ## Opening a stream -/

theorem makeDirectory_eq {fs : FileSystem} {path name : Bytes} {parent : List Bytes}
    (hpath : resolve path = parent ++ [name]) (hparent : parent ∈ fs.directories)
    (hdirectory : parent ++ [name] ∉ fs.directories) (hfile : parent ++ [name] ∉ fs.files) :
    makeDirectory fs path = (true, { fs with directories := (parent ++ [name]) :: fs.directories }) := by
  rw [makeDirectory, hpath, List.dropLast_concat]
  exact if_pos ⟨hparent, hdirectory, hfile⟩

/-- The store has another directory at most: nothing else happened. -/
structure Makes (store store' : SimpleDirectoryStore) (p : List Bytes) : Prop where
  rootPath_eq : store'.rootPath = store.rootPath
  outStreams_eq : store'.outStreams = store.outStreams
  files_eq : store'.fs.files = store.fs.files
  mem_directories (q : List Bytes) :
    q ∈ store'.fs.directories ↔ q = p ∨ q ∈ store.fs.directories

/-- A directory that is there is made without a call. -/
theorem makes_of_mem {p : List Bytes} (h : p ∈ store.fs.directories) : Makes store store p where
  rootPath_eq := rfl
  outStreams_eq := rfl
  files_eq := rfl
  mem_directories q := by
    constructor
    · exact Or.inr
    · rintro (rfl | hq)
      · exact h
      · exact hq

theorem makes_cons (store : SimpleDirectoryStore) (p : List Bytes) :
    Makes store { store with fs := { store.fs with directories := p :: store.fs.directories } } p where
  rootPath_eq := rfl
  outStreams_eq := rfl
  files_eq := rfl
  mem_directories _ := List.mem_cons

/-- `BucketExists` and `CreateBucket`. -/
theorem exists_bucket {bucket : Bytes} (hbucket : ValidName bucket)
    (hroot : store.root ∈ store.fs.directories) (hfile : store.root ++ [bucket] ∉ store.fs.files) :
    ∃ store', (if store.bucketExists bucket then (true, store) else store.createBucket bucket) =
        (true, store') ∧ Makes store store' (store.root ++ [bucket]) := by
  have hresolve := store.resolve_bucketPath hbucket
  by_cases hexists : store.root ++ [bucket] ∈ store.fs.directories
  · refine ⟨store, ?_, makes_of_mem hexists⟩
    rw [if_pos]
    rw [bucketExists, pathIsDirectory, hresolve]
    exact decide_eq_true hexists
  · refine ⟨_, ?_, makes_cons store _⟩
    rw [if_neg, createBucket, makeDirectory_eq hresolve hroot hexists hfile]
    rw [bucketExists, pathIsDirectory, hresolve]
    exact fun he => hexists (of_decide_eq_true he)

/-- `StreamSetExists` and `CreateStreamset`. -/
theorem exists_streamset {bucket set : Bytes} (hbucket : ValidName bucket) (hset : ValidName set)
    (hparent : store.root ++ [bucket] ∈ store.fs.directories)
    (hfile : store.root ++ [bucket, set] ∉ store.fs.files) :
    ∃ store', (if store.streamSetExists bucket set then (true, store)
          else store.createStreamset bucket set) = (true, store') ∧
        Makes store store' (store.root ++ [bucket, set]) := by
  have hresolve := store.resolve_streamsetPath hbucket hset
  by_cases hexists : store.root ++ [bucket, set] ∈ store.fs.directories
  · refine ⟨store, ?_, makes_of_mem hexists⟩
    rw [if_pos]
    rw [streamSetExists, pathIsDirectory, hresolve]
    exact decide_eq_true hexists
  · have hsplit : store.root ++ [bucket, set] = (store.root ++ [bucket]) ++ [set] :=
      List.append_cons _ _ _
    refine ⟨_, ?_, makes_cons store _⟩
    rw [hsplit] at hresolve hexists hfile ⊢
    rw [if_neg, createStreamset, makeDirectory_eq hresolve hparent hexists hfile]
    rw [streamSetExists, pathIsDirectory, hresolve]
    exact fun he => hexists (of_decide_eq_true he)

/-- A directory of a bucket or a stream set changes nothing of what the store holds. -/
theorem Holds.of_makes (h : store.Holds opened contents) {store' : SimpleDirectoryStore}
    {p : List Bytes} (hmakes : Makes store store' p) (hp : p.length ≤ store.root.length + 2) :
    store'.Holds opened contents := by
  have hroot : store'.root = store.root := congrArg resolve hmakes.rootPath_eq
  constructor
  · rw [hroot]
    exact (hmakes.mem_directories _).mpr (Or.inr h.root_mem)
  · intro q hq hd
    rw [hroot] at hq ⊢
    rcases (hmakes.mem_directories q).mp hd with rfl | hd
    · exact hp
    · exact h.directory_le q hq hd
  · rw [hmakes.outStreams_eq]
    exact h.stream_of_key
  · rw [hmakes.files_eq, hroot]
    exact h.stream_of_file
  · rw [hmakes.files_eq, hmakes.outStreams_eq, hroot]
    exact h.of_mem
  · rw [hmakes.files_eq, hmakes.outStreams_eq, hroot]
    exact h.of_notMem

/-- No file is where the directory of a bucket or a stream set has to be. -/
theorem Holds.notMem_files (h : store.Holds opened contents) {names : List Bytes}
    (hlength : names.length ≤ 2) : store.root ++ names ∉ store.fs.files := by
  intro hfile
  obtain ⟨x, hx⟩ := h.stream_of_file _ (List.prefix_append _ _) hfile
  have hsame := congrArg List.length hx
  rw [List.length_append, HourStream.length_file] at hsame
  omega

/-- The file of a stream that is not open can be made. -/
theorem Holds.openFile_eq (h : store.Holds opened contents) {x : HourStream} (hx : x ∉ opened)
    (hparent : (x.file store.root).dropLast ∈ store.fs.directories) :
    openFile store.fs (store.streamFilesystemPath x.path) = some none := by
  obtain ⟨-, hfile, -⟩ := h.of_notMem x hx
  -- a directory of the store is not as deep as a file
  have hdirectory : x.file store.root ∉ store.fs.directories := by
    intro hd
    have hle := h.directory_le (x.file store.root) (List.prefix_append _ _) hd
    rw [HourStream.length_file] at hle
    omega
  rw [openFile, store.resolve_streamFilesystemPath x]
  simp only [if_neg hdirectory, hfile, if_pos hparent]

/-- A store with the file of another stream, which is open. -/
theorem Holds.insertStream (h : store.Holds opened contents) {x : HourStream} (hx : x ∉ opened) :
    Holds { store with
      fs := { store.fs with files := store.fs.files.insert (x.file store.root) [1] }
      outStreams := store.outStreams.insert x.path ⟨x.file store.root, []⟩ }
      (insert x opened) contents := by
  obtain ⟨-, -, hnil⟩ := h.of_notMem x hx
  constructor
  · exact h.root_mem
  · exact h.directory_le
  · intro key hkey
    rcases (AList.mem_insert _).mp hkey with rfl | hkey
    · exact ⟨x, rfl⟩
    · exact h.stream_of_key key hkey
  · intro p hp hf
    rcases (AList.mem_insert _).mp hf with rfl | hf
    · exact ⟨x, rfl⟩
    · exact h.stream_of_file p hp hf
  · intro y hy
    by_cases hxy : y = x
    · subst hxy
      refine ⟨[], [1], AList.lookup_insert _, AList.lookup_insert _, ?_⟩
      rw [hnil]
      exact ⟨rfl⟩
    · obtain ⟨buffer, content, hos, hcontent, hholds⟩ := h.of_mem y (hy.resolve_left hxy)
      refine ⟨buffer, content, ?_, ?_, hholds⟩
      · exact (AList.lookup_insert_ne fun he => hxy (HourStream.path_injective he)).trans hos
      · exact (AList.lookup_insert_ne fun he => hxy (HourStream.file_injective he)).trans hcontent
  · intro y hy
    have hxy : y ≠ x := fun he => hy (Or.inl he)
    obtain ⟨hos, hcontent, hnil'⟩ := h.of_notMem y fun he => hy (Or.inr he)
    refine ⟨?_, ?_, hnil'⟩
    · exact (AList.lookup_insert_ne fun he => hxy (HourStream.path_injective he)).trans hos
    · exact (AList.lookup_insert_ne fun he => hxy (HourStream.file_injective he)).trans hcontent

/-- `CreateOutputStream` makes the directories that are missing and the file with
its version byte. -/
theorem Holds.createOutputStream (h : store.Holds opened contents) {x : HourStream}
    (hx : x ∉ opened) :
    ∃ store', store.createOutputStream x.bucket x.set (Store.hourName x.hour) =
        .ok (some ⟨x.file store.root, []⟩, store') ∧ store'.rootPath = store.rootPath ∧
      Holds { store' with
        outStreams := store'.outStreams.insert x.path ⟨x.file store.root, []⟩ }
        (insert x opened) contents := by
  -- the directory of the bucket
  obtain ⟨store₁, hbucket, hmakes₁⟩ := exists_bucket x.validBucket h.root_mem
    (h.notMem_files (show [x.bucket].length ≤ 2 from Nat.le_succ 1))
  have hroot₁ : store₁.root = store.root := congrArg resolve hmakes₁.rootPath_eq
  have h₁ := h.of_makes hmakes₁ (by rw [List.length_append]; exact Nat.le_succ _)
  -- the directory of the stream set
  obtain ⟨store₂, hset, hmakes₂⟩ := exists_streamset x.validBucket x.validSet
    (by rw [hroot₁]; exact (hmakes₁.mem_directories _).mpr (Or.inl rfl))
    (h₁.notMem_files (show [x.bucket, x.set].length ≤ 2 from Nat.le_refl 2))
  have hroot₂ : store₂.root = store.root :=
    (congrArg resolve hmakes₂.rootPath_eq).trans hroot₁
  have h₂ := h₁.of_makes hmakes₂ (by rw [List.length_append]; exact Nat.le_refl _)
  -- the file
  have hparent : (x.file store₂.root).dropLast ∈ store₂.fs.directories := by
    rw [hroot₂, x.dropLast_file, ← hroot₁]
    exact (hmakes₂.mem_directories _).mpr (Or.inl rfl)
  have hopen := h₂.openFile_eq hx hparent
  have hholds := h₂.insertStream hx
  have hresolve := store₂.resolve_streamFilesystemPath x
  rw [hroot₂] at hresolve hholds
  refine ⟨{ store₂ with
      fs := { store₂.fs with files := store₂.fs.files.insert (x.file store.root) [1] } }, ?_,
    hmakes₂.rootPath_eq.trans hmakes₁.rootPath_eq, hholds⟩
  rw [SimpleDirectoryStore.createOutputStream, hbucket]
  simp only [Bool.true_eq_false, if_false]
  rw [hset]
  simp only [Bool.true_eq_false, if_false]
  rw [show Store.streamPath x.bucket x.set (Store.hourName x.hour) = x.path from rfl, openOutput,
    hopen]
  simp only [hresolve]
  rfl

/-! ## Runs -/

theorem rootPath_onStream (store : SimpleDirectoryStore) (key : Bytes)
    (f : FileOutputStream → FileOutputStream) :
    (store.onStream key f).rootPath = store.rootPath := by
  rw [SimpleDirectoryStore.onStream]
  split
  · rfl
  · rfl

/-- `ObtainOutputStream` finds the stream of the hour, or opens it. -/
theorem Holds.obtainOutputStream (h : store.Holds opened contents) {x : HourStream} {time : Int}
    (hhour : Store.hourOf time = x.hour) (h0 : 0 ≤ time) (hlt : time < 2 ^ 31 * 1000000)
    (clock : Int) :
    ∃ store', store.obtainOutputStream x.bucket x.set 3600 clock time =
        .ok (some x.path, store') ∧ store'.rootPath = store.rootPath ∧
      store'.Holds (insert x opened) contents := by
  have hname := Store.streamNameForTime_hour h0 hlt
  rw [hhour] at hname
  have hpath : Store.streamPath x.bucket x.set (Store.hourName x.hour) = x.path := rfl
  rw [SimpleDirectoryStore.obtainOutputStream, if_neg (Int.not_lt.mpr h0)]
  simp only [hname, hpath]
  by_cases hx : x ∈ opened
  · obtain ⟨buffer, content, hos, -, -⟩ := h.of_mem x hx
    refine ⟨store, if_pos ?_, rfl, ?_⟩
    · exact AList.lookup_isSome.mp (by rw [hos]; rfl)
    · rwa [Set.insert_eq_of_mem hx]
  · obtain ⟨store', hcreate, hroot, hholds⟩ := h.createOutputStream hx
    refine ⟨_, ?_, ?_, hholds⟩
    · rw [if_neg, hcreate]
      exact fun hmem => absurd (h.of_notMem x hx).1 (AList.lookup_eq_none.not.mpr (not_not.mpr hmem))
    · exact hroot

/-- The envelope that an operation writes to a stream. -/
def Op.writes (x : HourStream) : Op → Option Envelope
  | .writeEnvelope bucket set e time =>
    if bucket = x.bucket ∧ set = x.set ∧ Store.hourOf time = x.hour then some e else none
  | _ => none

/-- The envelopes that go to a stream, in the order of the calls. -/
def writtenTo (ops : List Op) (x : HourStream) : List Envelope := ops.filterMap (Op.writes x)

/-- Valid names, an envelope that has a serialisation and a time that has seconds
in 31 bits. -/
def Op.Valid : Op → Prop
  | .writeEnvelope bucket set e time =>
    ValidName bucket ∧ ValidName set ∧ e.serialize ≠ [] ∧ e.serialize.length < 2 ^ 31 ∧
      0 ≤ time ∧ time < 2 ^ 31 * 1000000
  | _ => True

theorem Holds.flush_fold (keys : List Bytes) :
    ∀ {store : SimpleDirectoryStore}, store.Holds opened contents →
      (keys.foldl (fun store key => store.onStream key FileOutputStream.flush) store).Holds opened
        contents := by
  induction keys with
  | nil => exact fun h => h
  | cons key keys ih => exact fun h => ih (h.onStream_same key fun hs => hs.flush)

theorem rootPath_flush_fold (keys : List Bytes) : ∀ store : SimpleDirectoryStore,
    (keys.foldl (fun store key => store.onStream key FileOutputStream.flush) store).rootPath =
      store.rootPath := by
  induction keys with
  | nil => exact fun _ => rfl
  | cons key keys ih => exact fun store => (ih _).trans (rootPath_onStream store key _)

/-- The streams that have records. -/
def nonempty (contents : HourStream → List Bytes) : Set HourStream := {x | contents x ≠ []}

/-- **Step lemma** of a store: an operation adds the record it writes, to its
stream. -/
theorem Holds.step (h : store.Holds (nonempty contents) contents) (clock : Int) {op : Op}
    (hop : op.Valid) :
    ∃ store', store.step clock op = some store' ∧ store'.rootPath = store.rootPath ∧
      store'.Holds
        (nonempty fun x => contents x ++ ((op.writes x).map Envelope.serialize).toList)
        fun x => contents x ++ ((op.writes x).map Envelope.serialize).toList := by
  have hsame : ∀ op : Op, (∀ x, op.writes x = none) →
      (fun x => contents x ++ ((op.writes x).map Envelope.serialize).toList) = contents := by
    intro op hnone
    funext x
    rw [hnone x]
    exact List.append_nil _
  cases op with
  | writeEnvelope bucket set e time =>
    obtain ⟨hbucket, hset, hne, hlen, h0, hlt⟩ := hop
    let x : HourStream := ⟨bucket, set, Store.hourOf time, hbucket, hset⟩
    obtain ⟨store', hobtain, hroot, hholds⟩ := h.obtainOutputStream (x := x) rfl h0 hlt clock
    have hwrite := hholds.onStream (Set.mem_insert x _) [e.serialize] (f := (·.writeEnvelope e))
      fun hs => hs.writeData (by omega)
    have hcontents : (fun y => contents y ++
        (((Op.writeEnvelope bucket set e time).writes y).map Envelope.serialize).toList) =
        Function.update contents x (contents x ++ [e.serialize]) := by
      funext y
      by_cases hxy : y = x
      · subst hxy
        rw [Function.update_self, Op.writes, if_pos ⟨rfl, rfl, rfl⟩]
        rfl
      · rw [Function.update_of_ne hxy, Op.writes, if_neg]
        · exact List.append_nil _
        · rintro ⟨hb, hs, hh⟩
          exact hxy (HourStream.ext hb.symm hs.symm hh.symm)
    -- the stream is open now, and has something written to it
    have hopened : insert x (nonempty contents) =
        nonempty (Function.update contents x (contents x ++ [e.serialize])) := by
      ext y
      by_cases hxy : y = x
      · subst hxy
        simp [nonempty]
      · simp [nonempty, hxy]
    rw [hopened] at hwrite
    refine ⟨store'.onStream x.path (·.writeEnvelope e), ?_, (rootPath_onStream _ _ _).trans hroot,
      ?_⟩
    · rw [SimpleDirectoryStore.step, writeEnvelope, show bucket = x.bucket from rfl,
        show set = x.set from rfl, hobtain]
    · rwa [hcontents]
  -- neither of the others writes an envelope
  | flushOutputStreams =>
    refine ⟨_, rfl, rootPath_flush_fold _ store, ?_⟩
    rw [hsame .flushOutputStreams fun _ => rfl]
    exact h.flush_fold _
  | spill storePath n =>
    refine ⟨_, rfl, rootPath_onStream store storePath _, ?_⟩
    rw [hsame (.spill storePath n) fun _ => rfl]
    exact h.onStream_same storePath fun hs => hs.spill n

/-- **Run lemma** of a store. -/
theorem Holds.run (clock : Int) {ops : List Op} (hops : ∀ op ∈ ops, op.Valid) :
    ∀ {store : SimpleDirectoryStore} {contents : HourStream → List Bytes},
      store.Holds (nonempty contents) contents →
      ∃ store', store.run clock ops = some store' ∧ store'.rootPath = store.rootPath ∧
        store'.Holds
          (nonempty fun x => contents x ++ (writtenTo ops x).map Envelope.serialize)
          fun x => contents x ++ (writtenTo ops x).map Envelope.serialize := by
  induction ops with
  | nil =>
    intro store contents h
    refine ⟨store, rfl, rfl, ?_⟩
    simpa [writtenTo] using h
  | cons op ops ih =>
    intro store contents h
    obtain ⟨hop, hops⟩ := List.forall_mem_cons.mp hops
    obtain ⟨store₁, hstep, hroot₁, h₁⟩ := h.step clock hop
    obtain ⟨store₂, hrun, hroot₂, h₂⟩ := ih hops h₁
    refine ⟨store₂, ?_, hroot₂.trans hroot₁, ?_⟩
    · rw [SimpleDirectoryStore.run, hstep]
      exact hrun
    · have hwritten : (fun x => (contents x ++ ((op.writes x).map Envelope.serialize).toList) ++
          (writtenTo ops x).map Envelope.serialize) =
          fun x => contents x ++ (writtenTo (op :: ops) x).map Envelope.serialize := by
        funext x
        rw [List.append_assoc, writtenTo, writtenTo]
        congr 1
        cases hw : op.writes x with
        | none => rw [List.filterMap_cons_none hw]; rfl
        | some e => rw [List.filterMap_cons_some hw]; rfl
      rwa [hwritten] at h₂

/-! ## What is left on the file system -/

/-- Nothing of the stream is in its buffer. -/
def Flushed (store : SimpleDirectoryStore) (x : HourStream) : Prop :=
  ∃ file, store.outStreams.lookup x.path = some ⟨file, []⟩

theorem mem_outStreams_onStream {key key' : Bytes} (f : FileOutputStream → FileOutputStream)
    (h : key ∈ store.outStreams) : key ∈ (store.onStream key' f).outStreams := by
  rw [SimpleDirectoryStore.onStream]
  split
  · exact h
  · exact (AList.mem_insert _).mpr (Or.inr h)

/-- Flushing one stream leaves the others as they are. -/
theorem flushed_onStream {x : HourStream} {key : Bytes} (hmem : x.path ∈ store.outStreams)
    (h : x.path = key ∨ store.Flushed x) :
    (store.onStream key FileOutputStream.flush).Flushed x := by
  obtain ⟨os, hos⟩ := Option.isSome_iff_exists.mp (AList.lookup_isSome.mpr hmem)
  by_cases hkey : x.path = key
  · subst hkey
    rw [Flushed, SimpleDirectoryStore.onStream, hos]
    exact ⟨os.file, AList.lookup_insert _⟩
  · obtain ⟨file, hfile⟩ := h.resolve_left hkey
    refine ⟨file, ?_⟩
    rw [SimpleDirectoryStore.onStream]
    split
    · exact hfile
    · exact (AList.lookup_insert_ne hkey).trans hfile

/-- Flushing one stream after the other flushes each. -/
theorem flushed_flush_fold {x : HourStream} (keys : List Bytes) :
    ∀ {store : SimpleDirectoryStore}, x.path ∈ store.outStreams →
      (x.path ∈ keys ∨ store.Flushed x) →
      (keys.foldl (fun store key => store.onStream key FileOutputStream.flush) store).Flushed x := by
  induction keys with
  | nil => exact fun _ h => h.resolve_left List.not_mem_nil
  | cons key keys ih =>
    intro store hmem h
    refine ih (mem_outStreams_onStream _ hmem) ?_
    rcases h with hkeys | hflushed
    · rcases List.mem_cons.mp hkeys with hkey | hkeys
      · exact Or.inr (flushed_onStream hmem (Or.inl hkey))
      · exact Or.inl hkeys
    · exact Or.inr (flushed_onStream hmem (Or.inr hflushed))

/-- The files of a store that is destroyed are the stream files of its streams. -/
theorem Holds.destroy (h : store.Holds opened contents) :
    (∀ x ∈ opened, store.destroy.files.lookup (x.file store.root) =
      some (streamFile (contents x))) ∧
    ∀ p, store.root <+: p → p ∈ store.destroy.files → ∃ x ∈ opened, p = x.file store.root := by
  have hflush : store.flushOutputStreams.Holds opened contents := h.flush_fold _
  have hroot : store.flushOutputStreams.root = store.root :=
    congrArg resolve (rootPath_flush_fold _ store)
  constructor
  · intro x hx
    obtain ⟨buffer₀, content₀, hos₀, -, -⟩ := h.of_mem x hx
    have hmem : x.path ∈ store.outStreams := AList.lookup_isSome.mp (by rw [hos₀]; rfl)
    obtain ⟨file, hflushed⟩ := flushed_flush_fold store.outStreams.keys hmem
      (Or.inl (AList.mem_keys.mp hmem))
    obtain ⟨buffer, content, hos, hcontent, hholds⟩ := hflush.of_mem x hx
    change store.flushOutputStreams.outStreams.lookup x.path = _ at hflushed
    rw [hos] at hflushed
    cases hflushed
    rw [hroot] at hcontent
    have heq := hholds.content_eq
    rw [List.append_nil] at heq
    rw [← heq]
    exact hcontent
  · intro p hp hfile
    rw [← hroot] at hp
    obtain ⟨x, rfl⟩ := hflush.stream_of_file p hp hfile
    refine ⟨x, ?_, by rw [hroot]⟩
    by_contra hx
    have hnone := (hflush.of_notMem x hx).2.1
    exact absurd hnone (AList.lookup_eq_none.not.mpr (not_not.mpr hfile))

/-- A store without streams on a directory that has nothing in it. -/
structure EmptyRoot (store : SimpleDirectoryStore) : Prop where
  root_mem : store.root ∈ store.fs.directories
  directory_eq (p : List Bytes) (h : store.root <+: p) (hd : p ∈ store.fs.directories) :
    p = store.root
  notMem_files (p : List Bytes) (h : store.root <+: p) : p ∉ store.fs.files
  outStreams_eq : store.outStreams = ∅

/-- The invariant holds in an empty directory, with nothing written. -/
theorem EmptyRoot.holds (h : store.EmptyRoot) :
    store.Holds (nonempty fun _ => []) fun _ => [] where
  root_mem := h.root_mem
  directory_le p hp hd := by
    rw [h.directory_eq p hp hd]
    exact Nat.le_add_right _ _
  stream_of_key key hkey := by
    rw [h.outStreams_eq] at hkey
    exact absurd hkey (AList.notMem_empty key)
  stream_of_file p hp hf := absurd hf (h.notMem_files p hp)
  of_mem x hx := absurd rfl hx
  of_notMem x _ := by
    refine ⟨?_, AList.lookup_eq_none.mpr (h.notMem_files _ (List.prefix_append _ _)), rfl⟩
    rw [h.outStreams_eq]
    rfl

/-- A reader of the file returns exactly these envelopes. -/
def ReadsBack (content : Bytes) (es : List Envelope) : Prop :=
  ∃ s ens s', InputStream.ofFile (some content) 0 = .ok s ∧ ReadsAll s ens s' ∧
    ens.map Prod.fst = es

/-- A file that a store writes reads back, unless an envelope is longer than a
reader has room for. -/
theorem readsBack_streamFile {es : List Envelope}
    (hsize : ∀ e ∈ es, e.serialize ≠ [] ∧ e.serialize.length ≤ Meter.maxBody) :
    ReadsBack (streamFile (es.map Envelope.serialize)) es := by
  obtain ⟨s, s', hopen, hreads, -⟩ := readsAll_streamFile (InputStream.parses_map_serialize es)
    fun body hb => by
      obtain ⟨e, he, rfl⟩ := List.mem_map.mp hb
      exact ⟨List.length_pos_iff.mpr (hsize e he).1, (hsize e he).2⟩
  exact ⟨s, _, s', hopen, hreads, map_fst_zip_bytesReads (InputStream.parses_map_serialize es)⟩

/-- **Write/read agreement**: at every moment no two streams are open on one file,
every operation succeeds, and the files that a store leaves behind are the stream
files of its streams, with the envelopes written to them in the order of the
calls. They read back if no envelope is longer than 2^30 - 64 bytes. -/
theorem write_read_agreement (clock : Int) (hempty : store.EmptyRoot) {ops : List Op}
    (hvalid : ∀ op ∈ ops, op.Valid) :
    (∀ moment, moment <+: ops →
      ∃ store', store.run clock moment = some store' ∧ store'.OneStreamPerFile) ∧
    ∃ store', store.run clock ops = some store' ∧
      (∀ x, writtenTo ops x ≠ [] →
        store'.destroy.files.lookup (x.file store.root) =
          some (streamFile ((writtenTo ops x).map Envelope.serialize)) ∧
        ((∀ e ∈ writtenTo ops x, e.serialize.length ≤ Meter.maxBody) →
          ReadsBack (streamFile ((writtenTo ops x).map Envelope.serialize)) (writtenTo ops x))) ∧
      ∀ p, store.root <+: p → p ∈ store'.destroy.files →
        ∃ x, writtenTo ops x ≠ [] ∧ p = x.file store.root := by
  constructor
  · intro moment hmoment
    obtain ⟨store', hrun, -, hholds⟩ := hempty.holds.run clock fun op hop =>
      hvalid op (hmoment.subset hop)
    exact ⟨store', hrun, hholds.oneStreamPerFile⟩
  · obtain ⟨store', hrun, hrootPath, hholds⟩ := hempty.holds.run clock hvalid
    have hroot : store'.root = store.root := congrArg resolve hrootPath
    simp only [List.nil_append] at hholds
    obtain ⟨hfiles, honly⟩ := hholds.destroy
    rw [hroot] at hfiles honly
    have hmem : ∀ x, writtenTo ops x ≠ [] →
        x ∈ nonempty fun x => (writtenTo ops x).map Envelope.serialize :=
      fun x hx => mt List.map_eq_nil_iff.mp hx
    refine ⟨store', hrun, fun x hx => ⟨hfiles x (hmem x hx), fun hsize => ?_⟩, fun p hp hfile => ?_⟩
    · refine readsBack_streamFile fun e he => ⟨?_, hsize e he⟩
      obtain ⟨op, hop, hwrites⟩ := List.mem_filterMap.mp he
      cases op with
      | writeEnvelope bucket set e' time =>
        have hne := (hvalid _ hop).2.2.1
        rw [Op.writes] at hwrites
        split_ifs at hwrites
        cases hwrites
        exact hne
      | flushOutputStreams => cases hwrites
      | spill storePath n => cases hwrites
    · obtain ⟨x, hx, rfl⟩ := honly p hp hfile
      exact ⟨x, fun hnil => hx (List.map_eq_nil_iff.mpr hnil), rfl⟩

/-- A store on an empty directory. -/
def onEmptyDirectory : SimpleDirectoryStore where
  rootPath := str "/store"
  fs := ⟨[[str "store"], []], ∅⟩

theorem emptyRoot_onEmptyDirectory : onEmptyDirectory.EmptyRoot where
  root_mem := by decide
  directory_eq p hp hd := by
    rcases List.mem_cons.mp hd with rfl | hd
    · decide
    · rw [List.mem_singleton.mp hd] at hp
      exact absurd (List.prefix_nil.mp hp) (by decide)
  notMem_files p _ := AList.notMem_empty p
  outStreams_eq := rfl

theorem validName_bucket : ValidName (str "bucket") :=
  validName_of_all (by decide) (by decide)

theorem validName_set : ValidName (str "set") :=
  validName_of_all (by decide) (by decide)

/-- The first hour of the epoch. -/
def firstHour : HourStream := ⟨str "bucket", str "set", 0, validName_bucket, validName_set⟩

/-- Two envelopes written to one stream, and one to the next hour between them. -/
def twoHours : List Op :=
  [.writeEnvelope (str "bucket") (str "set") (Envelope.new 5) 3599999999,
    .writeEnvelope (str "bucket") (str "set") (Envelope.new 6) 3600000000, .flushOutputStreams,
    .writeEnvelope (str "bucket") (str "set") (Envelope.new 7) 0]

theorem valid_twoHours : ∀ op ∈ twoHours, op.Valid := by
  have hwrite : ∀ now time, 0 ≤ time → time < 2 ^ 31 * 1000000 →
      (Envelope.new now).serialize ≠ [] → (Envelope.new now).serialize.length < 2 ^ 31 →
      (Op.writeEnvelope (str "bucket") (str "set") (Envelope.new now) time).Valid :=
    fun now time h0 hlt hne hlen => ⟨validName_bucket, validName_set, hne, hlen, h0, hlt⟩
  intro op hop
  simp only [twoHours, List.mem_cons, List.not_mem_nil, or_false] at hop
  rcases hop with rfl | rfl | rfl | rfl
  · exact hwrite 5 3599999999 (by decide) (by decide) (by decide) (by decide)
  · exact hwrite 6 3600000000 (by decide) (by decide) (by decide) (by decide)
  · trivial
  · exact hwrite 7 0 (by decide) (by decide) (by decide) (by decide)

theorem write_read_agreement_two_hours :
    ∃ store', onEmptyDirectory.run 0 twoHours = some store' ∧
      store'.destroy.files.lookup
        [str "store", str "bucket", str "set", str "1970-01-01-00.zippylog"] =
          some [1, 2, 40, 5, 2, 40, 7] := by
  obtain ⟨-, store', hrun, hfiles, -⟩ :=
    write_read_agreement 0 emptyRoot_onEmptyDirectory valid_twoHours
  exact ⟨store', hrun, (hfiles firstHour (by decide)).1⟩

/-! ## Envelopes that are too long -/

/-- Of two envelopes of 2^30 - 5 bytes only the first is read: the byte limit of the
coded stream, which is not rebuilt between them, falls into the second. -/
theorem not_readsBack_long {e : Envelope} (he : e = longEnvelope (2 ^ 30 - 11)) :
    ¬ ReadsBack (streamFile [e.serialize, e.serialize]) [e, e] := by
  have hlen : e.serialize.length = 2 ^ 30 - 5 := by
    rw [he]
    rw [length_serialize_longEnvelope (by decide),
      encodeVarint_length_eq (k := 4) (by decide) (by decide)]
    decide
  have hvarint : (encodeVarint e.serialize.length).length = 5 := by
    rw [hlen]
    exact encodeVarint_length_eq (k := 4) (by decide) (by decide)
  have hbytes : bytesReadOf e.serialize.length = 2 ^ 30 - 1 := by
    rw [hlen, bytesReadOf_eq (by decide)]
    decide
  obtain ⟨s₀, hopen, hat₀, hnext₀, -⟩ :=
    InputStream.ofFile_at (records [e.serialize, e.serialize])
  let m₀ : Meter := ⟨1, 0, intMax⟩
  have hbody₀ : m₀.body e.serialize.length = ⟨6, 0, intMax⟩ := by
    rw [Meter.body, if_neg (by decide), hvarint]
  have hroom : m₀.Room e.serialize.length := by
    refine ⟨?_, ?_, Nat.le_refl _⟩
    · rw [hvarint]
      decide
    · rw [hbody₀, hlen]
      decide
  -- the first envelope is read: the limit of the coded stream is behind it
  obtain ⟨s₁, hread, hat₁, -, -⟩ := hat₀.readEnvelope (Envelope.parse_serialize e)
    (by rw [hlen]; decide) hroom
  have hmeter : m₀.next e.serialize.length = ⟨2 ^ 30 + 1, 2 ^ 30 - 1, intMax⟩ := by
    rw [Meter.next, hbody₀, hbytes, hlen]
    rfl
  have hbody₁ : (Meter.mk (2 ^ 30 + 1) (2 ^ 30 - 1) intMax).body e.serialize.length =
      ⟨2 ^ 30 + 6, 2 ^ 30 - 1, intMax⟩ := by
    rw [Meter.body, if_neg (by decide), hvarint]
  rw [hmeter] at hat₁
  have hfield : e.serialize = [(longField (2 ^ 30 - 11)).encode].flatten := by
    rw [he]
    exact serialize_longEnvelope _
  have hlenField : (longField (2 ^ 30 - 11)).encode.length = 2 ^ 30 - 5 := by
    rw [← hlen, hfield, List.flatten_singleton]
  -- the count is not above half of the limit yet, so the second one meets the limit
  obtain ⟨n, s₂, hnone⟩ : ∃ n s₂, s₁.readEnvelope = (none, n, s₂) := by
    have hat : s₁.At (1 + bytesReadOf e.serialize.length) (record e.serialize ++ [])
        ⟨2 ^ 30 + 1, 2 ^ 30 - 1, intMax⟩ := hat₁
    rw [hfield] at hat hvarint hbody₁
    have hlen' : [(longField (2 ^ 30 - 11)).encode].flatten.length = 2 ^ 30 - 5 := by
      rw [← hfield, hlen]
    refine hat.readEnvelope_long (@items_encode 0 [longField _] fun f _ => f.within_zero)
      (hfield ▸ Envelope.parse_serialize e) ?_ ?_ ?_ ?_ ?_ ?_
    · rw [hlen']
      decide
    · rw [hlen']
      decide
    · rw [hvarint]
      decide
    · rw [hbody₁]
    · rw [hbody₁, hlen']
      decide
    · rw [hbody₁]
      exact Envelope.not_betweenFields (j := 0)
        ⟨rfl, by decide, by rw [hlenField]; decide, (Nat.zero_add _).symm⟩ (by decide)
  rintro ⟨s, ens, s', hopen', hreads, hens⟩
  rw [streamFile, hopen] at hopen'
  cases hopen'
  obtain ⟨rfl, -⟩ := (ReadsAll.read hread (.done hnone)).unique hreads
  exact absurd (congrArg List.length hens) (by simp)

/-- Two envelopes of 2^30 - 5 bytes written to one stream. -/
def longWrites : List Op :=
  [.writeEnvelope (str "bucket") (str "set") (longEnvelope (2 ^ 30 - 11)) 0, .flushOutputStreams,
    .writeEnvelope (str "bucket") (str "set") (longEnvelope (2 ^ 30 - 11)) 0]

theorem writtenTo_longWrites :
    writtenTo longWrites firstHour =
      [longEnvelope (2 ^ 30 - 11), longEnvelope (2 ^ 30 - 11)] := rfl

theorem valid_longWrites : ∀ op ∈ longWrites, op.Valid := by
  have hlen : (longEnvelope (2 ^ 30 - 11)).serialize.length = 2 ^ 30 - 5 := by
    rw [length_serialize_longEnvelope (by decide),
      encodeVarint_length_eq (k := 4) (by decide) (by decide)]
    decide
  have hwrite : (Op.writeEnvelope (str "bucket") (str "set") (longEnvelope (2 ^ 30 - 11)) 0).Valid := by
    refine ⟨validName_bucket, validName_set, ?_, ?_, by decide, by decide⟩
    · rw [← List.length_pos_iff, hlen]
      decide
    · rw [hlen]
      decide
  intro op hop
  simp only [longWrites, List.mem_cons, List.not_mem_nil, or_false] at hop
  rcases hop with rfl | rfl | rfl
  · exact hwrite
  · trivial
  · exact hwrite

/-- The file has both of them, and a reader gets one. -/
theorem not_write_read_agreement_long :
    (∀ op ∈ longWrites, op.Valid) ∧
    ∃ store' content, onEmptyDirectory.run 0 longWrites = some store' ∧
      store'.destroy.files.lookup (firstHour.file onEmptyDirectory.root) = some content ∧
      ¬ ReadsBack content (writtenTo longWrites firstHour) := by
  refine ⟨valid_longWrites, ?_⟩
  obtain ⟨store', hrun, hrootPath, hholds⟩ :=
    emptyRoot_onEmptyDirectory.holds.run 0 valid_longWrites
  have hroot : store'.root = onEmptyDirectory.root := congrArg resolve hrootPath
  simp only [List.nil_append] at hholds
  have hmem : firstHour ∈ nonempty fun x => (writtenTo longWrites x).map Envelope.serialize := by
    intro hnil
    have hnil : (writtenTo longWrites firstHour).map Envelope.serialize = [] := hnil
    rw [writtenTo_longWrites] at hnil
    cases hnil
  refine ⟨store', _, hrun, hroot ▸ hholds.destroy.1 firstHour hmem, ?_⟩
  rw [writtenTo_longWrites]
  exact not_readsBack_long rfl

end SimpleDirectoryStore

end Zippylog
