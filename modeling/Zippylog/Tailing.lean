import Zippylog.Outcomes
import Zippylog.SimpleDirectoryStoreProof
import Zippylog.StoreAccess
import Zippylog.TornSegments

/-!
# Reading a stream that is written

A client asks for segments of a stream while the store of the server writes to it: each request
starts where the last segment ended, and between any two of them there can be writes, flushes and
spills, by which the library writes out a part of a buffer. So a request can find a file that ends
inside a record, and the client is to have nothing twice and to miss nothing all the same.

- `SimpleDirectoryStore.view` is the store as its readers see it, from the files as they are.
- `Extends`: no operation takes anything away from a file.
- `Runs`: writes and requests in any order. A request is made when the file is not cut between two
  fields of an envelope, or of an actor in it (`Still`): there the reader takes the part of the
  envelope for all of it, and the client would get an envelope that was never written.
- `Fits`: no envelope is empty or has 2^28 bytes, from where on the reader counts records short,
  and the file ends below 2^63.
- `tail_in_order`: what the client has is what was written first.
- `tail_catches_up`: after a flush it gets all of it.
-/

namespace Zippylog

open Wire Platform

namespace SimpleDirectoryStore

/-! ## The store as it is read -/

/-- The names in a directory. -/
def childNames (entries : List (List Bytes)) (dir : List Bytes) : List Bytes :=
  entries.filterMap fun p => if p.dropLast = dir then p.getLast? else none

/-- `BucketNames`, `StreamSetNames`, `StreamNames` and the files, on the file system of the
store. -/
def view (store : SimpleDirectoryStore) : Store where
  bucketNames := childNames store.fs.directories store.root
  streamSetNames bucket := childNames store.fs.directories
    (resolve (store.pathToFilesystemPath (Store.bucketPath bucket)))
  streamNames bucket set := (childNames store.fs.files.keys
    (resolve (store.pathToFilesystemPath (Store.streamsetPath bucket set)))).filterMap
      StoreAccess.streamName?
  file bucket set stream := store.fs.files.lookup
    (resolve (store.streamFilesystemPath (Store.streamPath bucket set stream)))

theorem mem_childNames {entries : List (List Bytes)} {dir : List Bytes} {name : Bytes}
    (h : dir ++ [name] ∈ entries) : name ∈ childNames entries dir := by
  refine List.mem_filterMap.mpr ⟨_, h, ?_⟩
  rw [List.dropLast_concat, if_pos rfl, List.getLast?_concat]

/-! ## What is there stays -/

/-- Directories stay, and files only grow. -/
structure Extends (fs fs' : FileSystem) : Prop where
  directories : fs.directories ⊆ fs'.directories
  files (p : List Bytes) (content : Bytes) (h : fs.files.lookup p = some content) :
    ∃ content', fs'.files.lookup p = some content' ∧ content <+: content'

theorem Extends.rfl {fs : FileSystem} : Extends fs fs :=
  ⟨fun _ h => h, fun _ content h => ⟨content, h, List.prefix_rfl⟩⟩

theorem Extends.trans {fs fs' fs'' : FileSystem} (h : Extends fs fs') (h' : Extends fs' fs'') :
    Extends fs fs'' := by
  refine ⟨fun _ hd => h'.directories (h.directories hd), fun p content hp => ?_⟩
  obtain ⟨content', hp', hprefix⟩ := h.files p content hp
  obtain ⟨content'', hp'', hprefix'⟩ := h'.files p content' hp'
  exact ⟨content'', hp'', hprefix.trans hprefix'⟩

theorem extends_makeDirectory (fs : FileSystem) (path : Bytes) :
    Extends fs (makeDirectory fs path).2 := by
  unfold makeDirectory
  dsimp only
  split
  · exact ⟨List.subset_cons_self _ _, fun _ content h => ⟨content, h, List.prefix_rfl⟩⟩
  · exact .rfl

/-- A file is replaced by one that begins with it. -/
theorem extends_insert (fs : FileSystem) (p : List Bytes) {content : Bytes}
    (h : ∀ content', fs.files.lookup p = some content' → content' <+: content) :
    Extends fs { fs with files := fs.files.insert p content } := by
  refine ⟨fun _ hd => hd, fun p' content' hp' => ?_⟩
  by_cases hp : p' = p
  · subst hp
    exact ⟨content, AList.lookup_insert _, h content' hp'⟩
  · exact ⟨content', (AList.lookup_insert_ne hp).trans hp', List.prefix_rfl⟩

/-- A stream that only appends makes its file longer, and leaves all others alone. -/
theorem extends_onStream (store : SimpleDirectoryStore) (key : Bytes)
    {f : FileOutputStream → FileOutputStream} (hf : ∀ s, s.file <+: (f s).file) :
    Extends store.fs (store.onStream key f).fs := by
  rw [onStream]
  split
  · exact .rfl
  · rename_i os hos
    refine extends_insert store.fs os.file fun content hcontent => ?_
    have hgrows := hf ⟨(store.fs.files.lookup os.file).getD [], os.buffer⟩
    rw [hcontent] at hgrows ⊢
    exact hgrows

theorem extends_flushOutputStreams (keys : List Bytes) :
    ∀ store : SimpleDirectoryStore, Extends store.fs
      (keys.foldl (fun store key => store.onStream key FileOutputStream.flush) store).fs := by
  induction keys with
  | nil => exact fun _ => .rfl
  | cons key keys ih =>
    intro store
    exact (extends_onStream store key fun s => List.prefix_append _ _).trans (ih _)

/-- The content of a file; a file that is not there has none. -/
def contentAt (fs : FileSystem) (p : List Bytes) : Bytes := (fs.files.lookup p).getD []

/-- A file without content can be given its version byte. -/
def Versioned (content content' : Bytes) : Prop :=
  content' = content ∨ content = [] ∧ content' = [1]

theorem Versioned.trans {content content' content'' : Bytes} (h : Versioned content content')
    (h' : Versioned content' content'') : Versioned content content'' := by
  rcases h with rfl | ⟨rfl, rfl⟩
  · exact h'
  · rcases h' with rfl | ⟨hnil, -⟩
    · exact .inr ⟨rfl, rfl⟩
    · cases hnil

/-- What a store becomes while it makes directories and opens a file. -/
structure Prepares (store store' : SimpleDirectoryStore) : Prop where
  rootPath : store'.rootPath = store.rootPath
  outStreams : store'.outStreams = store.outStreams
  fs : Extends store.fs store'.fs
  content (p : List Bytes) : Versioned (contentAt store.fs p) (contentAt store'.fs p)

theorem Prepares.rfl {store : SimpleDirectoryStore} : Prepares store store :=
  ⟨.refl _, .refl _, .rfl, fun _ => .inl (.refl _)⟩

theorem Prepares.trans {store store' store'' : SimpleDirectoryStore} (h : Prepares store store')
    (h' : Prepares store' store'') : Prepares store store'' :=
  ⟨h'.rootPath.trans h.rootPath, h'.outStreams.trans h.outStreams, h.fs.trans h'.fs,
    fun p => (h.content p).trans (h'.content p)⟩

theorem Prepares.root {store store' : SimpleDirectoryStore} (h : Prepares store store') :
    store'.root = store.root := congrArg resolve h.rootPath

theorem versioned_insert (fs : FileSystem) {p : List Bytes} {content : Bytes}
    (h : Versioned (contentAt fs p) content) (p' : List Bytes) :
    Versioned (contentAt fs p') (contentAt { fs with files := fs.files.insert p content } p') := by
  by_cases hp : p' = p
  · subst hp
    rw [contentAt, contentAt, AList.lookup_insert]
    exact h
  · rw [contentAt, contentAt, AList.lookup_insert_ne hp]
    exact .inl rfl

/-- A file is opened with its content, or with its version byte. -/
theorem versioned_ofFile (content : Option Bytes) :
    Versioned (content.getD []) (FileOutputStream.ofFile content).file := by
  rw [FileOutputStream.ofFile]
  dsimp only
  split
  · rename_i hempty
    rw [List.eq_nil_of_length_eq_zero hempty]
    exact .inr ⟨rfl, rfl⟩
  · exact .inl rfl

theorem Versioned.le {content content' : Bytes} (h : Versioned content content') :
    content <+: content' := by
  rcases h with rfl | ⟨rfl, rfl⟩
  · exact List.prefix_rfl
  · exact List.nil_prefix

/-- Opening a stream makes directories and a file with the version byte, and appends to nothing. -/
theorem prepares_openOutput {store store' : SimpleDirectoryStore} {path : Bytes}
    {os : OpenOutputStream} (h : store.openOutput path = .ok (os, store')) :
    Prepares store store' := by
  rw [openOutput] at h
  split at h
  · cases h
  · rename_i content hopen
    obtain ⟨-, rfl⟩ := Prod.mk.inj (Except.ok.inj h)
    have hcontent : content.getD [] = contentAt store.fs (resolve path) := by
      rw [openFile] at hopen
      split at hopen
      · cases hopen
      · rw [contentAt]
        split at hopen
        · rename_i hlookup
          obtain rfl := Option.some.inj hopen
          rw [hlookup]
        · rename_i hlookup
          split at hopen
          · obtain rfl := Option.some.inj hopen
            rw [hlookup]
          · cases hopen
    have hversioned := versioned_ofFile content
    rw [hcontent] at hversioned
    refine ⟨rfl, rfl, extends_insert store.fs (resolve path) fun content' hcontent' => ?_,
      versioned_insert store.fs hversioned⟩
    rw [contentAt, hcontent'] at hversioned
    exact hversioned.le

/-- A directory that was found or made is there. -/
theorem prepares_directory {store store' : SimpleDirectoryStore} {path : Bytes} {ok : Bool}
    (h : (if pathIsDirectory store.fs path then (true, store)
      else ((makeDirectory store.fs path).1,
        { store with fs := (makeDirectory store.fs path).2 })) = (ok, store')) :
    Prepares store store' ∧ (ok = true → resolve path ∈ store'.fs.directories) := by
  split at h
  · rename_i hdirectory
    obtain ⟨rfl, rfl⟩ := Prod.mk.inj h
    exact ⟨.rfl, fun _ => of_decide_eq_true hdirectory⟩
  · obtain ⟨rfl, rfl⟩ := Prod.mk.inj h
    refine ⟨⟨rfl, rfl, extends_makeDirectory _ _, fun p => ?_⟩, fun hmade => ?_⟩
    · rw [makeDirectory]
      dsimp only
      split <;> exact .inl rfl
    rw [makeDirectory] at hmade ⊢
    dsimp only at hmade ⊢
    split at hmade
    · rename_i hfree
      rw [if_pos hfree]
      exact List.mem_cons_self
    · cases hmade

/-- **What `CreateOutputStream` leaves**: the directories on the way to the file. -/
theorem prepares_createOutputStream {store store' : SimpleDirectoryStore}
    {bucket set stream : Bytes} {o : Option OpenOutputStream}
    (h : store.createOutputStream bucket set stream = .ok (o, store')) :
    Prepares store store' ∧ (o.isSome →
      resolve (store.pathToFilesystemPath (Store.bucketPath bucket)) ∈ store'.fs.directories ∧
      resolve (store.pathToFilesystemPath (Store.streamsetPath bucket set)) ∈
        store'.fs.directories) := by
  rw [createOutputStream] at h
  generalize hbucket : (if store.bucketExists bucket then (true, store)
    else store.createBucket bucket) = made at h
  obtain ⟨ok, store₁⟩ := made
  obtain ⟨h₁, hd₁⟩ := prepares_directory hbucket
  dsimp only at h
  split at h
  · obtain ⟨rfl, rfl⟩ := Prod.mk.inj (Except.ok.inj h)
    exact ⟨h₁, fun hsome => absurd hsome Bool.false_ne_true⟩
  rename_i hok
  -- the bucket is there, and the stream set is made if it is not
  generalize hset : (if store₁.streamSetExists bucket set then (true, store₁)
    else store₁.createStreamset bucket set) = made at h
  obtain ⟨ok₂, store₂⟩ := made
  obtain ⟨h₂, hd₂⟩ := prepares_directory hset
  dsimp only at h
  split at h
  · obtain ⟨rfl, rfl⟩ := Prod.mk.inj (Except.ok.inj h)
    exact ⟨h₁.trans h₂, fun hsome => absurd hsome Bool.false_ne_true⟩
  rename_i hok₂
  -- and so is the stream set: the file is opened
  cases hopen : store₂.openOutput (store₂.streamFilesystemPath
      (Store.streamPath bucket set stream)) with
  | error e =>
    rw [hopen] at h
    cases h
  | ok opened =>
    obtain ⟨os, store₃⟩ := opened
    rw [hopen] at h
    obtain ⟨rfl, rfl⟩ := Prod.mk.inj (Except.ok.inj h)
    have h₃ := prepares_openOutput hopen
    have hroot : ∀ path, resolve (store₁.pathToFilesystemPath path) =
        resolve (store.pathToFilesystemPath path) := by
      intro path
      rw [pathToFilesystemPath, pathToFilesystemPath, h₁.rootPath]
    refine ⟨h₁.trans (h₂.trans h₃), fun _ => ⟨?_, ?_⟩⟩
    · exact h₃.fs.directories (h₂.fs.directories (hd₁ (eq_true_of_ne_false hok)))
    · rw [← hroot]
      exact h₃.fs.directories (hd₂ (eq_true_of_ne_false hok₂))

/-- The directories of the open streams are there. -/
def Placed (store : SimpleDirectoryStore) : Prop :=
  ∀ x : HourStream, x.path ∈ store.outStreams →
    store.root ++ [x.bucket] ∈ store.fs.directories ∧
      store.root ++ [x.bucket, x.set] ∈ store.fs.directories

theorem Placed.of_extends {store store' : SimpleDirectoryStore} (h : store.Placed)
    (hroot : store'.rootPath = store.rootPath)
    (hstreams : ∀ key, key ∈ store'.outStreams → key ∈ store.outStreams)
    (hfs : Extends store.fs store'.fs) : store'.Placed := by
  intro x hx
  have hroot' : store'.root = store.root := congrArg resolve hroot
  obtain ⟨hbucket, hset⟩ := h x (hstreams _ hx)
  rw [hroot']
  exact ⟨hfs.directories hbucket, hfs.directories hset⟩

/-- An operation on a stream takes no directory away. -/
theorem Placed.onStream {store : SimpleDirectoryStore} (h : store.Placed) (key : Bytes)
    {f : FileOutputStream → FileOutputStream} (hf : ∀ s, s.file <+: (f s).file) :
    (store.onStream key f).Placed := by
  refine h.of_extends (rootPath_onStream store key f) (fun key' hkey' => ?_)
    (extends_onStream store key hf)
  rw [SimpleDirectoryStore.onStream] at hkey'
  split at hkey'
  · exact hkey'
  · rename_i os hos
    rcases (AList.mem_insert _).mp hkey' with rfl | hkey'
    · exact AList.lookup_isSome.mp (by rw [hos]; rfl)
    · exact hkey'

theorem Placed.flush {store : SimpleDirectoryStore} (h : store.Placed) (keys : List Bytes) :
    (keys.foldl (fun store key => store.onStream key FileOutputStream.flush) store).Placed := by
  induction keys generalizing store with
  | nil => exact h
  | cons key keys ih => exact ih (h.onStream key fun s => List.prefix_append _ _)

/-- `ObtainOutputStream` opens a stream whose directories are there. -/
theorem Placed.obtainOutputStream {store store' : SimpleDirectoryStore} (h : store.Placed)
    {bucket set : Bytes} (hbucket : ValidName bucket) (hset : ValidName set) {clock time : Int}
    (h0 : 0 ≤ time) (hlt : time < 2 ^ 31 * 1000000) {key : Option Bytes}
    (hobtain : store.obtainOutputStream bucket set 3600 clock time = .ok (key, store')) :
    Extends store.fs store'.fs ∧ store'.Placed := by
  rw [SimpleDirectoryStore.obtainOutputStream, if_neg (Int.not_lt.mpr h0)] at hobtain
  simp only [Store.streamNameForTime_hour h0 hlt] at hobtain
  split at hobtain
  · obtain ⟨-, rfl⟩ := Prod.mk.inj (Except.ok.inj hobtain)
    exact ⟨.rfl, h⟩
  · split at hobtain
    · cases hobtain
    · rename_i store₁ hcreate
      obtain ⟨-, rfl⟩ := Prod.mk.inj (Except.ok.inj hobtain)
      obtain ⟨hprepares, -⟩ := prepares_createOutputStream hcreate
      refine ⟨hprepares.fs, h.of_extends hprepares.rootPath (fun key hkey => ?_) hprepares.fs⟩
      rwa [hprepares.outStreams] at hkey
    · rename_i os store₁ hcreate
      obtain ⟨-, rfl⟩ := Prod.mk.inj (Except.ok.inj hobtain)
      obtain ⟨hprepares, hdirectories⟩ := prepares_createOutputStream hcreate
      obtain ⟨hb, hs⟩ := hdirectories rfl
      rw [store.resolve_bucketPath hbucket] at hb
      rw [store.resolve_streamsetPath hbucket hset] at hs
      refine ⟨hprepares.fs, fun x hx => ?_⟩
      rcases (AList.mem_insert _).mp hx with hx | hx
      -- the stream that was opened
      · obtain ⟨rfl, rfl, -⟩ := Store.streamPath_injective x.validBucket x.validSet
          (Store.validName_hourName x.hour) hbucket hset (Store.validName_hourName _) hx
        have hroot : store₁.root = store.root := hprepares.root
        exact ⟨hroot ▸ hb, hroot ▸ hs⟩
      · rw [hprepares.outStreams] at hx
        exact h.of_extends hprepares.rootPath (fun key hkey => hprepares.outStreams ▸ hkey)
          hprepares.fs x (hprepares.outStreams ▸ hx)

/-- **Step lemma**: nothing is taken away, and the directories are there. -/
theorem extends_step {store store' : SimpleDirectoryStore} {clock : Int} {op : Op}
    (h : store.step clock op = some store') (hop : op.Valid) (hplaced : store.Placed) :
    Extends store.fs store'.fs ∧ store'.Placed := by
  cases op with
  | flushOutputStreams =>
    obtain rfl := Option.some.inj h
    exact ⟨extends_flushOutputStreams _ store, hplaced.flush _⟩
  | spill storePath n =>
    obtain rfl := Option.some.inj h
    exact ⟨extends_onStream store storePath fun s => List.prefix_append _ _,
      hplaced.onStream storePath fun s => List.prefix_append _ _⟩
  | writeEnvelope bucket set e time =>
    obtain ⟨hbucket, hset, -, -, h0, hlt⟩ := hop
    rw [SimpleDirectoryStore.step, SimpleDirectoryStore.writeEnvelope] at h
    cases hobtain : store.obtainOutputStream bucket set 3600 clock time with
    | error e =>
      rw [hobtain] at h
      cases h
    | ok obtained =>
      obtain ⟨key, store₁⟩ := obtained
      obtain ⟨hextends, hplaced₁⟩ := hplaced.obtainOutputStream hbucket hset h0 hlt hobtain
      rw [hobtain] at h
      cases key with
      | none => cases h
      | some key =>
        obtain rfl := Option.some.inj h
        exact ⟨hextends.trans (extends_onStream store₁ key fun s => List.prefix_rfl),
          hplaced₁.onStream key fun s => List.prefix_rfl⟩

end SimpleDirectoryStore

/-! ## The client -/

/-- A store that is written, and a client of one of its streams: the offset for its next request,
and what it has. -/
structure Tailer where
  store : SimpleDirectoryStore
  next : UInt64 := 0
  fetched : List Envelope := []

namespace Tailer

open SimpleDirectoryStore RequestProcessor

/-- What is between the start and the end of a segment, and the end. -/
def received : List Envelope → Option (List Envelope × StreamSegmentEndV1)
  | [] => none
  | _ :: rest =>
    match rest.getLast?.bind (·.getMessage 0) with
    | some (.streamSegmentEndV1 stop) => some (rest.dropLast, stop)
    | _ => none

inductive Action where
  | write (op : Op)
  | request (p : RequestProcessor) (request : Envelope)

/-- A request is answered from the files as they are, and an error changes nothing. -/
def step (clock : Int) (t : Tailer) : Action → Tailer
  | .write op =>
    match t.store.step clock op with
    | none => t
    | some store => { t with store := store }
  | .request p request =>
    match received ({ p with store := t.store.view }.processGetStream request {}).2.output with
    | none => t
    | some (payload, stop) => { t with next := stop.offset, fetched := t.fetched ++ payload }

/-- The file of the stream, if there is one. -/
def file (t : Tailer) (x : HourStream) : Option Bytes :=
  t.store.fs.files.lookup (x.file t.store.root)

/-- The records of a stream. -/
def bodies (ops : List Op) (x : HourStream) : List Bytes :=
  (writtenTo ops x).map Envelope.serialize

/-- The first records, and a part of the next one that no envelope is read from. -/
def Settled (bodies : List Bytes) (content : Bytes) : Prop :=
  ∃ n torn, content = streamFile (bodies.take n) ++ torn ∧ InputStream.Unread torn ∧
    ∀ body ∈ bodies[n]?, torn.length < (record body).length

/-- The file is not cut between two fields of an envelope, or of an actor in it: it ends with a
whole record, or with a part of one that no envelope is read from. -/
def Still (t : Tailer) (ops : List Op) (x : HourStream) : Prop :=
  ∀ content, t.file x = some content → Settled (bodies ops x) content

/-- A request for what follows. -/
structure Asks (t : Tailer) (x : HourStream) (p : RequestProcessor) (request : Envelope)
    (get : GetStreamSegmentV1) : Prop where
  get_eq : request.getMessage 0 = some (.getStreamSegmentV1 get)
  path_eq : get.path = x.path
  start_eq : get.startOffset = t.next
  limits : p.Limits get

/-- Writes and requests in any order, as long as the file is not cut between two fields when a
request is made. -/
inductive Runs (clock : Int) (x : HourStream) (store : SimpleDirectoryStore) :
    List Op → Tailer → Prop where
  | start : Runs clock x store [] { store := store }
  | write {ops : List Op} {t : Tailer} (h : Runs clock x store ops t) {op : Op} (hop : op.Valid) :
      Runs clock x store (ops ++ [op]) (t.step clock (.write op))
  | request {ops : List Op} {t : Tailer} (h : Runs clock x store ops t) {p : RequestProcessor}
      {request : Envelope} {get : GetStreamSegmentV1} (hasks : t.Asks x p request get)
      (hstill : t.Still ops x) : Runs clock x store ops (t.step clock (.request p request))

/-- Requests one after the other. -/
inductive Polls (clock : Int) (x : HourStream) : Nat → Tailer → Tailer → Prop where
  | done (t : Tailer) : Polls clock x 0 t t
  | request {n : Nat} {t t' : Tailer} {p : RequestProcessor} {request : Envelope}
      {get : GetStreamSegmentV1} (hasks : t.Asks x p request get)
      (h : Polls clock x n (t.step clock (.request p request)) t') : Polls clock x (n + 1) t t'

/-! ## Answers -/

theorem received_segmentResponse (p : RequestProcessor) (request : Envelope)
    (get : GetStreamSegmentV1) (payload : List Envelope) (stop : StreamSegmentEndV1) :
    received (p.segmentResponse request get payload stop) = some (payload, stop) := by
  rw [segmentResponse, List.cons_append, received, List.getLast?_concat, Option.bind_some, respond,
    Envelope.getMessage_ofMessage, List.dropLast_concat]

/-- An answer that is no segment. -/
theorem received_of_plain {p : RequestProcessor} {r : Processed} (h : p.Plain r) :
    received r.2.output = none := by
  rcases h with h | ⟨-, m, h⟩
  · rw [h]
    rfl
  · rw [h]
    rfl

section

variable {t : Tailer} {ops : List Op} {x : HourStream}

/-- The first records are in the file. -/
def InFile (t : Tailer) (ops : List Op) (x : HourStream) (k : Nat) : Prop :=
  ∃ content, t.file x = some content ∧ streamFile ((bodies ops x).take k) <+: content

/-- The client has the first records, and they are in the file. -/
structure Has (t : Tailer) (ops : List Op) (x : HourStream) (k : Nat) : Prop where
  le : k ≤ (writtenTo ops x).length
  fetched_eq : t.fetched = (writtenTo ops x).take k
  next_eq : Names t.next ((bodies ops x).take k)
  there : k = 0 ∨ t.InFile ops x k

/-- The store holds what was written, and its directories are there. -/
structure Stores (store : SimpleDirectoryStore) (ops : List Op) : Prop where
  holds : store.Holds (nonempty fun y => bodies ops y) fun y => bodies ops y
  placed : store.Placed

/-- The sizes that are counted right: envelopes of 1 to 2^28 - 1 bytes, in a file whose length is
an `int64`. -/
structure Fits (ops : List Op) (x : HourStream) : Prop where
  short : ∀ e ∈ writtenTo ops x, e.serialize ≠ [] ∧ e.serialize.length < 2 ^ 28
  file : (streamFile (bodies ops x)).length < 2 ^ 63

theorem Fits.readable (h : Fits ops x) : InputStream.Readable (bodies ops x) := by
  intro body hbody
  obtain ⟨e, he, rfl⟩ := List.mem_map.mp hbody
  obtain ⟨hne, hlen⟩ := h.short e he
  exact ⟨⟨e, Envelope.parse_serialize e⟩, List.length_pos_iff.mpr hne, hlen⟩

theorem streamFile_le {bodies bodies' : List Bytes} (h : bodies <+: bodies') :
    streamFile bodies <+: streamFile bodies' := by
  obtain ⟨rest, rfl⟩ := h
  rw [streamFile_append]
  exact List.prefix_append _ _

/-- In front of a cut record the file has no record that is not whole. -/
theorem le_of_length {bodies : List Bytes} {n k : Nat} {torn : Bytes}
    (hlt : ∀ body ∈ bodies[n]?, torn.length < (record body).length) (hk : k ≤ bodies.length)
    (hlen : (streamFile (bodies.take k)).length ≤ (streamFile (bodies.take n) ++ torn).length) :
    k ≤ n := by
  by_contra hnk
  have hn : n < bodies.length := by omega
  have hbody := hlt bodies[n] (List.getElem?_eq_getElem hn)
  have hnext := (streamFile_le
    (List.take_prefix_take_left (l := bodies) (Nat.lt_of_not_le hnk))).length_le
  rw [List.take_succ_eq_append_getElem hn, streamFile_append, records_cons, records_nil,
    List.append_nil, List.length_append] at hnext
  rw [List.length_append] at hlen
  omega

/-- A stream with a file is served under its path. -/
theorem Stores.serves (h : Stores t.store ops) {content : Bytes} (hfile : t.file x = some content)
    (p : RequestProcessor) : { p with store := t.store.view }.Serves x.path content := by
  have hopen : x ∈ nonempty fun y => bodies ops y := by
    by_contra hx
    exact Option.some_ne_none content (hfile.symm.trans (h.holds.of_notMem x hx).2.1)
  obtain ⟨buffer, content', hos, -, -⟩ := h.holds.of_mem x hopen
  obtain ⟨hbucket, hset⟩ := h.placed x (AList.lookup_isSome.mp (by rw [hos]; rfl))
  refine ⟨x.bucket, x.set, Store.hourName x.hour, Store.parsePath_streamPath x.validBucket
    x.validSet (Store.validName_hourName x.hour), x.validBucket.ne_nil, x.validSet.ne_nil,
    (Store.validName_hourName x.hour).ne_nil, decide_eq_true (mem_childNames hbucket), ?_, ?_⟩
  · refine decide_eq_true ?_
    show x.set ∈ childNames t.store.fs.directories _
    rw [t.store.resolve_bucketPath x.validBucket]
    exact mem_childNames (by rwa [List.append_assoc])
  · show t.store.fs.files.lookup (resolve (t.store.streamFilesystemPath x.path)) = some content
    rw [t.store.resolve_streamFilesystemPath x]
    exact hfile

/-- A path that is served is that of the file. -/
theorem file_of_serves {p : RequestProcessor} {content : Bytes}
    (h : { p with store := t.store.view }.Serves x.path content) : t.file x = some content := by
  obtain ⟨bucket, set, stream, hparse, -, -, -, -, -, hfile⟩ := h
  rw [HourStream.path, Store.parsePath_streamPath x.validBucket x.validSet
    (Store.validName_hourName x.hour)] at hparse
  obtain ⟨rfl, rfl, rfl⟩ : x.bucket = bucket ∧ x.set = set ∧ Store.hourName x.hour = stream := by
    simpa using hparse
  rw [← hfile]
  show t.store.fs.files.lookup _ = t.store.fs.files.lookup _
  rw [← t.store.resolve_streamFilesystemPath x]
  rfl

/-- Without a file there is nothing to send. -/
theorem received_of_no_file {p : RequestProcessor} {request : Envelope} {get : GetStreamSegmentV1}
    (hasks : t.Asks x p request get) (hfile : t.file x = none) :
    received ({ p with store := t.store.view }.processGetStream request {}).2.output = none := by
  refine received_of_plain (plain_processGetStream rfl ?_)
  rintro ⟨get', hget, stream, e, size, s', ⟨content, s, hserves, hopen, -⟩, -⟩
  obtain rfl : get = get' :=
    Message.getStreamSegmentV1.inj (Option.some.inj (hasks.get_eq.symm.trans hget))
  rw [hasks.path_eq] at hserves
  exact Option.some_ne_none content ((file_of_serves hserves).symm.trans hfile)

/-- The answer to a request, from the file as it is: the next records, unless there is none that is
whole, or it is too long for a stream that seeks. -/
theorem answer_cases (hstores : Stores t.store ops) (hfits : Fits ops x) {k : Nat}
    (hhas : t.Has ops x k) {p : RequestProcessor} {request : Envelope} {get : GetStreamSegmentV1}
    (hasks : t.Asks x p request get) (hstill : t.Still ops x) :
    (∃ j stop, 1 ≤ j ∧ k + j ≤ (writtenTo ops x).length ∧
      received ({ p with store := t.store.view }.processGetStream request {}).2.output =
        some (((writtenTo ops x).drop k).take j, stop) ∧
      Names stop.offset ((bodies ops x).take (k + j)) ∧ t.InFile ops x (k + j)) ∨
    (received ({ p with store := t.store.view }.processGetStream request {}).2.output = none ∧
      (t.InFile ops x (k + 1) → ∀ body ∈ (bodies ops x)[k]?,
        t.next ≠ 0 ∧ 64 * 2 ^ 20 < (record body).length)) := by
  have hlength : (bodies ops x).length = (writtenTo ops x).length := List.length_map _
  cases hfile : t.file x with
  | none =>
    refine .inr ⟨received_of_no_file hasks hfile, ?_⟩
    rintro ⟨content, h, -⟩
    rw [hfile] at h
    cases h
  | some content =>
    have hserves := hstores.serves hfile p
    obtain ⟨n, torn, rfl, hunread, hlt⟩ := hstill content hfile
    -- the client is not ahead of the cut
    have hle : ∀ i, i ≤ (bodies ops x).length → i = 0 ∨ t.InFile ops x i → i ≤ n := by
      rintro i hi (rfl | ⟨content, h, hprefix⟩)
      · exact Nat.zero_le n
      · rw [hfile] at h
        obtain rfl := Option.some.inj h
        exact le_of_length hlt hi hprefix.length_le
    have hkn := hle k (hlength ▸ hhas.le) hhas.there
    have hsplit : (bodies ops x).take k ++ ((bodies ops x).take n).drop k =
        (bodies ops x).take n := by
      conv_rhs => rw [← List.take_append_drop k ((bodies ops x).take n), List.take_take,
        Nat.min_eq_left hkn]
    have hshort : (streamFile ((bodies ops x).take n)).length < 2 ^ 63 :=
      Nat.lt_of_le_of_lt (streamFile_le (List.take_prefix n _)).length_le hfits.file
    rw [← hasks.path_eq, ← hsplit] at hserves
    rw [← hsplit] at hshort
    have hstart : Names get.startOffset ((bodies ops x).take k) := hasks.start_eq ▸ hhas.next_eq
    have hreadable : InputStream.Readable (((bodies ops x).take n).drop k) :=
      fun body hbody => hfits.readable body (List.mem_of_mem_take (List.mem_of_mem_drop hbody))
    have hparses : InputStream.Parses (((bodies ops x).take n).drop k)
        (((writtenTo ops x).take n).drop k) :=
      List.forall₂_drop k (List.forall₂_take n (InputStream.parses_map_serialize _))
    rcases processGetStream_torn_or hasks.get_eq (hasks.limits.of_store _) hserves hstart hunread
      hparses hreadable hshort {} with
      ⟨j, stop, hpos, hj, hends, hresponse⟩ | ⟨hresponse, hlong⟩
    · rw [List.length_drop, List.length_take] at hj
      have htake : ∀ {α : Type} (l : List α), ((l.take n).drop k).take j = (l.drop k).take j := by
        intro α l
        rw [List.drop_take, List.take_take, Nat.min_eq_left (by omega)]
      refine .inl ⟨j, stop, hpos, by omega, ?_, ?_, _, hfile, ?_⟩
      · rw [hresponse, htake]
        exact received_segmentResponse _ request get _ stop
      · rw [List.take_add, ← htake]
        exact names_of_ends hends
      · exact (streamFile_le (List.take_prefix_take_left (by omega))).trans
          (List.prefix_append _ _)
    · refine .inr ⟨by rw [hresponse]; rfl, fun hin body hbody => ?_⟩
      obtain ⟨hk, -⟩ := List.getElem?_eq_some_iff.mp hbody
      have hkn' := hle (k + 1) hk (.inr hin)
      rw [← hasks.start_eq]
      refine hlong body ?_
      rw [List.head?_drop, List.getElem?_take_of_lt hkn']
      exact hbody

/-! ## Steps -/

/-- A request changes nothing in the store. -/
theorem store_request (t : Tailer) (clock : Int) (p : RequestProcessor) (request : Envelope) :
    (t.step clock (.request p request)).store = t.store := by
  rw [step]
  split <;> rfl

/-- **Step lemma** of a request: the client has at least as much as before, and more unless there
is no further record that is whole, or it is too long for a stream that seeks. -/
theorem Has.request {k : Nat} (hhas : t.Has ops x k) (hstores : Stores t.store ops)
    (hfits : Fits ops x) {p : RequestProcessor} {request : Envelope} {get : GetStreamSegmentV1}
    (hasks : t.Asks x p request get) (hstill : t.Still ops x) (clock : Int) :
    ∃ k', k ≤ k' ∧ (t.step clock (.request p request)).Has ops x k' ∧
      (k' = k → t.InFile ops x (k + 1) → ∀ body ∈ (bodies ops x)[k]?,
        t.next ≠ 0 ∧ 64 * 2 ^ 20 < (record body).length) := by
  rcases answer_cases hstores hfits hhas hasks hstill with
    ⟨j, stop, hpos, hj, hreceived, hnext, hin⟩ | ⟨hreceived, hlong⟩
  · have hstep : t.step clock (.request p request) =
        { t with
          next := stop.offset
          fetched := t.fetched ++ ((writtenTo ops x).drop k).take j } := by
      rw [step, hreceived]
    rw [hstep]
    refine ⟨k + j, Nat.le_add_right k j, ⟨hj, ?_, hnext, .inr hin⟩, fun heq => by omega⟩
    rw [hhas.fetched_eq, List.take_add]
  · have hstep : t.step clock (.request p request) = t := by
      rw [step, hreceived]
    rw [hstep]
    exact ⟨k, Nat.le_refl k, hhas, fun _ => hlong⟩

theorem writtenTo_append (ops : List Op) (op : Op) (x : HourStream) :
    writtenTo (ops ++ [op]) x = writtenTo ops x ++ (op.writes x).toList := by
  rw [writtenTo, List.filterMap_append]
  cases h : op.writes x with
  | none => rw [List.filterMap_cons_none h]; rfl
  | some e => rw [List.filterMap_cons_some h]; rfl

theorem writtenTo_le (ops : List Op) (op : Op) (x : HourStream) :
    writtenTo ops x <+: writtenTo (ops ++ [op]) x := by
  rw [writtenTo_append]
  exact List.prefix_append _ _

theorem bodies_append (ops : List Op) (op : Op) (x : HourStream) :
    bodies (ops ++ [op]) x = bodies ops x ++ ((op.writes x).map Envelope.serialize).toList := by
  rw [bodies, writtenTo_append, List.map_append]
  cases op.writes x <;> rfl

/-- **Step lemma** of a write. -/
theorem Stores.write (h : Stores t.store ops) (clock : Int) {op : Op} (hop : op.Valid) :
    ∃ store, t.step clock (.write op) = { t with store := store } ∧
      Stores store (ops ++ [op]) ∧ store.root = t.store.root ∧
      Extends t.store.fs store.fs := by
  obtain ⟨store, hstep, hroot, hholds⟩ := h.holds.step clock hop
  obtain ⟨hextends, hplaced⟩ := extends_step hstep hop h.placed
  refine ⟨store, ?_, ⟨?_, hplaced⟩, congrArg resolve hroot, hextends⟩
  · rw [step, hstep]
  · simp only [bodies_append]
    exact hholds

/-- What the client has stays the first of what is written. -/
theorem Has.extends {k : Nat} (hhas : t.Has ops x k) {store : SimpleDirectoryStore}
    (hroot : store.root = t.store.root) (hextends : Extends t.store.fs store.fs) {ops' : List Op}
    (hwritten : writtenTo ops x <+: writtenTo ops' x) : { t with store := store }.Has ops' x k := by
  have htake : (writtenTo ops' x).take k = (writtenTo ops x).take k := by
    obtain ⟨es, hes⟩ := hwritten
    rw [← hes, List.take_append_of_le_length hhas.le]
  have hbodies : (bodies ops' x).take k = (bodies ops x).take k := by
    rw [bodies, bodies, ← List.map_take, ← List.map_take, htake]
  refine ⟨hhas.le.trans hwritten.length_le, ?_, ?_, hhas.there.imp_right ?_⟩
  · rw [htake]
    exact hhas.fetched_eq
  · rw [hbodies]
    exact hhas.next_eq
  · rintro ⟨content, hfile, hprefix⟩
    obtain ⟨content', hfile', hgrown⟩ := hextends.files _ content hfile
    refine ⟨content', ?_, hbodies ▸ hprefix.trans hgrown⟩
    show store.fs.files.lookup (x.file store.root) = some content'
    rw [hroot]
    exact hfile'

theorem Fits.of_append {op : Op} (h : Fits (ops ++ [op]) x) : Fits ops x := by
  have hle := writtenTo_le ops op x
  refine ⟨fun e he => h.short e (hle.subset he), ?_⟩
  exact Nat.lt_of_le_of_lt (streamFile_le (hle.map Envelope.serialize)).length_le h.file

/-! ## Flushed files -/

/-- Everything that was written is in the file. -/
def Flushed (t : Tailer) (ops : List Op) (x : HourStream) : Prop :=
  if bodies ops x = [] then t.file x = none else t.file x = some (streamFile (bodies ops x))

theorem root_flushOutputStreams (store : SimpleDirectoryStore) :
    store.flushOutputStreams.root = store.root :=
  congrArg resolve (rootPath_flush_fold _ store)

theorem Stores.flush {store : SimpleDirectoryStore} (h : Stores store ops) :
    Stores store.flushOutputStreams ops :=
  ⟨h.holds.flush_fold _, h.placed.flush _⟩

/-- Behind a flush the files have all that was written. -/
theorem Stores.flushed (h : Stores t.store ops) :
    { t with store := t.store.flushOutputStreams }.Flushed ops x := by
  rw [Flushed]
  split
  · rename_i hnil
    exact (h.flush.holds.of_notMem x (not_not.mpr hnil)).2.1
  · rename_i hne
    show t.store.flushOutputStreams.fs.files.lookup (x.file t.store.flushOutputStreams.root) = _
    rw [root_flushOutputStreams]
    exact h.holds.destroy.1 x hne

/-- A file that ends with a record is not cut between two fields. -/
theorem Flushed.still (h : t.Flushed ops x) : t.Still ops x := by
  intro content hfile
  rw [Flushed] at h
  split at h
  · rw [hfile] at h
    cases h
  · rw [hfile] at h
    obtain rfl := Option.some.inj h
    refine ⟨(bodies ops x).length, [], ?_, InputStream.unread_nil, fun body hbody => ?_⟩
    · rw [List.take_length, List.append_nil]
    · rw [List.getElem?_eq_none (Nat.le_refl _)] at hbody
      cases hbody

theorem Flushed.inFile (h : t.Flushed ops x) (hne : bodies ops x ≠ []) (k : Nat) :
    t.InFile ops x k := by
  rw [Flushed, if_neg hne] at h
  exact ⟨_, h, streamFile_le (List.take_prefix k _)⟩

/-! ## Runs -/

variable {clock : Int} {store : SimpleDirectoryStore}

/-- **Run lemma**. -/
theorem Runs.has (h : Runs clock x store ops t) (hempty : store.EmptyRoot) :
    Stores t.store ops ∧ (Fits ops x → ∃ k, t.Has ops x k) := by
  induction h with
  | start =>
    refine ⟨⟨hempty.holds, fun y hy => ?_⟩, fun _ => ⟨0, Nat.zero_le _, rfl, rfl, .inl rfl⟩⟩
    change y.path ∈ store.outStreams at hy
    rw [hempty.outStreams_eq] at hy
    exact absurd hy (AList.notMem_empty _)
  | write h hop ih =>
    obtain ⟨hstores, hhas⟩ := ih
    obtain ⟨store', hstep, hstores', hroot, hextends⟩ := hstores.write clock hop
    rw [hstep]
    refine ⟨hstores', fun hfits => ?_⟩
    obtain ⟨k, hhas⟩ := hhas hfits.of_append
    exact ⟨k, hhas.extends hroot hextends (writtenTo_le _ _ x)⟩
  | request h hasks hstill ih =>
    obtain ⟨hstores, hhas⟩ := ih
    refine ⟨by rwa [store_request], fun hfits => ?_⟩
    obtain ⟨k, hhas⟩ := hhas hfits
    obtain ⟨k', -, hhas', -⟩ := hhas.request hstores hfits hasks hstill clock
    exact ⟨k', hhas'⟩

/-- A write to the first hour. -/
def firstWrite : Op := .writeEnvelope (str "bucket") (str "set") (Envelope.new 5) 0

theorem valid_firstWrite : firstWrite.Valid :=
  ⟨validName_bucket, validName_set, by decide, by decide, by decide, by decide⟩

/-- A request for the first hour, from its beginning. -/
def firstRequest : Envelope :=
  Envelope.ofMessage 0 (.getStreamSegmentV1 ⟨firstHour.path, 0, none, none⟩)

theorem asks_firstRequest {t : Tailer} (h : t.next = 0) :
    t.Asks firstHour (deferring []) firstRequest ⟨firstHour.path, 0, none, none⟩ :=
  ⟨Envelope.getMessage_ofMessage _ _, rfl, h.symm, by decide, by decide, nofun, nofun⟩

/-- The store after the write, and a client that has nothing. -/
def afterWrite : Tailer := step 0 { store := onEmptyDirectory } (.write firstWrite)

theorem runs_afterWrite : Runs 0 firstHour onEmptyDirectory [firstWrite] afterWrite :=
  .write .start valid_firstWrite

theorem fits_firstWrite : Fits [firstWrite, .flushOutputStreams] firstHour :=
  ⟨by decide, by decide⟩

/-- **A client keeps up**: whatever is written, flushed and spilled between its requests, it has the
first envelopes that were written to the stream, once and in order, if no request was made of a file
that is cut between two fields of an envelope and the sizes are counted right. A further such request
keeps it so, and gets at least the next record if it finds that whole in the file, unless the coded
stream of a request that seeks has no room for it. -/
theorem tail_in_order (hempty : store.EmptyRoot) (h : Runs clock x store ops t)
    (hfits : Fits ops x) :
    ∃ k ≤ (writtenTo ops x).length, t.fetched = (writtenTo ops x).take k ∧
      Names t.next ((bodies ops x).take k) ∧
      ∀ p request get, t.Asks x p request get → t.Still ops x →
        ∃ k' ≤ (writtenTo ops x).length, k ≤ k' ∧
          (t.step clock (.request p request)).fetched = (writtenTo ops x).take k' ∧
          (t.InFile ops x (k + 1) → ∀ body ∈ (bodies ops x)[k]?,
            t.next = 0 ∨ (record body).length ≤ 64 * 2 ^ 20 → k < k') := by
  obtain ⟨hstores, hhas⟩ := h.has hempty
  obtain ⟨k, hhas⟩ := hhas hfits
  refine ⟨k, hhas.le, hhas.fetched_eq, hhas.next_eq, fun p request get hasks hstill => ?_⟩
  obtain ⟨k', hle, hhas', hmore⟩ := hhas.request hstores hfits hasks hstill clock
  refine ⟨k', hhas'.le, hle, hhas'.fetched_eq, fun hin body hbody hroom => ?_⟩
  by_contra hk
  obtain ⟨hseek, hlong⟩ := hmore (by omega) hin body hbody
  rcases hroom with h0 | hshort
  · exact hseek h0
  · omega

/-- What was written and flushed is sent. -/
theorem tail_in_order_first :
    ((afterWrite.step 0 (.write .flushOutputStreams)).step 0
      (.request (deferring []) firstRequest)).fetched = [Envelope.new 5] := by
  have hrun : Runs 0 firstHour onEmptyDirectory [firstWrite, .flushOutputStreams] _ :=
    runs_afterWrite.write trivial
  have hflushed : (afterWrite.step 0 (.write .flushOutputStreams)).Flushed
      [firstWrite, .flushOutputStreams] firstHour := by
    rw [Flushed, if_neg (by decide)]
    decide +kernel
  have hnone : (afterWrite.step 0 (.write .flushOutputStreams)).fetched = [] := by decide +kernel
  obtain ⟨k, hk, hfetched, -, hmore⟩ :=
    tail_in_order emptyRoot_onEmptyDirectory hrun fits_firstWrite
  obtain rfl : k = 0 := by
    rw [hnone] at hfetched
    have hlength := congrArg List.length hfetched
    rw [List.length_take, Nat.min_eq_left hk] at hlength
    exact hlength.symm
  obtain ⟨k', hk', -, hfetched', hmore'⟩ :=
    hmore _ _ _ (asks_firstRequest (by decide +kernel)) hflushed.still
  have hpos := hmore' (hflushed.inFile (by decide) 1) _ rfl (.inl (by decide +kernel))
  obtain rfl : k' = 1 := Nat.le_antisymm hk' hpos
  exact hfetched'

/-- **Run lemma** of requests that nothing is written between. -/
theorem Polls.has {n : Nat} {t' : Tailer} (h : Polls clock x n t t') (hstores : Stores t.store ops)
    (hfits : Fits ops x) (hflushed : t.Flushed ops x)
    (hroom : ∀ body ∈ bodies ops x, (record body).length ≤ 64 * 2 ^ 20) :
    ∀ {k : Nat}, t.Has ops x k →
      ∃ k', t'.Has ops x k' ∧ min (k + n) (writtenTo ops x).length ≤ k' := by
  induction h with
  | done t => exact fun hhas => ⟨_, hhas, Nat.min_le_left _ _⟩
  | @request n t t' p request get hasks h ih =>
    intro k hhas
    have hstore := t.store_request clock p request
    obtain ⟨k₁, hle, hhas₁, hmore⟩ := hhas.request hstores hfits hasks hflushed.still clock
    have hflushed₁ : (t.step clock (.request p request)).Flushed ops x := by
      rw [Flushed, file, hstore]
      exact hflushed
    obtain ⟨k', hhas', hk'⟩ := ih (hstore ▸ hstores) hflushed₁ hhas₁
    have hlength : (bodies ops x).length = (writtenTo ops x).length := List.length_map _
    have hk₁ : k < (writtenTo ops x).length → k < k₁ := by
      intro hk
      by_contra hnot
      have hlt : k < (bodies ops x).length := by omega
      have hne : bodies ops x ≠ [] := List.ne_nil_of_length_pos (Nat.zero_lt_of_lt hlt)
      have hlong := (hmore (by omega) (hflushed.inFile hne _) _ (List.getElem?_eq_getElem hlt)).2
      have hshort := hroom _ (List.getElem_mem hlt)
      omega
    exact ⟨k', hhas', by omega⟩

/-- **A client catches up**: after a run of writes and requests, none of them made of a file that is
cut between two fields, and a flush, each request gets at least one more envelope. So as many
requests as there are envelopes that the client does not have are enough for all, if every record
fits the coded stream of a request that seeks. -/
theorem tail_catches_up (hempty : store.EmptyRoot) (h : Runs clock x store ops t)
    (hfits : Fits ops x) (hroom : ∀ e ∈ writtenTo ops x, (record e.serialize).length ≤ 64 * 2 ^ 20)
    {n : Nat} {t' : Tailer}
    (hpolls : Polls clock x n (t.step clock (.write .flushOutputStreams)) t')
    (hn : (writtenTo ops x).length ≤ t.fetched.length + n) :
    t'.fetched = writtenTo ops x := by
  obtain ⟨hstores, hhas⟩ := h.has hempty
  obtain ⟨k, hhas⟩ := hhas hfits
  have hhas' := hhas.extends (root_flushOutputStreams t.store)
    (extends_flushOutputStreams _ t.store) (List.prefix_refl (writtenTo ops x))
  obtain ⟨k', hhas', hle⟩ := Polls.has hpolls hstores.flush hfits hstores.flushed
    (fun body hbody => by
      obtain ⟨e, he, rfl⟩ := List.mem_map.mp hbody
      exact hroom e he) hhas'
  have hk : t.fetched.length = k := by
    rw [hhas.fetched_eq, List.length_take, Nat.min_eq_left hhas.le]
  rw [hhas'.fetched_eq, List.take_of_length_le (by omega)]

/-- One write, and one request. -/
theorem tail_catches_up_first :
    ((afterWrite.step 0 (.write .flushOutputStreams)).step 0
      (.request (deferring []) firstRequest)).fetched = writtenTo [firstWrite] firstHour :=
  tail_catches_up emptyRoot_onEmptyDirectory runs_afterWrite ⟨by decide, by decide⟩ (by decide)
    (.request (asks_firstRequest (by decide +kernel)) (.done _)) (by decide)

end

end Tailer

end Zippylog
