import Zippylog.Tailing

/-!
# The two stores of a server

A server has two `SimpleDirectoryStore`s on one directory: its own, for its log, and that of its
store writer, for what clients write. Each has its own open streams with their own buffers, and
they meet in the files. `Pump` flushes the first store when its timer is due. Nobody flushes the
second one, so what clients write gets to the files only where the library empties a full buffer,
or when the store writer is destroyed.

- `ServerStores`: the streams that each of them has open, and their file system.
- `Action.Made`: which operations there are on each of them. The streams of the server's log are
  written by the server alone, and clients write to all others.
- `Part`: as long as that is so, the open streams of each of them are some of those of a single
  store, for which it is known what its files hold (`Inv.run`).
- `written_out_by_the_library`, `nothing_to_read`: nothing but the library, and the destructor,
  writes out what clients write, and until then nobody can read it.
-/

namespace Zippylog

open Wire Platform

namespace SimpleDirectoryStore

/-! ## Other streams -/

/-- The same file system, and other open streams. -/
def withStreams (store : SimpleDirectoryStore)
    (streams : AList fun _ : Bytes => OpenOutputStream) : SimpleDirectoryStore :=
  { store with outStreams := streams }

variable {store : SimpleDirectoryStore} {streams : AList fun _ : Bytes => OpenOutputStream}

theorem outStreams_withStreams : (store.withStreams streams).outStreams = streams := rfl

theorem openOutput_withStreams (path : Bytes) :
    (store.withStreams streams).openOutput path =
      (store.openOutput path).map fun r => (r.1, r.2.withStreams streams) := by
  simp only [openOutput, withStreams]
  cases openFile store.fs path <;> rfl

/-- Opening a file does not depend on what is open. -/
theorem createOutputStream_withStreams (bucket set stream : Bytes) :
    (store.withStreams streams).createOutputStream bucket set stream =
      (store.createOutputStream bucket set stream).map fun r => (r.1, r.2.withStreams streams) := by
  have hbucket : (if (store.withStreams streams).bucketExists bucket then
      (true, store.withStreams streams) else (store.withStreams streams).createBucket bucket) =
      ((if store.bucketExists bucket then (true, store) else store.createBucket bucket).1,
        (if store.bucketExists bucket then (true, store)
          else store.createBucket bucket).2.withStreams streams) := by
    show (if store.bucketExists bucket then _ else _) = _
    split <;> rfl
  rw [createOutputStream, createOutputStream, hbucket]
  generalize (if store.bucketExists bucket then (true, store)
    else store.createBucket bucket) = made
  obtain ⟨ok, store₁⟩ := made
  have hset : (if (store₁.withStreams streams).streamSetExists bucket set then
      (true, store₁.withStreams streams)
      else (store₁.withStreams streams).createStreamset bucket set) =
      ((if store₁.streamSetExists bucket set then (true, store₁)
        else store₁.createStreamset bucket set).1,
        (if store₁.streamSetExists bucket set then (true, store₁)
          else store₁.createStreamset bucket set).2.withStreams streams) := by
    show (if store₁.streamSetExists bucket set then _ else _) = _
    split <;> rfl
  cases ok with
  | false => rfl
  | true =>
    simp only [Bool.true_eq_false, if_false, hset]
    generalize (if store₁.streamSetExists bucket set then (true, store₁)
      else store₁.createStreamset bucket set) = made
    obtain ⟨ok, store₂⟩ := made
    cases ok with
    | false => rfl
    | true =>
      simp only [Bool.true_eq_false, if_false]
      show Except.map _ ((store₂.withStreams streams).openOutput _) = _
      rw [openOutput_withStreams]
      show Except.map _ (Except.map _ (store₂.openOutput
        (store₂.streamFilesystemPath (Store.streamPath bucket set stream)))) = _
      cases store₂.openOutput (store₂.streamFilesystemPath (Store.streamPath bucket set stream)) <;>
        rfl

/-! ## Parts of a store -/

/-- The open streams are those of the store with the keys of `P`. -/
structure Part (P : Bytes → Prop) (streams : AList fun _ : Bytes => OpenOutputStream)
    (store : SimpleDirectoryStore) : Prop where
  own (key : Bytes) (h : P key) : streams.lookup key = store.outStreams.lookup key
  foreign (key : Bytes) (h : ¬ P key) : streams.lookup key = none

/-- Only streams with the keys of `P` are opened or changed. -/
structure Spares (P : Bytes → Prop) (store store' : SimpleDirectoryStore) : Prop where
  rootPath : store'.rootPath = store.rootPath
  lookup (key : Bytes) (h : ¬ P key) : store'.outStreams.lookup key = store.outStreams.lookup key

theorem Spares.rfl {P : Bytes → Prop} {store : SimpleDirectoryStore} : Spares P store store :=
  ⟨.refl _, fun _ _ => .refl _⟩

theorem Spares.trans {P : Bytes → Prop} {store store' store'' : SimpleDirectoryStore}
    (h : Spares P store store') (h' : Spares P store' store'') : Spares P store store'' :=
  ⟨h'.rootPath.trans h.rootPath, fun key hkey => (h'.lookup key hkey).trans (h.lookup key hkey)⟩

/-- What one part does leaves another one. -/
theorem Part.of_spares {P Q : Bytes → Prop} {store store' : SimpleDirectoryStore}
    (h : Part Q streams store) (hspares : Spares P store store') (hPQ : ∀ key, Q key → ¬ P key) :
    Part Q streams store' :=
  ⟨fun key hkey => (h.own key hkey).trans (hspares.lookup key (hPQ key hkey)).symm, h.foreign⟩

variable {P : Bytes → Prop}

/-- An operation on an open stream of a part is one on the stream of the store. -/
theorem Part.onStream (h : Part P streams store) (key : Bytes)
    (f : FileOutputStream → FileOutputStream) :
    ∃ streams' store', (store.withStreams streams).onStream key f = store'.withStreams streams' ∧
      (P key ∧ store' = store.onStream key f ∨ ¬ P key ∧ store' = store) ∧
      Part P streams' store' ∧ Spares P store store' := by
  by_cases hkey : P key
  swap
  · refine ⟨streams, store, ?_, .inr ⟨hkey, rfl⟩, h, .rfl⟩
    rw [SimpleDirectoryStore.onStream, outStreams_withStreams, h.foreign key hkey]
  cases hos : store.outStreams.lookup key with
  | none =>
    refine ⟨streams, store, ?_, .inl ⟨hkey, ?_⟩, h, .rfl⟩
    · rw [SimpleDirectoryStore.onStream, outStreams_withStreams, h.own key hkey, hos]
    · rw [SimpleDirectoryStore.onStream, hos]
  | some os =>
    have hne : ∀ key', ¬ P key' → key' ≠ key := by
      rintro key' hkey' rfl
      exact hkey' hkey
    let s := f ⟨(store.fs.files.lookup os.file).getD [], os.buffer⟩
    refine ⟨streams.insert key { os with buffer := s.buffer }, store.onStream key f, ?_,
      .inl ⟨hkey, rfl⟩, ⟨fun key' hkey' => ?_, fun key' hkey' => ?_⟩, ?_, fun key' hkey' => ?_⟩
    · rw [SimpleDirectoryStore.onStream, SimpleDirectoryStore.onStream, outStreams_withStreams,
        h.own key hkey, hos]
      rfl
    · rw [SimpleDirectoryStore.onStream, hos]
      show _ = (store.outStreams.insert key _).lookup key'
      by_cases heq : key' = key
      · subst heq
        rw [AList.lookup_insert, AList.lookup_insert]
      · rw [AList.lookup_insert_ne heq, AList.lookup_insert_ne heq, h.own key' hkey']
    · rw [AList.lookup_insert_ne (hne key' hkey'), h.foreign key' hkey']
    · exact rootPath_onStream store key f
    · rw [SimpleDirectoryStore.onStream, hos]
      exact AList.lookup_insert_ne (hne key' hkey')

/-- `ObtainOutputStream` of a part is that of the store. -/
theorem Part.obtainOutputStream (h : Part P streams store) {bucket set key : Bytes}
    {clock time : Int} {store' : SimpleDirectoryStore} (h0 : 0 ≤ time) (hlt : time < 2 ^ 31 * 1000000)
    (hP : P (Store.streamPath bucket set (Store.hourName (Store.hourOf time))))
    (hobtain : store.obtainOutputStream bucket set 3600 clock time = .ok (some key, store')) :
    ∃ streams', (store.withStreams streams).obtainOutputStream bucket set 3600 clock time =
        .ok (some key, store'.withStreams streams') ∧
      Part P streams' store' ∧ Spares P store store' ∧
      key = Store.streamPath bucket set (Store.hourName (Store.hourOf time)) ∧
      ∀ p, Versioned (contentAt store.fs p) (contentAt store'.fs p) := by
  rw [SimpleDirectoryStore.obtainOutputStream, if_neg (Int.not_lt.mpr h0)] at hobtain ⊢
  simp only [Store.streamNameForTime_hour h0 hlt] at hobtain ⊢
  have hmem : Store.streamPath bucket set (Store.hourName (Store.hourOf time)) ∈ streams ↔
      Store.streamPath bucket set (Store.hourName (Store.hourOf time)) ∈ store.outStreams := by
    rw [← AList.lookup_isSome, ← AList.lookup_isSome, h.own _ hP]
  -- the stream is open in both, or is opened and entered in both
  by_cases hopen :
      Store.streamPath bucket set (Store.hourName (Store.hourOf time)) ∈ store.outStreams
  · rw [if_pos hopen] at hobtain
    obtain ⟨hkey, rfl⟩ := Prod.mk.inj (Except.ok.inj hobtain)
    obtain rfl := Option.some.inj hkey
    refine ⟨streams, ?_, h, .rfl, rfl, fun _ => .inl rfl⟩
    exact if_pos (hmem.mpr hopen)
  · rw [if_neg hopen] at hobtain
    rw [if_neg (show ¬ _ ∈ (store.withStreams streams).outStreams from hmem.not.mpr hopen),
      createOutputStream_withStreams]
    split at hobtain
    · cases hobtain
    · cases hobtain
    · rename_i os store₁ hcreate
      obtain ⟨hkey, rfl⟩ := Prod.mk.inj (Except.ok.inj hobtain)
      obtain rfl := Option.some.inj hkey
      obtain ⟨hprepares, -⟩ := prepares_createOutputStream hcreate
      have hne : ∀ key', ¬ P key' →
          key' ≠ Store.streamPath bucket set (Store.hourName (Store.hourOf time)) := by
        rintro key' hkey' rfl
        exact hkey' hP
      rw [hcreate]
      refine ⟨streams.insert _ os, rfl, ⟨fun key' hkey' => ?_, fun key' hkey' => ?_⟩,
        ⟨hprepares.rootPath, fun key' hkey' => ?_⟩, rfl, hprepares.content⟩
      · show _ = (store₁.outStreams.insert _ _).lookup key'
        rw [hprepares.outStreams]
        by_cases heq : key' = Store.streamPath bucket set (Store.hourName (Store.hourOf time))
        · subst heq
          rw [AList.lookup_insert, AList.lookup_insert]
        · rw [AList.lookup_insert_ne heq, AList.lookup_insert_ne heq, h.own key' hkey']
      · rw [AList.lookup_insert_ne (hne key' hkey'), h.foreign key' hkey']
      · show (store₁.outStreams.insert _ _).lookup key' = _
        rw [hprepares.outStreams, AList.lookup_insert_ne (hne key' hkey')]

/-! ## What is written out -/

/-- The bytes that the library writes out of the buffer of a stream, at most. -/
def Op.spills (x : HourStream) : Op → Nat
  | .spill key n => if key = x.path then n else 0
  | _ => 0

variable {opened : Set HourStream} {contents : HourStream → List Bytes}

/-- The file of another stream stays. -/
theorem Holds.contentAt_onStream (h : store.Holds opened contents) {key : Bytes} {x : HourStream}
    (hne : key ≠ x.path) (f : FileOutputStream → FileOutputStream) :
    contentAt (store.onStream key f).fs (x.file store.root) =
      contentAt store.fs (x.file store.root) := by
  rw [SimpleDirectoryStore.onStream]
  split
  · rfl
  · rename_i os hos
    obtain ⟨y, rfl⟩ := h.stream_of_key key (AList.lookup_isSome.mp (by rw [hos]; rfl))
    have hfile : x.file store.root ≠ os.file := by
      rw [h.file_eq hos]
      exact fun heq => hne (congrArg HourStream.path (HourStream.file_injective heq).symm)
    exact congrArg (Option.getD · []) (AList.lookup_insert_ne hfile)

/-- What an operation on its stream does to a file. -/
theorem Holds.contentAt_onStream_self (h : store.Holds opened contents) (x : HourStream)
    {f : FileOutputStream → FileOutputStream} {n : Nat}
    (hf : ∀ s, (f s).file.length ≤ s.file.length + n) :
    (contentAt (store.onStream x.path f).fs (x.file store.root)).length ≤
      (contentAt store.fs (x.file store.root)).length + n := by
  rw [SimpleDirectoryStore.onStream]
  split
  · exact Nat.le_add_right _ _
  · rename_i os hos
    rw [contentAt, contentAt, ← h.file_eq hos, AList.lookup_insert]
    exact hf _

/-- Writing an envelope only fills the buffer. -/
theorem contentAt_writeEnvelope (store : SimpleDirectoryStore) (key : Bytes) (e : Envelope)
    (p : List Bytes) :
    contentAt (store.onStream key (·.writeEnvelope e)).fs p = contentAt store.fs p := by
  rw [SimpleDirectoryStore.onStream]
  split
  · rfl
  · rename_i os hos
    rw [contentAt, contentAt]
    by_cases hp : p = os.file
    · subst hp
      rw [AList.lookup_insert]
      rfl
    · rw [AList.lookup_insert_ne hp]

/-- What a step of a part comes to in the store. -/
structure Part.Steps (P : Bytes → Prop) (store store' : SimpleDirectoryStore)
    (streams' : AList fun _ : Bytes => OpenOutputStream) (op : Op)
    (contents : HourStream → List Bytes) : Prop where
  part : Part P streams' store'
  spares : Spares P store store'
  holds : store'.Holds
    (nonempty fun x => contents x ++ ((op.writes x).map Envelope.serialize).toList)
    fun x => contents x ++ ((op.writes x).map Envelope.serialize).toList
  content_le (x : HourStream) (h : op = .flushOutputStreams → ¬ P x.path) :
    (contentAt store'.fs (x.file store.root)).length ≤
      max 1 (contentAt store.fs (x.file store.root)).length + op.spills x

/-- A part flushes its own streams. -/
theorem Part.flush (keys : List Bytes) :
    ∀ {store : SimpleDirectoryStore} {streams : AList fun _ : Bytes => OpenOutputStream},
      Part P streams store → store.Holds opened contents →
      ∃ streams' store', keys.foldl (fun store key => store.onStream key FileOutputStream.flush)
          (store.withStreams streams) = store'.withStreams streams' ∧
        Part P streams' store' ∧ Spares P store store' ∧ store'.Holds opened contents ∧
        ∀ x : HourStream, ¬ P x.path →
          contentAt store'.fs (x.file store.root) = contentAt store.fs (x.file store.root) := by
  induction keys with
  | nil => exact fun h hholds => ⟨_, _, rfl, h, .rfl, hholds, fun _ _ => rfl⟩
  | cons key keys ih =>
    intro store streams h hholds
    obtain ⟨streams₁, store₁, heq, hcases, h₁, hspares₁⟩ :=
      h.onStream key FileOutputStream.flush
    have hmoved : store₁.Holds opened contents ∧ ∀ x : HourStream, ¬ P x.path →
        contentAt store₁.fs (x.file store.root) = contentAt store.fs (x.file store.root) := by
      rcases hcases with ⟨hkey, rfl⟩ | ⟨-, rfl⟩
      · refine ⟨hholds.onStream_same key fun hs => hs.flush, fun x hx => ?_⟩
        refine hholds.contentAt_onStream ?_ _
        rintro rfl
        exact hx hkey
      · exact ⟨hholds, fun _ _ => rfl⟩
    obtain ⟨streams', store', heq', h', hspares', hholds', hcontent'⟩ := ih h₁ hmoved.1
    refine ⟨streams', store', ?_, h', hspares₁.trans hspares', hholds', fun x hx => ?_⟩
    · rw [List.foldl_cons, heq]
      exact heq'
    · have hroot : store₁.root = store.root := congrArg resolve hspares₁.rootPath
      rw [← hmoved.2 x hx, ← hroot]
      exact hcontent' x hx

/-- **Step lemma** of a part. -/
theorem Part.step (h : Part P streams store) (hholds : store.Holds (nonempty contents) contents)
    (clock : Int) {op : Op} (hop : op.Valid)
    (hP : ∀ x : HourStream, (op.writes x).isSome → P x.path) :
    ∃ streams' store', (store.withStreams streams).step clock op =
        some (store'.withStreams streams') ∧
      Part.Steps P store store' streams' op contents := by
  have hsame : (∀ x, op.writes x = none) →
      (fun x => contents x ++ ((op.writes x).map Envelope.serialize).toList) = contents := by
    intro hnone
    funext x
    rw [hnone x]
    exact List.append_nil _
  cases op with
  -- a flush goes through the streams of the one store; the files of the others stay
  | flushOutputStreams =>
    obtain ⟨streams', store', heq, h', hspares, hholds', hcontent⟩ := h.flush streams.keys hholds
    refine ⟨streams', store', congrArg some heq, h', hspares, ?_, fun x hx => ?_⟩
    · rw [hsame fun _ => rfl]
      exact hholds'
    · rw [hcontent x (hx rfl)]
      exact Nat.le_add_right_of_le (Nat.le_max_right _ _)
  -- a part of one buffer goes to the file
  | spill key n =>
    obtain ⟨streams', store', heq, hcases, h', hspares⟩ := h.onStream key (·.spill n)
    refine ⟨streams', store', congrArg some heq, h', hspares, ?_, fun x _ => ?_⟩
    · rw [hsame fun _ => rfl]
      rcases hcases with ⟨-, rfl⟩ | ⟨-, rfl⟩
      · exact hholds.onStream_same key fun hs => hs.spill n
      · exact hholds
    · rcases hcases with ⟨-, rfl⟩ | ⟨-, rfl⟩
      · by_cases hkey : key = x.path
        · subst hkey
          have hle := hholds.contentAt_onStream_self x (f := (·.spill n)) (n := n) fun s => by
            show (s.file ++ s.buffer.take n).length ≤ _
            rw [List.length_append, List.length_take]
            omega
          rw [Op.spills, if_pos rfl]
          omega
        · rw [hholds.contentAt_onStream hkey]
          exact Nat.le_add_right_of_le (Nat.le_max_right _ _)
      · exact Nat.le_add_right_of_le (Nat.le_max_right _ _)
  | writeEnvelope bucket set e time =>
    obtain ⟨store', hstep, -, hholds'⟩ := hholds.step clock hop
    obtain ⟨hbucket, hset, -, -, h0, hlt⟩ := hop
    have hkey : P (Store.streamPath bucket set (Store.hourName (Store.hourOf time))) := by
      refine hP ⟨bucket, set, Store.hourOf time, hbucket, hset⟩ ?_
      rw [Op.writes, if_pos ⟨rfl, rfl, rfl⟩]
      rfl
    rw [SimpleDirectoryStore.step, SimpleDirectoryStore.writeEnvelope] at hstep ⊢
    cases hobtain : store.obtainOutputStream bucket set 3600 clock time with
    | error e =>
      rw [hobtain] at hstep
      cases hstep
    | ok obtained =>
      obtain ⟨key, store₁⟩ := obtained
      rw [hobtain] at hstep
      cases key with
      | none => cases hstep
      | some key =>
        obtain rfl := Option.some.inj hstep
        obtain ⟨streams₁, hobtain₁, h₁, hspares₁, rfl, hversioned⟩ :=
          h.obtainOutputStream h0 hlt hkey hobtain
        obtain ⟨streams', store'', heq, hcases, h', hspares'⟩ := h₁.onStream
          (Store.streamPath bucket set (Store.hourName (Store.hourOf time))) (·.writeEnvelope e)
        obtain rfl := (hcases.resolve_right fun hno => hno.1 hkey).2
        refine ⟨streams', _, ?_, h', hspares₁.trans hspares', hholds', fun x _ => ?_⟩
        · rw [hobtain₁]
          exact congrArg some heq
        · -- what is written goes to the buffer
          rw [contentAt_writeEnvelope]
          rcases hversioned (x.file store.root) with hsame | ⟨-, hnew⟩
          · rw [hsame]
            exact Nat.le_max_right _ _
          · rw [hnew]
            exact Nat.le_max_left _ _

/-! ## Files of a part -/

/-- A file begins as the file of its stream does. -/
theorem Holds.contentAt_le (h : store.Holds opened contents) (x : HourStream) :
    contentAt store.fs (x.file store.root) <+: streamFile (contents x) := by
  rw [contentAt]
  by_cases hx : x ∈ opened
  · obtain ⟨buffer, content, -, hcontent, hholds⟩ := h.of_mem x hx
    rw [hcontent, ← hholds.content_eq]
    exact List.prefix_append _ _
  · rw [(h.of_notMem x hx).2.1]
    exact List.nil_prefix

/-- What a part flushes is in the files. -/
theorem Part.flushed (h : Part P streams store) (hholds : store.Holds opened contents)
    {x : HourStream} (hx : x ∈ opened) (hP : P x.path) :
    (store.withStreams streams).flushOutputStreams.fs.files.lookup (x.file store.root) =
      some (streamFile (contents x)) := by
  obtain ⟨buffer₀, content₀, hos₀, -, -⟩ := hholds.of_mem x hx
  have hmem : x.path ∈ (store.withStreams streams).outStreams := by
    rw [← AList.lookup_isSome]
    show (streams.lookup x.path).isSome
    rw [h.own x.path hP, hos₀]
    rfl
  obtain ⟨file, hflushed⟩ := flushed_flush_fold (store.withStreams streams).outStreams.keys hmem
    (.inl (AList.mem_keys.mp hmem))
  obtain ⟨streams', store', heq, h', hspares, hholds', -⟩ := h.flush streams.keys hholds
  change (streams.keys.foldl _ (store.withStreams streams)).outStreams.lookup x.path = _ at hflushed
  rw [heq] at hflushed
  change streams'.lookup x.path = _ at hflushed
  obtain ⟨buffer, content, hos, hcontent, hfile⟩ := hholds'.of_mem x hx
  rw [h'.own x.path hP, hos] at hflushed
  obtain rfl := (OpenOutputStream.mk.inj (Option.some.inj hflushed)).2
  have hroot : store'.root = store.root := congrArg resolve hspares.rootPath
  have hall := hfile.content_eq
  rw [List.append_nil] at hall
  show (streams.keys.foldl _ (store.withStreams streams)).fs.files.lookup _ = _
  rw [heq, ← hall, ← hroot]
  exact hcontent

end SimpleDirectoryStore

/-! ## The two stores -/

/-- The store of the server and that of its store writer. -/
structure ServerStores where
  rootPath : Bytes
  fs : FileSystem
  server : AList fun _ : Bytes => OpenOutputStream := ∅
  writer : AList fun _ : Bytes => OpenOutputStream := ∅

namespace ServerStores

open SimpleDirectoryStore

/-- The store of the server: `LOG_MESSAGE` writes to it, and `Pump` flushes it. -/
def serverStore (s : ServerStores) : SimpleDirectoryStore := ⟨s.rootPath, s.fs, s.server⟩

/-- The store of the store writer. -/
def writerStore (s : ServerStores) : SimpleDirectoryStore := ⟨s.rootPath, s.fs, s.writer⟩

inductive Action where
  | server (op : Op)
  | writer (op : Op)

def Action.op : Action → Op
  | server op => op
  | writer op => op

/-- An operation of one of them, on the file system of both. -/
def step (clock : Int) (s : ServerStores) : Action → Option ServerStores
  | .server op => (s.serverStore.step clock op).map fun store =>
    { s with fs := store.fs, server := store.outStreams }
  | .writer op => (s.writerStore.step clock op).map fun store =>
    { s with fs := store.fs, writer := store.outStreams }

def run (clock : Int) (s : ServerStores) : List Action → Option ServerStores
  | [] => some s
  | a :: actions => (s.step clock a).bind (run clock · actions)

/-- The streams of the server's log. -/
def IsLog (bucket set : Bytes) (key : Bytes) : Prop :=
  ∃ x : HourStream, x.bucket = bucket ∧ x.set = set ∧ key = x.path

/-- The server writes to its log, and flushes; the store writer writes anything else, and does not
flush. The library can write out a part of any buffer. -/
def Action.Made (bucket set : Bytes) : Action → Prop
  | .server op => op.Valid ∧ ∀ x : HourStream, (op.writes x).isSome → IsLog bucket set x.path
  | .writer op => op.Valid ∧ op ≠ .flushOutputStreams ∧
    ∀ x : HourStream, (op.writes x).isSome → ¬ IsLog bucket set x.path

/-- The bytes that the library writes out of the buffer of a stream, at most. -/
def spilled (actions : List Action) (x : HourStream) : Nat :=
  (actions.map fun a => a.op.spills x).sum

/-- What is written to a stream. -/
def bodies (actions : List Action) (x : HourStream) : List Bytes :=
  (writtenTo (actions.map Action.op) x).map Envelope.serialize

section

variable {bucket set : Bytes}

/-- Both together are one store. -/
structure Inv (bucket set : Bytes) (s : ServerStores) (store : SimpleDirectoryStore)
    (contents : HourStream → List Bytes) : Prop where
  rootPath : store.rootPath = s.rootPath
  fs : store.fs = s.fs
  server : Part (IsLog bucket set) s.server store
  writer : Part (fun key => ¬ IsLog bucket set key) s.writer store
  holds : store.Holds (nonempty contents) contents

theorem Inv.serverStore {s : ServerStores} {store : SimpleDirectoryStore}
    {contents : HourStream → List Bytes} (h : Inv bucket set s store contents) :
    s.serverStore = store.withStreams s.server := by
  rw [ServerStores.serverStore, withStreams, ← h.rootPath, ← h.fs]

theorem Inv.writerStore {s : ServerStores} {store : SimpleDirectoryStore}
    {contents : HourStream → List Bytes} (h : Inv bucket set s store contents) :
    s.writerStore = store.withStreams s.writer := by
  rw [ServerStores.writerStore, withStreams, ← h.rootPath, ← h.fs]

/-- **Step lemma**: what one store does leaves the streams of the other one. -/
theorem Inv.step {s : ServerStores} {store : SimpleDirectoryStore}
    {contents : HourStream → List Bytes} (h : Inv bucket set s store contents) {a : Action}
    (ha : a.Made bucket set) (clock : Int) :
    ∃ s' store', s.step clock a = some s' ∧ store'.root = store.root ∧
      Inv bucket set s' store'
        (fun x => contents x ++ ((a.op.writes x).map Envelope.serialize).toList) ∧
      ∀ x : HourStream, ¬ IsLog bucket set x.path →
        (contentAt store'.fs (x.file store.root)).length ≤
          max 1 (contentAt store.fs (x.file store.root)).length + a.op.spills x := by
  cases a with
  | server op =>
    obtain ⟨hop, hwrites⟩ := ha
    obtain ⟨streams', store', hstep, hsteps⟩ := h.server.step h.holds clock hop hwrites
    refine ⟨{ s with fs := store'.fs, server := streams' }, store', ?_,
      congrArg resolve hsteps.spares.rootPath,
      ⟨hsteps.spares.rootPath.trans h.rootPath, rfl, hsteps.part,
        h.writer.of_spares hsteps.spares fun key hkey => hkey, hsteps.holds⟩,
      fun x hx => hsteps.content_le x fun _ => hx⟩
    rw [ServerStores.step, h.serverStore, hstep]
    rfl
  | writer op =>
    obtain ⟨hop, hflush, hwrites⟩ := ha
    obtain ⟨streams', store', hstep, hsteps⟩ := h.writer.step h.holds clock hop hwrites
    refine ⟨{ s with fs := store'.fs, writer := streams' }, store', ?_,
      congrArg resolve hsteps.spares.rootPath,
      ⟨hsteps.spares.rootPath.trans h.rootPath, rfl,
        h.server.of_spares hsteps.spares fun key hkey hno => hno hkey, hsteps.part, hsteps.holds⟩,
      fun x _ => hsteps.content_le x fun heq => absurd heq hflush⟩
    rw [ServerStores.step, h.writerStore, hstep]
    rfl

theorem bodies_cons (a : Action) (actions : List Action) (x : HourStream) :
    bodies (a :: actions) x =
      ((a.op.writes x).map Envelope.serialize).toList ++ bodies actions x := by
  rw [bodies, List.map_cons, writtenTo]
  cases h : a.op.writes x with
  | none => rw [List.filterMap_cons_none h]; rfl
  | some e => rw [List.filterMap_cons_some h]; rfl

/-- **Run lemma**. -/
theorem Inv.run (clock : Int) {actions : List Action} (hmade : ∀ a ∈ actions, a.Made bucket set) :
    ∀ {s : ServerStores} {store : SimpleDirectoryStore} {contents : HourStream → List Bytes},
      Inv bucket set s store contents →
      ∃ s' store', s.run clock actions = some s' ∧ store'.root = store.root ∧
        Inv bucket set s' store' (fun x => contents x ++ bodies actions x) ∧
        ∀ x : HourStream, ¬ IsLog bucket set x.path →
          (contentAt store'.fs (x.file store.root)).length ≤
            max 1 (contentAt store.fs (x.file store.root)).length + spilled actions x := by
  induction actions with
  | nil =>
    intro s store contents h
    refine ⟨s, store, rfl, rfl, ?_, fun x _ => Nat.le_add_right_of_le (Nat.le_max_right _ _)⟩
    have hnil : (fun x => contents x ++ bodies [] x) = contents :=
      funext fun x => List.append_nil _
    rwa [hnil]
  | cons a actions ih =>
    intro s store contents h
    obtain ⟨ha, hactions⟩ := List.forall_mem_cons.mp hmade
    obtain ⟨s₁, store₁, hstep, hroot₁, h₁, hle₁⟩ := h.step ha clock
    obtain ⟨s', store', hrun, hroot', h', hle'⟩ := ih hactions h₁
    refine ⟨s', store', ?_, hroot'.trans hroot₁, ?_, fun x hx => ?_⟩
    · rw [ServerStores.run, hstep]
      exact hrun
    · simp only [bodies_cons, ← List.append_assoc]
      exact h'
    · have hfirst := hle₁ x hx
      have hrest := hle' x hx
      rw [hroot₁] at hrest
      rw [spilled, List.map_cons, List.sum_cons, ← spilled]
      omega

/-- The invariant holds in an empty directory, with no writer yet. -/
theorem inv_empty {s : ServerStores} (hempty : s.serverStore.EmptyRoot) (hwriter : s.writer = ∅) :
    Inv bucket set s s.serverStore fun _ => [] where
  rootPath := rfl
  fs := rfl
  server := by
    have hserver : s.server = ∅ := hempty.outStreams_eq
    refine ⟨fun _ _ => rfl, fun key _ => ?_⟩
    rw [hserver]
    rfl
  writer := by
    have hserver : s.server = ∅ := hempty.outStreams_eq
    refine ⟨fun key _ => ?_, fun key _ => ?_⟩
    · show s.writer.lookup key = s.server.lookup key
      rw [hwriter, hserver]
    · rw [hwriter]
      rfl
  holds := hempty.holds

/-- What both come to, and what is in the files of the store writer. -/
theorem exists_inv_run {s : ServerStores} (hempty : s.serverStore.EmptyRoot)
    (hwriter : s.writer = ∅) (clock : Int) {actions : List Action}
    (hmade : ∀ a ∈ actions, a.Made bucket set) :
    ∃ s' store, s.run clock actions = some s' ∧ store.root = s.serverStore.root ∧
      Inv bucket set s' store (bodies actions) ∧
      ∀ x : HourStream, ¬ IsLog bucket set x.path →
        contentAt s'.fs (x.file s.serverStore.root) <+: streamFile (bodies actions x) ∧
        (contentAt s'.fs (x.file s.serverStore.root)).length ≤ 1 + spilled actions x := by
  obtain ⟨s', store, hrun, hroot, h, hle⟩ := (inv_empty hempty hwriter).run clock hmade
  refine ⟨s', store, hrun, hroot, h, fun x hx => ?_⟩
  have hnone : s.serverStore.fs.files.lookup (x.file s.serverStore.root) = none :=
    AList.lookup_eq_none.mpr (hempty.notMem_files _ (List.prefix_append _ _))
  have hcontent := hle x hx
  rw [contentAt, contentAt, hnone] at hcontent
  have hprefix := h.holds.contentAt_le x
  rw [List.nil_append, hroot] at hprefix
  exact ⟨h.fs ▸ hprefix, h.fs ▸ hcontent⟩

/-- The stores of a server that has just started. -/
def onEmptyDirectory : ServerStores where
  rootPath := SimpleDirectoryStore.onEmptyDirectory.rootPath
  fs := SimpleDirectoryStore.onEmptyDirectory.fs

/-- A client writes, and the server flushes. -/
def writeAndFlush : List Action := [.writer Tailer.firstWrite, .server .flushOutputStreams]

theorem not_isLog_firstHour : ¬ IsLog (str "zippylog") (str "server") firstHour.path := by
  rintro ⟨y, hbucket, -, hpath⟩
  obtain rfl := HourStream.path_injective hpath
  exact absurd hbucket (by decide +kernel)

theorem made_writeAndFlush :
    ∀ a ∈ writeAndFlush, a.Made (str "zippylog") (str "server") := by
  intro a ha
  simp only [writeAndFlush, List.mem_cons, List.not_mem_nil, or_false] at ha
  rcases ha with rfl | rfl
  · refine ⟨Tailer.valid_firstWrite, nofun, fun x hx => ?_⟩
    rw [Tailer.firstWrite, Op.writes] at hx
    split_ifs at hx with hsame
    · obtain rfl : x = firstHour := HourStream.ext hsame.1.symm hsame.2.1.symm hsame.2.2.symm
      exact not_isLog_firstHour
    · cases hx
  · exact ⟨trivial, fun x hx => by cases hx⟩

/-- **What clients write waits in the buffers of the store writer**: however often the server
flushes, of a stream that is not its log nothing but the version byte gets to the file, and what
the library writes out. The destructor of the store writer writes out the rest. Clients are taken
not to write to the streams of the log: a stream that both stores have open has two buffers, and
its file what comes out of them. -/
theorem written_out_by_the_library (clock : Int) {s : ServerStores}
    (hempty : s.serverStore.EmptyRoot) (hwriter : s.writer = ∅) {actions : List Action}
    (hmade : ∀ a ∈ actions, a.Made bucket set) :
    ∃ s', s.run clock actions = some s' ∧
      ∀ x : HourStream, ¬ IsLog bucket set x.path →
        contentAt s'.fs (x.file s.serverStore.root) <+: streamFile (bodies actions x) ∧
        (contentAt s'.fs (x.file s.serverStore.root)).length ≤ 1 + spilled actions x ∧
        (bodies actions x ≠ [] → s'.writerStore.destroy.files.lookup (x.file s.serverStore.root) =
          some (streamFile (bodies actions x))) := by
  obtain ⟨s', store, hrun, hroot, h, hcontent⟩ := exists_inv_run hempty hwriter clock hmade
  refine ⟨s', hrun, fun x hx => ⟨(hcontent x hx).1, (hcontent x hx).2, fun hne => ?_⟩⟩
  have hflushed := h.writer.flushed h.holds hne hx
  rw [hroot] at hflushed
  rw [h.writerStore]
  exact hflushed

/-- After a write and a flush the file has its version byte. -/
theorem written_out_writeAndFlush :
    ∃ s', onEmptyDirectory.run 0 writeAndFlush = some s' ∧
      (contentAt s'.fs (firstHour.file onEmptyDirectory.serverStore.root)).length ≤ 1 := by
  obtain ⟨s', hrun, hall⟩ := written_out_by_the_library 0 (s := onEmptyDirectory)
    emptyRoot_onEmptyDirectory rfl made_writeAndFlush
  exact ⟨s', hrun, (hall firstHour not_isLog_firstHour).2.1⟩

end

/-! ## Readers -/

open RequestProcessor

/-- An offset that is not zero is behind the version byte. -/
theorem one_le_of_toInt64 {offset : UInt64} (h0 : offset ≠ 0) {n : Nat}
    (hn : toInt64 offset = n) : 1 ≤ n := by
  by_contra hzero
  obtain rfl : n = 0 := Nat.eq_zero_of_not_pos hzero
  have hmod : (offset.toNat : Int) % (2 ^ 64 : Nat) = 0 := by
    rw [← Int.bmod_emod]
    exact congrArg (· % ((2 ^ 64 : Nat) : Int)) hn
  have hnat : offset.toNat % 2 ^ 64 = 0 := Int.ofNat.inj hmod
  rw [Nat.mod_eq_of_lt offset.toNat_lt] at hnat
  exact h0 (UInt64.toNat_inj.mp hnat)

/-- Of a file that has no more than its version byte no envelope is read, at any offset. -/
theorem readEnvelope_of_version {content : Bytes} (h : content <+: [1]) {s stream : InputStream}
    {offset : UInt64} (hopen : InputStream.ofFile (some content) 0 = .ok s)
    (hoffset : atOffset s offset = .ok stream) : (stream.readEnvelope).1 = none := by
  rcases List.prefix_cons_iff.mp h with rfl | ⟨rest, rfl, hrest⟩
  · cases hopen
  obtain rfl := List.prefix_nil.mp hrest
  obtain ⟨s', hopen', hat, hnext, hfile⟩ := InputStream.ofFile_at []
  obtain rfl : s' = s := Except.ok.inj (hopen'.symm.trans hopen)
  rw [atOffset] at hoffset
  split_ifs at hoffset with h0
  · obtain rfl := Except.ok.inj hoffset
    rw [hat.readEnvelope_none progress_readVarint32]
  · by_cases hneg : toInt64 offset < 0
    · rw [InputStream.setAbsoluteOffset, if_pos hneg] at hoffset
      cases hoffset
    · obtain ⟨n, hn⟩ := Int.eq_ofNat_of_zero_le (Int.not_lt.mp hneg)
      rw [hn, InputStream.setAbsoluteOffset_ofNat] at hoffset
      obtain rfl := Except.ok.inj hoffset
      have hpos : 1 ≤ n := one_le_of_toInt64 h0 hn
      have hat' := InputStream.at_soughtTo hnext n
      rw [hfile, List.drop_eq_nil_of_le hpos] at hat'
      rw [hat'.readEnvelope_none progress_readVarint32]

variable {bucket set : Bytes}

/-- **What is not written out is not read**: while the library has written out nothing of a stream
that is not of the server's log, no request for it is answered with an envelope of the stream,
whatever clients wrote to it and however often the server flushed. -/
theorem nothing_to_read (clock : Int) {s : ServerStores}
    (hempty : s.serverStore.EmptyRoot) (hwriter : s.writer = ∅) {actions : List Action}
    (hmade : ∀ a ∈ actions, a.Made bucket set)
    {x : HourStream} (hx : ¬ IsLog bucket set x.path) (hspilled : spilled actions x = 0) :
    ∃ s', s.run clock actions = some s' ∧ ∀ (p : RequestProcessor) request get,
      request.getMessage 0 = some (.getStreamSegmentV1 get) → get.path = x.path →
        p.Plain ({ p with store := s'.serverStore.view }.processGetStream request {}) := by
  obtain ⟨s', store, hrun, hroot, h, hcontent⟩ := exists_inv_run hempty hwriter clock hmade
  refine ⟨s', hrun, fun p request get hget hpath => plain_processGetStream rfl ?_⟩
  rintro ⟨get', hget', stream, e, size, stream', ⟨content, opened, hserves, hopen, hoffset⟩, hread⟩
  obtain rfl : get = get' :=
    Message.getStreamSegmentV1.inj (Option.some.inj (hget.symm.trans hget'))
  rw [hpath] at hserves
  have hfile := Tailer.file_of_serves (t := { store := s'.serverStore }) hserves
  have hroot' : s'.serverStore.root = s.serverStore.root := by
    rw [← hroot]
    exact congrArg resolve h.rootPath.symm
  obtain ⟨hbegins, hle⟩ := hcontent x hx
  have heq : contentAt s'.fs (x.file s.serverStore.root) = content := by
    rw [contentAt, ← hroot']
    exact congrArg (Option.getD · []) hfile
  rw [heq] at hbegins hle
  rw [hspilled] at hle
  -- the version byte is the first of every stream file
  have hversion : content <+: [1] := by
    have hone : [1] <+: streamFile (bodies actions x) := ⟨_, rfl⟩
    exact List.prefix_of_prefix_length_le hbegins hone hle
  have hnone := readEnvelope_of_version hversion hopen hoffset
  rw [hread] at hnone
  cases hnone

/-- A write and a flush are not enough for a request. -/
theorem nothing_to_read_writeAndFlush :
    ∃ s', onEmptyDirectory.run 0 writeAndFlush = some s' ∧
      (deferring []).Plain ({ deferring [] with store := s'.serverStore.view }.processGetStream
        Tailer.firstRequest {}) := by
  obtain ⟨s', hrun, hplain⟩ := nothing_to_read 0 (s := onEmptyDirectory)
    emptyRoot_onEmptyDirectory rfl made_writeAndFlush not_isLog_firstHour (by decide +kernel)
  exact ⟨s', hrun, hplain (deferring []) _ _ (Envelope.getMessage_ofMessage _ _) rfl⟩

end ServerStores

end Zippylog
