import Zippylog.SimpleDirectoryStoreProof
import Zippylog.StoreAccess

/-!
# Path confinement

What is asked of the system for a request or a message of a store writer is below the directory of
the store, whatever a client or a sender puts into the paths that it sends. The paths that the
system is asked for are made of the directory and of components, and a component has no slash, is
neither `.` nor `..`, and is not empty.

- `Component`: what no part of a path is that comes from outside.
- `component_of_parsePath`: so are the parts of a path that parses.
- `Below`: a path leads below the directory, also where the system goes along it name by name.
- `serve_confined`: so is every path in a run, whatever the system answers.
-/

namespace Zippylog

open Wire Platform

/-- A name that leads to no other directory than the one it is in. -/
structure Component (name : Bytes) : Prop where
  ne_dot : name ≠ str "."
  ne_dotDot : name ≠ str ".."
  slash_notMem : slash ∉ name
  zero_notMem : 0 ∉ name

/-- The characters of a name are neither a slash nor a dot, so a name is not `.` or `..` either. -/
theorem Component.of_chars {name : Bytes} (h : ∀ c ∈ name, isNameChar c = true) :
    Component name := by
  have hne : ∀ c, isNameChar c = false → c ∉ name := by
    intro c hc hmem
    rw [h c hmem] at hc
    cases hc
  constructor
  · rintro rfl
    exact hne 46 (by decide) (by decide)
  · rintro rfl
    exact hne 46 (by decide) (by decide)
  · exact hne slash (by decide)
  · exact hne 0 (by decide)

/-- A component with a file extension behind it is longer than `..`. -/
theorem Component.append_extension {name : Bytes} (h : Component name) :
    Component (name ++ extension) := by
  -- longer than `..`
  have hne : ∀ bs : Bytes, bs.length < 9 → name ++ extension ≠ bs := by
    rintro bs hbs rfl
    rw [List.length_append, show extension.length = 9 from rfl] at hbs
    omega
  constructor
  · exact hne _ (by decide)
  · exact hne _ (by decide)
  · exact fun hmem => (List.mem_append.mp hmem).elim h.slash_notMem (by decide)
  · exact fun hmem => (List.mem_append.mp hmem).elim h.zero_notMem (by decide)

namespace Store

/-! ## Paths that validate -/

/-- Name characters, and at the end maybe the file extension. -/
def ValidPiece (piece : Bytes) : Prop :=
  ∃ name : Bytes, (∀ c ∈ name, isNameChar c = true) ∧ (piece = name ∨ piece = name ++ extension)

theorem validPiece_nil : ValidPiece [] :=
  ⟨[], fun _ h => absurd h List.not_mem_nil, Or.inl rfl⟩

theorem ValidPiece.cons {c : UInt8} {piece : Bytes} (hc : isNameChar c = true)
    (h : ValidPiece piece) : ValidPiece (c :: piece) := by
  obtain ⟨name, hname, hpiece⟩ := h
  refine ⟨c :: name, List.forall_mem_cons.mpr ⟨hc, hname⟩, ?_⟩
  rcases hpiece with rfl | rfl
  · exact Or.inl rfl
  · exact Or.inr rfl

theorem ValidPiece.component {piece : Bytes} (h : ValidPiece piece) : Component piece := by
  obtain ⟨name, hname, rfl | rfl⟩ := h
  · exact .of_chars hname
  · exact (Component.of_chars hname).append_extension

/-- The loop lets only valid pieces through: it ends early only before a file extension
that is all there is left. -/
theorem validPiece_of_validatePathFrom {cs : Bytes} :
    ∀ {prev : UInt8} {seen : Nat}, validatePathFrom prev seen cs = true →
      ∀ piece ∈ splitSlash cs, ValidPiece piece := by
  induction cs with
  | nil =>
    intro prev seen _ piece hpiece
    rw [List.mem_singleton.mp hpiece]
    exact validPiece_nil
  | cons c cs ih =>
    intro prev seen h piece hpiece
    rw [validatePathFrom] at h
    split_ifs at h with hslash hprev hseen hchar
    · rw [splitSlash, if_pos hslash] at hpiece
      rcases List.mem_cons.mp hpiece with rfl | hpiece
      · exact validPiece_nil
      · exact ih h piece hpiece
    · rw [splitSlash, if_neg hslash] at hpiece
      obtain ⟨w, ws, hsplit⟩ := List.exists_cons_of_ne_nil (splitSlash_ne_nil cs)
      rw [hsplit] at hpiece ih
      rcases List.mem_cons.mp hpiece with rfl | hpiece
      · exact (ih h w List.mem_cons_self).cons hchar
      · exact ih h piece (List.mem_cons_of_mem _ hpiece)
    · have hextension : c :: cs = extension := of_decide_eq_true (Bool.and_eq_true_iff.mp h).2
      rw [hextension] at hpiece
      rw [show splitSlash extension = [extension] from by decide] at hpiece
      rw [List.mem_singleton.mp hpiece]
      exact ⟨[], fun _ hmem => absurd hmem List.not_mem_nil, Or.inr rfl⟩

theorem validPiece_of_validatePath {path : Bytes} (h : validatePath path = true) :
    ∀ piece ∈ splitSlash (path.drop 1), ValidPiece piece := by
  cases path with
  | nil => cases h
  | cons c cs =>
    rw [validatePath, Bool.and_eq_true] at h
    exact validPiece_of_validatePathFrom h.2

/-- The extension that is removed is the one of the validator. -/
theorem validPiece_stripExtension {piece : Bytes} (h : ValidPiece piece) :
    ValidPiece (stripExtension piece) := by
  rw [stripExtension]
  split_ifs with hstrip
  · obtain ⟨name, hname, rfl | rfl⟩ := h
    · exact ⟨_, fun c hc => hname c (List.mem_of_mem_take hc), Or.inl rfl⟩
    · refine ⟨name, hname, Or.inl ?_⟩
      rw [List.length_append, show extension.length = 9 from rfl, Nat.add_sub_cancel,
        List.take_left]
  · exact h

/-- **The parts of a path that parses** are components, whatever the path is. -/
theorem component_of_parsePath {path bucket set stream : Bytes}
    (h : parsePath path = some (bucket, set, stream)) :
    Component bucket ∧ Component set ∧ Component stream := by
  rw [parsePath] at h
  split_ifs at h with hvalid
  have hpieces := validPiece_of_validatePath hvalid
  have hnil := validPiece_nil.component
  split at h
  · rename_i hsplit
    rw [hsplit] at hpieces
    cases h
    exact ⟨(hpieces _ (by simp)).component, hnil, hnil⟩
  · rename_i hsplit
    rw [hsplit] at hpieces
    cases h
    exact ⟨(hpieces _ (by simp)).component, (hpieces _ (by simp)).component, hnil⟩
  · rename_i hsplit
    rw [hsplit] at hpieces
    cases h
    exact ⟨(hpieces _ (by simp)).component, (hpieces _ (by simp)).component,
      (validPiece_stripExtension (hpieces _ (by simp))).component⟩
  · cases h

/-- The name of a stream for a time. -/
theorem component_of_streamNameForTime {t : Time} {stream : Bytes}
    (h : streamNameForTime t 3600 = .ok stream) : Component stream := by
  rw [streamNameForTime, if_neg (by decide), if_pos rfl] at h
  cases h
  exact .of_chars fun c hc => isNameChar_of_mem_hour hc

end Store

namespace StoreAccess

/-! ## Paths of the file system -/

/-- The directory of a store, or a bucket, a stream set or a stream in it. -/
inductive Confined (root : Bytes) : Bytes → Prop where
  | root : Confined root root
  | bucket {bucket : Bytes} (hbucket : Component bucket) :
      Confined root (root ++ slash :: Store.bucketPath bucket)
  | streamset {bucket set : Bytes} (hbucket : Component bucket) (hset : Component set) :
      Confined root (root ++ slash :: Store.streamsetPath bucket set)
  | stream {bucket set stream : Bytes} (hbucket : Component bucket) (hset : Component set)
      (hstream : Component stream) :
      Confined root (root ++ slash :: (Store.streamPath bucket set stream ++ extension))

/-- `StreamFilesystemPath` puts the extension behind the whole path. -/
theorem Confined.streamFilesystemPath {root bucket set stream : Bytes}
    (hbucket : Component bucket) (hset : Component set) (hstream : Component stream) :
    Confined root (StoreAccess.streamFilesystemPath root (Store.streamPath bucket set stream)) := by
  rw [StoreAccess.streamFilesystemPath, pathToFilesystemPath, List.append_assoc,
    List.cons_append]
  exact .stream hbucket hset hstream

/-- The names on the way to a path go on from those of the directory, and none goes up. -/
def Below (root path : Bytes) : Prop :=
  ∃ names, resolve path = resolve root ++ names ∧ ∀ name ∈ names, Component name

theorem resolve_slash (rest : Bytes) : resolve (slash :: rest) = resolve rest := by
  rw [show slash :: rest = [] ++ slash :: rest from rfl, resolve_append]
  rfl

theorem resolve_component {name : Bytes} (h : Component name) :
    ∀ name' ∈ resolve name, Component name' := by
  intro name' hname'
  rw [resolve, Store.splitSlash_name fun c hc heq => h.slash_notMem (heq ▸ hc)] at hname'
  rw [List.mem_singleton.mp (List.mem_of_mem_filter hname')]
  exact h

/-- Each component leads one directory further down, so the way never goes up. -/
theorem Confined.below {root path : Bytes} (h : Confined root path) : Below root path := by
  cases h with
  | root => exact ⟨[], (List.append_nil _).symm, fun _ h => absurd h List.not_mem_nil⟩
  | bucket hbucket =>
    refine ⟨_, resolve_append _ _, ?_⟩
    rw [Store.bucketPath, resolve_slash]
    exact resolve_component hbucket
  | streamset hbucket hset =>
    refine ⟨_, resolve_append _ _, ?_⟩
    rw [Store.streamsetPath, Store.bucketPath, List.append_assoc, List.singleton_append,
      List.cons_append, resolve_slash, resolve_append]
    exact List.forall_mem_append.mpr ⟨resolve_component hbucket, resolve_component hset⟩
  | stream hbucket hset hstream =>
    refine ⟨_, resolve_append _ _, ?_⟩
    rw [Store.streamPath, Store.streamsetPath, Store.bucketPath]
    simp only [List.append_assoc, List.cons_append, List.nil_append, resolve_slash,
      resolve_append]
    exact List.forall_mem_append.mpr ⟨resolve_component hbucket, List.forall_mem_append.mpr
      ⟨resolve_component hset, resolve_component hstream.append_extension⟩⟩

/-! ## What is asked for -/

/-- A call that asks for nothing outside the directory of the store. -/
def Safe (root : Bytes) (call : FileCall) : Prop := ∀ path ∈ call.path?, Confined root path

variable {root bucket set stream : Bytes}

theorem safe_of_path {call : FileCall} {path : Bytes} (hpath : call.path? = some path)
    (h : Confined root path) : Safe root call := by
  intro path' hpath'
  rw [hpath] at hpath'
  cases hpath'
  exact h

theorem spec_stat {path : Bytes} (h : Confined root path) :
    (stat path).Spec (Safe root) fun _ => True :=
  Program.Spec.ask (safe_of_path rfl h)

theorem spec_pathIsDirectory {path : Bytes} (h : Confined root path) :
    (pathIsDirectory path).Spec (Safe root) fun _ => True :=
  (spec_stat h).bind fun _ _ => trivial

theorem spec_pathIsRegularFile {path : Bytes} (h : Confined root path) :
    (pathIsRegularFile path).Spec (Safe root) fun _ => True :=
  (spec_stat h).bind fun _ _ => trivial

theorem spec_makeDirectory {path : Bytes} (h : Confined root path) :
    (makeDirectory path).Spec (Safe root) fun _ => True :=
  Program.Spec.ask (safe_of_path rfl h)

/-- A directory whose name does not begin with a dot is a component. -/
theorem component_of_entry (entry : DirectoryEntry) (h : entry.name.head? ≠ some 46) :
    Component entry.name where
  ne_dot heq := h (by rw [heq]; rfl)
  ne_dotDot heq := h (by rw [heq]; rfl)
  slash_notMem := entry.slash_notMem
  zero_notMem := entry.zero_notMem

theorem spec_directoriesInDirectory {dir : Bytes} (h : Confined root dir) :
    (directoriesInDirectory dir).Spec (Safe root) fun names => ∀ name ∈ names, Component name := by
  refine Program.Spec.bind (Program.Spec.ask (safe_of_path rfl h)) fun entries _ => ?_
  intro name hname
  obtain ⟨entry, hentry, rfl⟩ := List.mem_map.mp hname
  have hfilter := of_decide_eq_true (List.mem_filter.mp hentry).2
  exact component_of_entry entry hfilter.2

theorem spec_filesInDirectory {dir : Bytes} (h : Confined root dir) :
    (filesInDirectory dir).Spec (Safe root) fun names => ∀ name ∈ names, slash ∉ name := by
  refine Program.Spec.bind (Program.Spec.ask (safe_of_path rfl h)) fun entries _ => ?_
  intro name hname
  obtain ⟨entry, -, rfl⟩ := List.mem_map.mp hname
  exact entry.slash_notMem

theorem spec_streamNames (hbucket : Component bucket) (hset : Component set) :
    (streamNames root bucket set).Spec (Safe root) fun names => ∀ name ∈ names, slash ∉ name := by
  refine (spec_filesInDirectory (.streamset hbucket hset)).bind fun files hfiles => ?_
  intro name hname
  obtain ⟨file, hfile, hstream⟩ := List.mem_filterMap.mp hname
  rw [streamName?] at hstream
  split_ifs at hstream
  cases hstream
  exact fun hmem => hfiles file hfile (List.mem_of_mem_take hmem)

/-- A stream is looked at only if its path validates. -/
theorem spec_streamLength (hbucket : Component bucket) (hset : Component set)
    (hstream : slash ∉ stream) :
    (streamLength root (Store.streamPath bucket set stream)).Spec (Safe root) fun _ => True := by
  rw [streamLength]
  split_ifs with hvalid
  · have hcomponent : Component stream := by
      refine (Store.validPiece_of_validatePath hvalid stream ?_).component
      have hpath : (Store.streamPath bucket set stream).drop 1 =
          bucket ++ slash :: (set ++ slash :: stream) := by
        simp [Store.streamPath, Store.streamsetPath, Store.bucketPath]
      rw [hpath, Store.splitSlash_append, Store.splitSlash_append,
        Store.splitSlash_name fun c hc heq => hstream (heq ▸ hc)]
      exact List.mem_append_right _ (List.mem_append_right _ List.mem_cons_self)
    refine (spec_stat (.streamFilesystemPath hbucket hset hcomponent)).bind fun result _ => ?_
    trivial
  · trivial

theorem spec_streamInfo (hbucket : Component bucket) (hset : Component set)
    (hstream : slash ∉ stream) :
    (streamInfo root bucket set stream).Spec (Safe root) fun _ => True := by
  refine (spec_streamLength hbucket hset hstream).bind fun length _ => ?_
  trivial

theorem spec_streamsetInfo (hbucket : Component bucket) (hset : Component set) :
    (streamsetInfo root bucket set).Spec (Safe root) fun _ => True := by
  refine (spec_streamNames hbucket hset).bind fun streams hstreams => ?_
  refine Program.Spec.bind (Program.Spec.each fun stream hstream => ?_) fun infos _ => trivial
  exact spec_streamInfo hbucket hset (hstreams stream hstream)

theorem spec_bucketInfo (hbucket : Component bucket) :
    (bucketInfo root bucket).Spec (Safe root) fun _ => True := by
  refine (spec_directoriesInDirectory (.bucket hbucket)).bind fun sets hsets => ?_
  refine Program.Spec.bind (Program.Spec.each fun set hset => ?_) fun infos _ => trivial
  exact spec_streamsetInfo hbucket (hsets set hset)

theorem spec_storeInfo : (storeInfo root).Spec (Safe root) fun _ => True := by
  refine (spec_directoriesInDirectory .root).bind fun buckets hbuckets => ?_
  refine Program.Spec.bind (Program.Spec.each fun bucket hbucket => ?_) fun infos _ => trivial
  exact spec_bucketInfo (hbuckets bucket hbucket)

theorem spec_getInputStream (path : Bytes) :
    (getInputStream root path).Spec (Safe root) fun _ => True := by
  rw [getInputStream]
  split
  · trivial
  · rename_i bucket set stream hparse
    obtain ⟨hbucket, hset, hstream⟩ := Store.component_of_parsePath hparse
    exact Program.Spec.ask (safe_of_path rfl (.streamFilesystemPath hbucket hset hstream))

/-! ## Requests -/

theorem spec_requireExists {require : Bool} {pathExists : FileProgram Bool}
    (h : pathExists.Spec (Safe root) fun _ => True) :
    (requireExists require pathExists).Spec (Safe root) fun _ => True := by
  rw [requireExists]
  split_ifs
  · exact h
  · trivial

/-- The checks of a path ask for what the components lead to, and for nothing if there are none. -/
theorem spec_checkPath (path : Bytes) (requireBucket requireSet requireStream : Bool) :
    (checkPath root path requireBucket requireSet requireStream).Spec (Safe root)
      fun _ => True := by
  rw [checkPath]
  split
  · trivial
  · rename_i bucket set stream hparse
    obtain ⟨hbucket, hset, hstream⟩ := Store.component_of_parsePath hparse
    split_ifs
    · trivial
    · refine (spec_requireExists (spec_pathIsDirectory (.bucket hbucket))).bind fun ok _ => ?_
      split_ifs
      · refine (spec_requireExists (spec_pathIsDirectory (.streamset hbucket hset))).bind
          fun ok _ => ?_
        split_ifs
        · exact spec_requireExists
            (spec_pathIsRegularFile (.streamFilesystemPath hbucket hset hstream))
        · trivial
      · trivial

/-- What is behind the checks of a path is given components. -/
theorem spec_withPath {path : Bytes} {requireSet requireStream : Bool}
    {f : Bytes → Bytes → Bytes → FileProgram Unit}
    (hf : ∀ bucket set stream, Component bucket → Component set → Component stream →
      (f bucket set stream).Spec (Safe root) fun _ => True) :
    (withPath root path requireSet requireStream f).Spec (Safe root) fun _ => True := by
  refine (spec_checkPath path true requireSet requireStream).bind fun ok _ => ?_
  split_ifs
  · split
    · trivial
    · rename_i bucket set stream hparse
      obtain ⟨hbucket, hset, hstream⟩ := Store.component_of_parsePath hparse
      exact hf bucket set stream hbucket hset hstream
  · trivial

/-- One routine after the other; most of them ask the system for nothing but their path. -/
theorem spec_dispatchType (type : MessageType) (request : Envelope) :
    (dispatchType root type request).Spec (Safe root) fun _ => True := by
  rw [dispatchType.eq_def]
  split
  · exact spec_storeInfo.bind fun _ _ => trivial
  · exact spec_withPath fun bucket set stream hbucket _ _ =>
      (spec_bucketInfo hbucket).bind fun _ _ => trivial
  · exact spec_withPath fun bucket set stream hbucket hset _ =>
      (spec_streamsetInfo hbucket hset).bind fun _ _ => trivial
  · exact spec_withPath fun bucket set stream hbucket hset hstream =>
      (spec_streamInfo hbucket hset hstream.slash_notMem).bind fun _ _ => trivial
  · exact spec_withPath fun _ _ _ _ _ _ => (spec_getInputStream _).bind fun _ _ => trivial
  · rw [processWriteEnvelope]
    split
    · trivial
    · split_ifs
      · exact (spec_checkPath _ true true false).bind fun _ _ => trivial
      · trivial
  · trivial

/-- Frames that are no request ask for nothing. -/
theorem spec_processMessages (messages : List Bytes) :
    (processMessages root messages).Spec (Safe root) fun _ => True := by
  rw [processMessages.eq_def]
  split
  · split_ifs
    · trivial
    · split
      · trivial
      · rw [processRequest]
        split_ifs
        · trivial
        · split
          · split_ifs
            · trivial
            · split
              · exact spec_dispatchType _ _
              · trivial
          · trivial
  · trivial

/-! ## Writing -/

theorem spec_ensure {pathExists create : FileProgram Bool}
    (hexists : pathExists.Spec (Safe root) fun _ => True)
    (hcreate : create.Spec (Safe root) fun _ => True) :
    (ensure pathExists create).Spec (Safe root) fun _ => True := by
  refine hexists.bind fun there _ => ?_
  split_ifs
  · trivial
  · exact hcreate

/-- The directories on the way are made, and the file is opened in the last of them. -/
theorem spec_createOutputStream (hbucket : Component bucket) (hset : Component set)
    (hstream : Component stream) :
    (createOutputStream root bucket set stream).Spec (Safe root) fun _ => True := by
  refine (spec_ensure (spec_pathIsDirectory (.bucket hbucket))
    (spec_makeDirectory (.bucket hbucket))).bind fun ok _ => ?_
  split_ifs
  · refine (spec_ensure (spec_pathIsDirectory (.streamset hbucket hset))
      (spec_makeDirectory (.streamset hbucket hset))).bind fun ok _ => ?_
    split_ifs
    · have hpath : Confined root
          (root ++ slash :: (Store.streamPath bucket set stream ++ extension)) :=
        .stream hbucket hset hstream
      refine Program.Spec.bind (Program.Spec.ask (safe_of_path rfl hpath)) fun ok _ => ?_
      split_ifs
      · exact (spec_stat hpath).bind fun _ _ => trivial
      · trivial
    · trivial
  · trivial

/-- The stream of the hour is asked for where it is not open. -/
theorem spec_writeEnvelope (hbucket : Component bucket) (hset : Component set)
    (opened : List Bytes) :
    (writeEnvelope root bucket set opened).Spec (Safe root) fun _ => True := by
  have htime : Safe root .gettimeofday := fun path hpath => by cases hpath
  refine Program.Spec.bind (Program.Spec.ask htime) fun time _ => ?_
  split
  · trivial
  · rename_i stream hstream
    dsimp only
    split_ifs
    · trivial
    · refine (spec_createOutputStream hbucket hset
        (Store.component_of_streamNameForTime hstream)).bind fun result _ => ?_
      split <;> trivial

/-- The streams that are open go along from one payload to the next. -/
theorem spec_writeAll (hbucket : Component bucket) (hset : Component set) (payloads : List Bytes)
    (opened : List Bytes) :
    (writeAll root bucket set payloads opened).Spec (Safe root) fun _ => True := by
  induction payloads generalizing opened with
  | nil => trivial
  | cons payload payloads ih =>
    refine (spec_writeEnvelope hbucket hset opened).bind fun result _ => ?_
    split
    · exact ih _
    · trivial

/-- The path of a message of a store writer parses. -/
theorem component_of_target {memory bucket set : Bytes} {messages payloads : List Bytes}
    (h : StoreWriter.target memory messages = some (bucket, set, payloads)) :
    Component bucket ∧ Component set := by
  rw [StoreWriter.target.eq_def] at h
  split at h
  · split_ifs at h
    split at h
    · cases h
    · rename_i hparse
      split_ifs at h
      cases h
      obtain ⟨hbucket, hset, -⟩ := Store.component_of_parsePath hparse
      exact ⟨hbucket, hset⟩
  · cases h

theorem spec_receiveAndWrite (memory : Bytes) (messages opened : List Bytes) :
    (receiveAndWrite root memory messages opened).Spec (Safe root) fun _ => True := by
  rw [receiveAndWrite]
  split
  · trivial
  · rename_i htarget
    obtain ⟨hbucket, hset⟩ := component_of_target htarget
    exact spec_writeAll hbucket hset _ opened

/-! ## Runs -/

theorem spec_serve (received : List Received) (opened : List Bytes) :
    (serve root received opened).Spec (Safe root) fun _ => True := by
  induction received generalizing opened with
  | nil => trivial
  | cons message received ih =>
    cases message with
    | request messages => exact (spec_processMessages messages).bind fun _ _ => ih opened
    | write memory messages =>
      exact (spec_receiveAndWrite memory messages opened).bind fun opened _ => ih opened

/-- **Path confinement**: over all runs of requests and of messages to the writer, whatever the
files are and whatever the system answers, every path that it is asked for is the directory of the
store with components behind it, and leads below it. -/
theorem serve_confined (root : Bytes) (received : List Received) {Files : Type}
    (env : Files → (call : FileCall) → FileAnswer call × Files) (files : Files) :
    ∀ call ∈ ((serve root received []).run env files).1, ∀ path ∈ call.path?,
      Confined root path ∧ Below root path := by
  intro call hcall path hpath
  have hconfined := (spec_serve received []).run env files |>.1 call hcall path hpath
  exact ⟨hconfined, hconfined.below⟩

/-- Nothing is there, and all that is asked for works. -/
def emptyDisk (disk : Unit) : (call : FileCall) → FileAnswer call × Unit
  | .stat _ => ((false, ⟨.unknown, 0⟩), disk)
  | .readdir _ => (none, disk)
  | .mkdir _ => (true, disk)
  | .openRead _ => (none, disk)
  | .openAppend _ => (true, disk)
  | .gettimeofday => (0, disk)

/-- The first envelope of a bucket makes its directory. -/
theorem serve_confined_write :
    .mkdir (str "/store//b") ∈
        ((serve (str "/store") [.write [0] [str "/b/s", [1]]] []).run emptyDisk ()).1 ∧
      Confined (str "/store") (str "/store//b") ∧ Below (str "/store") (str "/store//b") := by
  have hmem : .mkdir (str "/store//b") ∈
      ((serve (str "/store") [.write [0] [str "/b/s", [1]]] []).run emptyDisk ()).1 :=
    List.mem_of_getElem? (i := 2) rfl
  exact ⟨hmem, serve_confined (str "/store") _ emptyDisk () _ hmem (str "/store//b") rfl⟩

end StoreAccess

end Zippylog
