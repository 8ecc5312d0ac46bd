import Zippylog.DirectoryWatcher
import Zippylog.FileStatus
import Zippylog.ReactorNetwork
import Zippylog.StoreListing

/-!
# Store watchers

`StoreWatcher::Pump` with the handlers of `Watcher`: what is sent for the changes that a
`DirectoryWatcher` reports. A change of a bucket, a stream set or a stream is to be told to the
reactor and the subscribers, with its components and, for a stream, with its new length; a change of
anything else is to be passed over.

- A change is any path, with what it was about and what there is when it is examined. The code
  looks at the path, and at the size that `stat` finds.
- A path denotes what the names between its slashes lead to; only a directory has a slash
  behind it.
- `SendChangeMessage` sends an envelope on both of its sockets.
- `mapsEvents_iff`: every change is answered as it is to be exactly when no change is of one of
  four kinds. For a modified directory the handler throws, which ends the watcher.
-/

namespace Zippylog

open Wire Platform StoreAccess StoreWriter

namespace StoreWatcher

/-- A change, when it is examined: the kind of file that it is about, the files that there are,
and what is in the `FileStat` before. -/
structure Change where
  path : Bytes
  action : Watching.ChangeAction
  kind : FileKind
  files : Files
  memory : FileStat
  now : UInt64

/-! ## Handlers -/

/-- `HandleAdded`. The `FileStat` is not looked at. -/
def handleAdded (path : Bytes) (_stat : FileStat) : Option Message := Watcher.message (.added path)

/-- `HandleDeleted`. -/
def handleDeleted (path : Bytes) : Option Message := Watcher.message (.deleted path)

/-- `HandleModified`. The size is set as a length without a sign. -/
def handleModified (path : Bytes) (stat : FileStat) : Except Exn (Option Message) :=
  match Store.parsePath path with
  | none => .ok none
  | some (bucket, set, stream) =>
    if !stream.isEmpty then
      .ok (some (.storeChangeStreamAppendedV1
        ⟨bucket, set, stream, some (UInt64.ofInt stat.size)⟩))
    else .error (.generic "how did we get here?")

/-! ## `Pump` -/

/-- `\`. -/
def backslash : UInt8 := 92

/-- The path in the store. Behind the end of a string there is a zero. -/
def storePath (path : Bytes) : Bytes :=
  (if path.getD 0 0 = slash then path else slash :: path).map fun c =>
    if c = backslash then slash else c

section

variable (root : Bytes)

/-- The path of the file. -/
def Change.fsPath (c : Change) : Bytes := pathToFilesystemPath root c.path

/-- The `FileStat` behind `stat`, whose result is not looked at. -/
def Change.stat (c : Change) : FileStat := (c.files.stat (c.fsPath root) c.memory).2

/-- The handler of a change: the message that is sent. -/
def handle (c : Change) : Except Exn (Option Message) :=
  match c.action with
  | .added => .ok (handleAdded (storePath c.path) (c.stat root))
  | .deleted => .ok (handleDeleted (storePath c.path))
  | .modified => handleModified (storePath c.path) (c.stat root)

/-- `Pump`, of the changes that there are: what is sent for each one that is examined, and what
is thrown. -/
def pump : List Change → List (Option Envelope) × Except Exn Unit
  | [] => ([], .ok ())
  | c :: changes =>
    match handle root c with
    | .error exn => ([], .error exn)
    | .ok message =>
      let (sent, result) := pump changes
      (message.map (Envelope.ofMessage c.now) :: sent, result)

end

/-! ## What is to be sent -/

/-- Valid names. -/
def Valid : Address → Prop
  | .bucket b => ValidName b
  | .streamSet b s => ValidName b ∧ ValidName s
  | .stream b s n => ValidName b ∧ ValidName s ∧ ValidName n

/-- A change is about the directory of a bucket or a stream set, or about the file of a stream. -/
structure Denotes (c : Change) (a : Address) : Prop where
  valid : Valid a
  names : resolve c.path = a.files
  kind : c.kind = a.wanted.kind
  file : a.level = .stream → c.path.getLast? ≠ some slash

section

variable (root : Bytes)

/-- The length of the file now. -/
def Change.length? (c : Change) : Option UInt64 :=
  (c.files.find (cString (c.fsPath root))).map fun inode => UInt64.ofInt inode.size

/-- The message of the matching type. There is none for a directory that is modified, and none
for a file without a length. -/
def wantedMessage (c : Change) : Address → Option Message
  | .bucket b =>
    match c.action with
    | .added => some (.storeChangeBucketAddedV1 b)
    | .deleted => some (.storeChangeBucketDeletedV1 b)
    | .modified => none
  | .streamSet b s =>
    match c.action with
    | .added => some (.storeChangeStreamSetAddedV1 ⟨b, s⟩)
    | .deleted => some (.storeChangeStreamSetDeletedV1 ⟨b, s⟩)
    | .modified => none
  | .stream b s n =>
    match c.action with
    | .added => some (.storeChangeStreamAddedV1 ⟨b, s, n, none⟩)
    | .deleted => some (.storeChangeStreamDeletedV1 ⟨b, s, n, none⟩)
    | .modified => (c.length? root).map fun length =>
        .storeChangeStreamAppendedV1 ⟨b, s, n, some length⟩

/-- What is sent for a change is what is to be sent. -/
structure Answered (c : Change) (sent : Option Envelope) : Prop where
  denoted : ∀ a, Denotes c a →
    ∃ message, wantedMessage root c a = some message ∧ sent = some (.ofMessage c.now message)
  other : (∀ a, ¬ Denotes c a) → sent = none

/-- Nothing is thrown, and every change is answered. -/
structure MapsEvents (changes : List Change) : Prop where
  returns : (pump root changes).2 = .ok ()
  answered : List.Forall₂ (Answered root) changes (pump root changes).1

/-- The changes that are not answered. -/
inductive Mishandled (c : Change) : Prop where
  /-- Slashes are repeated in the path of a bucket, a stream set or a stream. -/
  | repeated (a : Address) (h : Denotes c a) (hrefused : Store.parsePath (storePath c.path) = none)
  /-- A path that could be one, of something else: a file in the place of a directory, a stream
  without the extension, names with backslashes. -/
  | other (h : ∀ a, ¬ Denotes c a) (haccepted : Store.parsePath (storePath c.path) ≠ none)
  /-- A directory is modified. -/
  | directory (a : Address) (h : Denotes c a) (hlevel : a.level ≠ .stream)
      (hmodified : c.action = .modified)
  /-- A file is modified, and `stat` does not find it. -/
  | gone (a : Address) (h : Denotes c a) (hmodified : c.action = .modified)
      (hgone : c.files.find (cString (c.fsPath root)) = none)

end

/-! ## Paths -/

section Paths

variable {c : Change} {a : Address} {path : Bytes}

theorem resolve_cons_slash (path : Bytes) : resolve (slash :: path) = resolve path := by
  rw [show slash :: path = [] ++ slash :: path from rfl, resolve_append]
  rfl

/-- A character of a path is a slash or in a component. -/
theorem mem_splitSlash {x : UInt8} (path : Bytes) (h : x ∈ path) :
    x = slash ∨ ∃ name ∈ Store.splitSlash path, x ∈ name := by
  induction path with
  | nil => cases h
  | cons c path ih =>
    rw [Store.splitSlash]
    by_cases hc : c = slash
    · rw [if_pos hc]
      rcases List.mem_cons.mp h with rfl | h
      · exact Or.inl hc
      · obtain hx | ⟨name, hname, hx⟩ := ih h
        · exact Or.inl hx
        · exact Or.inr ⟨name, List.mem_cons_of_mem _ hname, hx⟩
    · rw [if_neg hc]
      cases hsplit : Store.splitSlash path with
      | nil => exact absurd hsplit (Store.splitSlash_ne_nil path)
      | cons w ws =>
        dsimp only
        rcases List.mem_cons.mp h with rfl | h
        · exact Or.inr ⟨x :: w, List.mem_cons_self, List.mem_cons_self⟩
        · obtain hx | ⟨name, hname, hx⟩ := ih h
          · exact Or.inl hx
          · rw [hsplit] at hname
            rcases List.mem_cons.mp hname with rfl | hname
            · exact Or.inr ⟨c :: name, List.mem_cons_self, List.mem_cons_of_mem _ hx⟩
            · exact Or.inr ⟨name, List.mem_cons_of_mem _ hname, hx⟩

theorem Valid.backslash_notMem (h : Valid a) : ∀ name ∈ a.files, backslash ∉ name := by
  have hvalid : ∀ {name : Bytes}, ValidName name → backslash ∉ name :=
    fun hname hmem => absurd (hname.chars _ hmem) (by decide)
  have hext : backslash ∉ extension := by decide +kernel
  cases a with
  | bucket b => simpa [Address.files] using hvalid h
  | streamSet b s => simpa [Address.files] using ⟨hvalid h.1, hvalid h.2⟩
  | stream b s n =>
    simpa [Address.files, hext] using ⟨hvalid h.1, hvalid h.2.1, hvalid h.2.2⟩

/-- A path that denotes something is only completed by a slash. -/
theorem Denotes.storePath_eq (h : Denotes c a) :
    storePath c.path = if c.path.getD 0 0 = slash then c.path else slash :: c.path := by
  have hnone : ∀ x ∈ c.path, x ≠ backslash := by
    rintro x hx rfl
    obtain hslash | ⟨name, hname, hx⟩ := mem_splitSlash c.path hx
    · exact absurd hslash (by decide)
    · have hmem : name ∈ resolve c.path :=
        List.mem_filter.mpr ⟨hname, by simpa using List.ne_nil_of_mem hx⟩
      rw [h.names] at hmem
      exact h.valid.backslash_notMem name hmem hx
  rw [storePath]
  refine (List.map_congr_left fun x hx => ?_).trans (List.map_id _)
  refine if_neg fun hback => ?_
  split at hx
  · exact hnone x hx hback
  · rcases List.mem_cons.mp hx with rfl | hx
    · exact absurd hback (by decide)
    · exact hnone x hx hback

theorem Denotes.resolve_storePath (h : Denotes c a) : resolve (storePath c.path) = a.files := by
  rw [h.storePath_eq]
  split
  · exact h.names
  · rw [resolve_cons_slash, h.names]

/-- The names of a path as it is described. -/
theorem resolve_text (q : Store.StorePath) : resolve q.text = q.pieces.filter (· ≠ []) := by
  have htext : q.text = slash :: q.text.drop 1 := by
    cases q <;> simp [Store.StorePath.text, Store.bucketPath, Store.streamsetPath_eq,
      Store.streamPath_eq]
  rw [htext, resolve_cons_slash, resolve, Store.splitSlash_text]

/-- The path of a bucket, a stream set or a stream leads along its names. -/
theorem names_text (q : Store.StorePath) :
    resolve q.text =
      match q with
      | .bucket b _ => [b.val]
      | .streamSet b s _ => [b.val, s.val]
      | .stream b s n suffix => [b.val, s.val, n.val ++ if suffix then extension else []] := by
  rw [resolve_text]
  cases q with
  | bucket b trailing => cases trailing <;> simp [Store.StorePath.pieces, b.2.ne_nil]
  | streamSet b s trailing =>
    cases trailing <;> simp [Store.StorePath.pieces, b.2.ne_nil, s.2.ne_nil]
  | stream b s n suffix =>
    cases suffix <;> simp [Store.StorePath.pieces, b.2.ne_nil, s.2.ne_nil, n.2.ne_nil]

theorem names_extension (b s : Store.Name) :
    resolve (Store.streamPath b s extension) = [b.val, s.val, extension] := by
  rw [Store.streamPath_eq, resolve_cons_slash, resolve_append, resolve_append,
    SimpleDirectoryStore.resolve_validName b.2, SimpleDirectoryStore.resolve_validName s.2,
    resolve_name (show extension ≠ [] by decide +kernel) (by decide +kernel)]
  rfl

/-- **Components**: what denotes something is parsed into its components, if it is accepted. -/
theorem Denotes.components_eq (h : Denotes c a) {components : Bytes × Bytes × Bytes}
    (hparse : Store.parsePath (storePath c.path) = some components) :
    components = a.components := by
  have hnames := h.resolve_storePath
  have hvalid : Store.validatePath (storePath c.path) = true := by
    by_contra hnot
    rw [Store.parsePath, if_neg hnot] at hparse
    cases hparse
  obtain hslash | ⟨q, hq⟩ | ⟨b, s, hext⟩ := (Store.validatePath_iff _).mp hvalid
  · rw [hslash] at hnames
    cases a <;> cases hnames
  · rw [hq, names_text] at hnames
    rw [hq, Store.parsePath_text] at hparse
    cases hparse
    cases q with
    | bucket b trailing =>
      cases a with
      | bucket b' =>
        cases hnames
        rfl
      | _ => cases hnames
    | streamSet b s trailing =>
      cases a with
      | streamSet b' s' =>
        cases hnames
        rfl
      | _ => cases hnames
    | stream b s n suffix =>
      cases a with
      | stream b' s' n' =>
        obtain ⟨rfl, hset⟩ := List.cons.inj hnames
        obtain ⟨rfl, hstream⟩ := List.cons.inj hset
        have hfile : n.val ++ (if suffix = true then extension else []) = n' ++ extension :=
          (List.cons.inj hstream).1
        cases suffix with
        | true =>
          obtain rfl := List.append_cancel_right hfile
          rfl
        | false =>
          -- a name has no dot
          have hdot : 46 ∈ n.val := by
            rw [if_neg Bool.false_ne_true, List.append_nil] at hfile
            rw [hfile]
            exact List.mem_append_right _ (by decide +kernel)
          exact absurd (n.2.chars _ hdot) (by decide)
      | _ => cases hnames
  · rw [hext, names_extension] at hnames
    cases a with
    | stream b' s' n' =>
      obtain ⟨rfl, hset⟩ := List.cons.inj hnames
      obtain ⟨rfl, hstream⟩ := List.cons.inj hset
      have hfile : [] ++ extension = n' ++ extension := (List.cons.inj hstream).1
      obtain rfl := List.append_cancel_right hfile
      exact absurd rfl h.valid.2.2.ne_nil
    | _ => cases hnames

end Paths

/-! ## One change -/

section Handle

variable {root : Bytes} {c : Change} {a : Address}

/-- A change denotes one thing. -/
theorem Denotes.unique {a' : Address} (h : Denotes c a) (h' : Denotes c a') : a = a' := by
  have hnames := h.names.symm.trans h'.names
  cases a <;> cases a' <;> simp_all [Address.files]

/-- No handler does anything for a path that is refused. -/
theorem handle_of_refused (h : Store.parsePath (storePath c.path) = none) :
    handle root c = .ok none := by
  rw [handle]
  cases c.action with
  | added => exact congrArg Except.ok (by rw [handleAdded, Watcher.message, h]; rfl)
  | deleted => exact congrArg Except.ok (by rw [handleDeleted, Watcher.message, h]; rfl)
  | modified =>
    dsimp only
    rw [handleModified, h]

/-- The handlers send something for every path that is accepted, or throw. -/
theorem handle_of_accepted (h : Store.parsePath (storePath c.path) ≠ none) :
    handle root c ≠ .ok none := by
  obtain ⟨⟨bucket, set, stream⟩, hparse⟩ := Option.ne_none_iff_exists'.mp h
  rw [handle]
  cases c.action with
  | added =>
    dsimp only
    rw [handleAdded, Watcher.message, hparse]
    exact fun h => by cases h
  | deleted =>
    dsimp only
    rw [handleDeleted, Watcher.message, hparse]
    exact fun h => by cases h
  | modified =>
    dsimp only
    rw [handleModified, hparse]
    dsimp only
    split <;> exact fun h => by cases h

/-- The length that is set is that of the file that `stat` finds. -/
theorem size_stat {length : UInt64} (h : c.length? root = some length) :
    UInt64.ofInt (c.stat root).size = length := by
  obtain ⟨inode, hfind, rfl⟩ := Option.map_eq_some_iff.mp h
  rw [Change.stat, Files.stat, hfind]

/-- What the handler of an added path sends is what is to be sent. -/
theorem message_added (h : Denotes c a)
    (hparse : Store.parsePath (storePath c.path) = some a.components) (haction : c.action = .added) :
    Watcher.message (.added (storePath c.path)) = wantedMessage root c a := by
  have hvalid := h.valid
  rw [Watcher.message, hparse]
  cases a with
  | bucket b => simp [wantedMessage, haction, Address.components]
  | streamSet b s => simp [wantedMessage, haction, Address.components, hvalid.2.ne_nil]
  | stream b s n => simp [wantedMessage, haction, Address.components, hvalid.2.2.ne_nil]

/-- What is sent for something that was deleted, by what its path denotes. -/
theorem message_deleted (h : Denotes c a)
    (hparse : Store.parsePath (storePath c.path) = some a.components)
    (haction : c.action = .deleted) :
    Watcher.message (.deleted (storePath c.path)) = wantedMessage root c a := by
  have hvalid := h.valid
  rw [Watcher.message, hparse]
  cases a with
  | bucket b => simp [wantedMessage, haction, Address.components]
  | streamSet b s => simp [wantedMessage, haction, Address.components, hvalid.2.ne_nil]
  | stream b s n => simp [wantedMessage, haction, Address.components, hvalid.2.2.ne_nil]

/-- **What is denoted is handled** as it is to be, if there is a message for it. -/
theorem handle_of_denotes (h : Denotes c a)
    (hparse : Store.parsePath (storePath c.path) = some a.components) {message : Message}
    (hwanted : wantedMessage root c a = some message) : handle root c = .ok (some message) := by
  rw [handle]
  cases haction : c.action with
  | added =>
    dsimp only
    rw [handleAdded, message_added h hparse haction, hwanted]
  | deleted =>
    dsimp only
    rw [handleDeleted, message_deleted h hparse haction, hwanted]
  | modified =>
    cases a with
    | bucket b => simp [wantedMessage, haction] at hwanted
    | streamSet b s => simp [wantedMessage, haction] at hwanted
    | stream b s n =>
      simp only [wantedMessage, haction] at hwanted
      obtain ⟨length, hlength, rfl⟩ := Option.map_eq_some_iff.mp hwanted
      simp [handleModified, hparse, Address.components, h.valid.2.2.ne_nil, size_stat hlength]

/-- A directory that is modified is thrown at. -/
theorem handle_of_directory
    (hparse : Store.parsePath (storePath c.path) = some a.components)
    (hlevel : a.level ≠ .stream) (hmodified : c.action = .modified) :
    handle root c = .error (.generic "how did we get here?") := by
  rw [handle, hmodified]
  dsimp only
  rw [handleModified, hparse]
  cases a with
  | bucket b => rfl
  | streamSet b s => rfl
  | stream b s n => exact absurd rfl hlevel

/-- A message is wanted, unless a directory is modified or a file is gone. -/
theorem wantedMessage_eq_none_iff :
    wantedMessage root c a = none ↔ c.action = .modified ∧
      (a.level ≠ .stream ∨ c.files.find (cString (c.fsPath root)) = none) := by
  cases a <;> cases haction : c.action <;>
    simp [wantedMessage, haction, Address.level, Change.length?]

/-- **One change** is answered exactly when it is of none of the four kinds. -/
theorem answered_iff (root : Bytes) (c : Change) :
    (∃ message, handle root c = .ok message ∧
      Answered root c (message.map (Envelope.ofMessage c.now))) ↔ ¬ Mishandled root c := by
  -- the change is of something of a store, or of something else
  by_cases hdenotes : ∃ a, Denotes c a
  · obtain ⟨a, ha⟩ := hdenotes
    cases hparse : Store.parsePath (storePath c.path) with
    | none =>
      rw [handle_of_refused hparse]
      refine iff_of_false ?_ (not_not.mpr (.repeated a ha hparse))
      rintro ⟨message, hmessage, hanswered⟩
      cases hmessage
      obtain ⟨_, _, hsent⟩ := hanswered.denoted a ha
      cases hsent
    | some components =>
      obtain rfl := ha.components_eq hparse
      cases hwanted : wantedMessage root c a with
      | none =>
        refine iff_of_false ?_ (not_not.mpr ?_)
        · rintro ⟨message, -, hanswered⟩
          obtain ⟨_, hmessage, -⟩ := hanswered.denoted a ha
          rw [hwanted] at hmessage
          cases hmessage
        · obtain ⟨hmodified, hlevel | hgone⟩ := wantedMessage_eq_none_iff.mp hwanted
          · exact .directory a ha hlevel hmodified
          · exact .gone a ha hmodified hgone
      | some message =>
        refine iff_of_true ⟨_, handle_of_denotes ha hparse hwanted, ?_⟩ ?_
        · refine ⟨fun a' ha' => ?_, fun hnone => absurd ha (hnone a)⟩
          obtain rfl := ha.unique ha'
          exact ⟨message, hwanted, rfl⟩
        · have hnot : ¬ (c.action = .modified ∧
              (a.level ≠ .stream ∨ c.files.find (cString (c.fsPath root)) = none)) := by
            rw [← wantedMessage_eq_none_iff, hwanted]
            exact Option.some_ne_none _
          intro hbad
          cases hbad with
          | repeated a' ha' hrefused =>
            rw [hparse] at hrefused
            cases hrefused
          | other hnone haccepted => exact hnone a ha
          | directory a' ha' hlevel hmodified =>
            obtain rfl := ha.unique ha'
            exact hnot ⟨hmodified, Or.inl hlevel⟩
          | gone a' ha' hmodified hgone => exact hnot ⟨hmodified, Or.inr hgone⟩
  · have hnone : ∀ a, ¬ Denotes c a := fun a ha => hdenotes ⟨a, ha⟩
    -- something else is passed over where its path is refused, and only there
    by_cases hparse : Store.parsePath (storePath c.path) = none
    · rw [handle_of_refused hparse]
      refine iff_of_true ⟨none, rfl, fun a ha => absurd ha (hnone a), fun _ => rfl⟩ ?_
      intro hbad
      cases hbad with
      | repeated a ha _ => exact hnone a ha
      | other _ haccepted => exact haccepted hparse
      | directory a ha _ _ => exact hnone a ha
      | gone a ha _ _ => exact hnone a ha
    · refine iff_of_false ?_ (not_not.mpr (.other hnone hparse))
      rintro ⟨message, hmessage, hanswered⟩
      have hsent := Option.map_eq_none_iff.mp (hanswered.other hnone)
      rw [hsent] at hmessage
      exact handle_of_accepted hparse hmessage

end Handle

/-! ## All changes -/

section Pump

variable (root : Bytes)

/-- One change behind the other: a handler that throws ends the list. -/
theorem mapsEvents_cons (c : Change) (changes : List Change) :
    MapsEvents root (c :: changes) ↔
      (∃ message, handle root c = .ok message ∧
        Answered root c (message.map (Envelope.ofMessage c.now))) ∧ MapsEvents root changes := by
  constructor
  · rintro ⟨hreturns, hanswered⟩
    rw [pump] at hreturns hanswered
    cases hhandle : handle root c with
    | error exn =>
      rw [hhandle] at hreturns
      cases hreturns
    | ok message =>
      rw [hhandle] at hreturns hanswered
      cases hanswered with
      | cons h hrest => exact ⟨⟨message, rfl, h⟩, hreturns, hrest⟩
  · rintro ⟨⟨message, hhandle, h⟩, hreturns, hanswered⟩
    refine ⟨?_, ?_⟩
    · rw [pump, hhandle]
      exact hreturns
    · rw [pump, hhandle]
      exact .cons h hanswered

/-- **Event mapping**: nothing is thrown and every change is answered as it is to be exactly when no
change is of one of the four kinds. The changes are a list of any length, as one wait of the watcher
returns it. -/
theorem mapsEvents_iff (changes : List Change) :
    MapsEvents root changes ↔ ∀ c ∈ changes, ¬ Mishandled root c := by
  induction changes with
  | nil => exact iff_of_true ⟨rfl, .nil⟩ fun c hc => by cases hc
  | cons c changes ih => rw [mapsEvents_cons, answered_iff, ih, List.forall_mem_cons]

end Pump

/-- A regular file `notes` next to the buckets is written to. -/
def notesModified : Change where
  path := str "notes"
  action := .modified
  kind := .regular
  files :=
    { leadsTo := fun path => if path = str "/r/notes" then some ⟨.regular, 0o644, 5⟩ else none
      leadsTo_of_zero_mem := fun path h => by
        rw [if_neg]
        rintro rfl
        exact absurd h (by decide +kernel)
      statFails := fun _ => false }
  memory := ⟨.unknown, 0⟩
  now := 0

/-- The watcher ends by that. -/
theorem not_mapsEvents_notes : ¬ MapsEvents (str "/r") [notesModified] := by
  intro h
  have hparse : Store.parsePath (storePath notesModified.path) =
      some (Address.bucket (str "notes")).components := by decide +kernel
  have hthrown : handle (str "/r") notesModified =
      .error (.generic "how did we get here?") :=
    handle_of_directory hparse (fun hlevel => by cases hlevel) rfl
  have hreturns := h.returns
  rw [pump, hthrown] at hreturns
  cases hreturns

end StoreWatcher

end Zippylog
