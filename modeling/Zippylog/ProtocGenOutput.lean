import Zippylog.ProtocGen

/-!
# The numbers in the generated code

The plugin inserts the numbers of a message as text, in two places: as constants into the
class of the message, and into a call that registers it. This module reads them back out of
a response, without any use of how the response was made.

- `output`: the files of a response, as a function of the pairs.
- `scan`: the numbers in a text of which the pieces around them are known.
- `classNumbers`, `registrations`: the numbers in all classes and in all registrations of a
  response in C++ or in Python.
- `declares_output`: they are the pairs, message by message, in the order of the request.
  So two responses from the same pairs agree, whatever their languages are.
-/

namespace Zippylog

open Wire

namespace ProtocGen

/-! ## What is inserted -/

section

variable (mode cppMessagesNamespace : Bytes)
  (pair : Bytes → Bytes → Option (Nat × Nat))

/-- What is inserted for a message with its pair. -/
def messageOutput (description : FileDescriptor) (name : Bytes) : List ResponseFile :=
  match pair description.ns (description.full name) with
  | some (nsIndex, messageIndex) =>
    messageFiles mode cppMessagesNamespace description name nsIndex messageIndex
  | none => []

/-- What is inserted for a file. -/
def fileOutput (description : FileDescriptor) : List ResponseFile :=
  description.messageType.flatMap
      (messageOutput mode cppMessagesNamespace pair description) ++
    includeFiles mode cppMessagesNamespace description

/-- The files of a response, as a function of the pairs. -/
def output (protoFile : List FileDescriptor) : List ResponseFile :=
  messagesFiles mode cppMessagesNamespace ++
    protoFile.flatMap (fileOutput mode cppMessagesNamespace pair)

end

/-! ## Reading -/

/-- A character of a number. -/
def isDigit (c : UInt8) : Bool := 48 ≤ c && c ≤ 57

/-- The numbers of a text that begins with the given pieces and a number behind each. -/
def scan : List Bytes → Bytes → Option (List Nat)
  | [], _ => some []
  | piece :: pieces, text =>
    if piece.isPrefixOf text then
      let rest := text.drop piece.length
      (scan pieces (rest.dropWhile isDigit)).map (Calendar.value (rest.takeWhile isDigit) :: ·)
    else none

/-- The numbers in the texts of a response that begin like this, with the points where the
texts are inserted. -/
def readings (pieces : List Bytes) (files : List ResponseFile) : List (Option Bytes × List Nat) :=
  files.filterMap fun file => (scan pieces file.content).map (file.insertionPoint, ·)

def pythonConstants : List Bytes := [str "ZIPPYLOG_NAMESPACE = ", str "\nZIPPYLOG_ENUMERATION = "]

def cppNamespaceConstant : Bytes :=
  str "static const ::google::protobuf::uint32 zippylog_namespace = "

def cppEnumerationConstant : Bytes :=
  str "static const ::google::protobuf::uint32 zippylog_enumeration = "

/-- The namespaces and the enumerations in the classes of a response, with the classes. -/
def classNumbers (mode : Bytes) (files : List ResponseFile) : List (Option Bytes × List Nat) :=
  if mode = str "python" then readings pythonConstants files
  else List.zipWith (fun r r' => (r.1, r.2 ++ r'.2)) (readings [cppNamespaceConstant] files)
    (readings [cppEnumerationConstant] files)

/-- The numbers with which the messages of a response are registered. -/
def registrations (mode : Bytes) (files : List ResponseFile) : List (List Nat) :=
  (readings
    [if mode = str "python" then str "register_message(" else str "registrar->register_message(",
      str ", "] files).map Prod.snd

/-- Messages of these packages are not registered. -/
def Registered (mode : Bytes) (description : FileDescriptor) : Prop :=
  description.package ≠ str "zippylog.message" ∧
    (mode = str "python" ∨ description.package.take 6 ≠ str "google")

instance (mode : Bytes) (description : FileDescriptor) :
    Decidable (Registered mode description) := inferInstanceAs (Decidable (_ ∧ _))

/-- The messages of a request with their pairs. -/
def numbered (pair : Bytes → Bytes → Option (Nat × Nat)) (protoFile : List FileDescriptor) :
    List (FileDescriptor × Bytes × Nat × Nat) :=
  protoFile.flatMap fun description => description.messageType.filterMap fun name =>
    (pair description.ns (description.full name)).map (description, name, ·)

/-- A response has the pairs of the messages in their classes and registrations, and no
other numbers there. -/
structure Declares (mode : Bytes) (pair : Bytes → Bytes → Option (Nat × Nat))
    (protoFile : List FileDescriptor) (files : List ResponseFile) : Prop where
  classes : classNumbers mode files = (numbered pair protoFile).map fun (description, name, x) =>
    (some (str "class_scope:" ++ description.full name), [x.1, x.2])
  registered : registrations mode files =
    ((numbered pair protoFile).filter fun (description, _) => Registered mode description).map
      fun (_, _, x) => [x.1, x.2]

/-! ## Texts -/

theorem isDigit_of_mem_decimal {n : Nat} {c : UInt8} (h : c ∈ decimal n) : isDigit c = true := by
  obtain ⟨h48, h57⟩ := Calendar.digit_of_mem_padded h
  rw [isDigit, decide_eq_true h48, decide_eq_true h57]
  rfl

/-- A number is read up to the character that ends it. -/
theorem scan_decimal (piece : Bytes) (pieces : List Bytes) (n : Nat) (rest : Bytes)
    (hrest : rest.head?.any isDigit = false) :
    scan (piece :: pieces) (piece ++ (decimal n ++ rest)) = (scan pieces rest).map (n :: ·) := by
  have htake : rest.takeWhile isDigit = [] := by
    cases rest with
    | nil => rfl
    | cons c rest => exact List.takeWhile_cons_of_neg (ne_true_of_eq_false hrest)
  have hdrop : rest.dropWhile isDigit = rest := by
    cases rest with
    | nil => rfl
    | cons c rest => exact List.dropWhile_cons_of_neg (ne_true_of_eq_false hrest)
  have hdigits : ∀ c ∈ decimal n, isDigit c = true := fun c => isDigit_of_mem_decimal
  rw [scan, if_pos (List.isPrefixOf_iff_prefix.mpr (List.prefix_append _ _)), List.drop_left]
  dsimp only
  rw [List.takeWhile_append_of_pos hdigits, List.dropWhile_append_of_pos hdigits, htake, hdrop,
    List.append_nil, decimal, Calendar.value_padded]

/-- A text that does not begin with the first piece. -/
theorem scan_eq_none {piece text : Bytes} (pieces : List Bytes)
    (h : piece.isPrefixOf text = false) : scan (piece :: pieces) text = none := by
  rw [scan, h]
  rfl

theorem readings_append (pieces : List Bytes) (files files' : List ResponseFile) :
    readings pieces (files ++ files') = readings pieces files ++ readings pieces files' :=
  List.filterMap_append

theorem readings_cons_none {pieces : List Bytes} {file : ResponseFile}
    (h : scan pieces file.content = none) (files : List ResponseFile) :
    readings pieces (file :: files) = readings pieces files :=
  List.filterMap_cons_none (by rw [h]; rfl)

theorem readings_cons_some {pieces : List Bytes} {file : ResponseFile} {numbers : List Nat}
    (h : scan pieces file.content = some numbers) (files : List ResponseFile) :
    readings pieces (file :: files) = (file.insertionPoint, numbers) :: readings pieces files :=
  List.filterMap_cons_some (by rw [h]; rfl)

/-! ## Responses -/

section

variable {mode cppMessagesNamespace : Bytes} {pair : Bytes → Bytes → Option (Nat × Nat)}

/-- What is read out of a response is what is read out of the texts for each message, if
none of the other texts begins like these. -/
theorem readings_output {pieces : List Bytes}
    (reading : FileDescriptor × Bytes × Nat × Nat → List (Option Bytes × List Nat))
    (hfiles : readings pieces (messagesFiles mode cppMessagesNamespace) = [])
    (hmessage : ∀ description name (x : Nat × Nat),
      readings pieces (messageFiles mode cppMessagesNamespace description name x.1 x.2) =
        reading (description, name, x))
    (hinclude : ∀ description,
      readings pieces (includeFiles mode cppMessagesNamespace description) = [])
    (protoFile : List FileDescriptor) :
    readings pieces (output mode cppMessagesNamespace pair protoFile) =
      (numbered pair protoFile).flatMap reading := by
  have hnames : ∀ (description : FileDescriptor) (names : List Bytes),
      readings pieces (names.flatMap (messageOutput mode cppMessagesNamespace pair description)) =
        (names.filterMap fun name =>
          (pair description.ns (description.full name)).map (description, name, ·)).flatMap
            reading := by
    intro description names
    induction names with
    | nil => rfl
    | cons name names ih =>
      rw [List.flatMap_cons, readings_append, ih, messageOutput]
      cases hpair : pair description.ns (description.full name) with
      | none =>
        rw [List.filterMap_cons_none (by rw [hpair]; rfl)]
        rfl
      | some x =>
        rw [List.filterMap_cons_some (b := (description, name, x)) (by rw [hpair]; rfl),
          List.flatMap_cons, ← hmessage]
  rw [output, readings_append, hfiles, List.nil_append]
  induction protoFile with
  | nil => rfl
  | cons description rest ih =>
    rw [List.flatMap_cons, readings_append, ih, fileOutput, readings_append, hnames, hinclude,
      List.append_nil, numbered, numbered, List.flatMap_cons, List.flatMap_append]

/-- Two numbers in a text, one behind the other. -/
theorem scan_two (piece piece' : Bytes) (n m : Nat) (rest : Bytes)
    (hpiece : piece'.head?.any isDigit = false) (hne : piece' ≠ [])
    (hrest : rest.head?.any isDigit = false) :
    scan [piece, piece'] (piece ++ (decimal n ++ (piece' ++ (decimal m ++ rest)))) =
      some [n, m] := by
  obtain ⟨c, cs, rfl⟩ := List.exists_cons_of_ne_nil hne
  rw [scan_decimal piece _ _ (c :: cs ++ _) hpiece, scan_decimal _ _ _ _ hrest]
  rfl

/-! ### Python -/

theorem scan_pythonConstants (n m : Nat) :
    scan pythonConstants (str "ZIPPYLOG_NAMESPACE = " ++ decimal n ++
      str "\nZIPPYLOG_ENUMERATION = " ++ decimal m) = some [n, m] := by
  have htwo := scan_two (str "ZIPPYLOG_NAMESPACE = ") (str "\nZIPPYLOG_ENUMERATION = ") n m
    [] rfl (by decide) rfl
  rwa [List.append_nil, ← List.append_assoc, ← List.append_assoc] at htwo

/-- In the Python mode the constants of a message stand in its class scope, and nothing is
registered. -/
theorem messageFiles_python (description : FileDescriptor) (name : Bytes) (x : Nat × Nat) :
    readings pythonConstants
        (messageFiles (str "python") cppMessagesNamespace description name x.1 x.2) =
      [(some (str "class_scope:" ++ description.full name), [x.1, x.2])] ∧
    readings [str "register_message(", str ", "]
        (messageFiles (str "python") cppMessagesNamespace description name x.1 x.2) =
      if Registered (str "python") description then [(some (str "module_scope"), [x.1, x.2])]
      else [] := by
  have hregistered : Registered (str "python") description ↔
      description.package ≠ str "zippylog.message" := and_iff_left (.inl rfl)
  rw [messageFiles]
  dsimp only
  rw [if_pos rfl, readings_cons_some (scan_pythonConstants x.1 x.2),
    readings_cons_none (scan_eq_none _ rfl)]
  simp only [hregistered]
  constructor
  · refine congrArg _ ?_
    split_ifs
    · exact readings_cons_none (scan_eq_none _ rfl) []
    · rfl
  · split_ifs
    · refine readings_cons_some ?_ []
      simp only [List.append_assoc]
      exact scan_two _ _ _ _ _ rfl (by decide) rfl
    · rfl

/-- What is put out once for a file has no pair in it. -/
theorem includeFiles_python (description : FileDescriptor) :
    readings pythonConstants (includeFiles (str "python") cppMessagesNamespace description) = [] ∧
    readings [str "register_message(", str ", "]
      (includeFiles (str "python") cppMessagesNamespace description) = [] := by
  rw [includeFiles]
  split_ifs with h h'
  · exact ⟨readings_cons_none (scan_eq_none _ rfl) [], readings_cons_none (scan_eq_none _ rfl) []⟩
  · exact absurd h' (by decide)
  · exact absurd h' (by decide)
  all_goals exact ⟨rfl, rfl⟩

/-! ### C++ -/

/-- What is read out of the texts for a message in C++. -/
theorem messageFiles_cpp (description : FileDescriptor) (name : Bytes) (x : Nat × Nat) :
    readings [cppNamespaceConstant]
        (messageFiles (str "cpp") cppMessagesNamespace description name x.1 x.2) =
      [(some (str "class_scope:" ++ description.full name), [x.1])] ∧
    readings [cppEnumerationConstant]
        (messageFiles (str "cpp") cppMessagesNamespace description name x.1 x.2) =
      [(some (str "class_scope:" ++ description.full name), [x.2])] ∧
    readings [str "registrar->register_message(", str ", "]
        (messageFiles (str "cpp") cppMessagesNamespace description name x.1 x.2) =
      if Registered (str "cpp") description then
        [(some (str "message_registration"), [x.1, x.2])]
      else [] := by
  -- in this mode the messages of the packages of protobuf are not registered either
  have hregistered : Registered (str "cpp") description ↔
      description.package ≠ str "zippylog.message" ∧
        description.package.take 6 ≠ str "google" :=
    and_congr_right fun _ => or_iff_right (by decide)
  have hconstant : ∀ (piece : Bytes) (n : Nat), scan [piece] (piece ++ decimal n ++ str ";") =
      some [n] := by
    intro piece n
    rw [List.append_assoc, scan_decimal _ _ _ _ rfl]
    rfl
  rw [messageFiles]
  dsimp only
  rw [if_neg (by decide), if_pos rfl]
  simp only [hregistered]
  refine ⟨?_, ?_, ?_⟩
  · rw [readings_cons_some (hconstant cppNamespaceConstant x.1),
      readings_cons_none (scan_eq_none _ rfl)]
    refine congrArg _ ?_
    split_ifs
    · rw [readings_cons_none (scan_eq_none _ rfl), readings_cons_none (scan_eq_none _ rfl),
        readings_cons_none (scan_eq_none _ rfl)]
      rfl
    · rfl
  · rw [readings_cons_none (scan_eq_none _ rfl),
      readings_cons_some (hconstant cppEnumerationConstant x.2)]
    refine congrArg _ ?_
    split_ifs
    · rw [readings_cons_none (scan_eq_none _ rfl), readings_cons_none (scan_eq_none _ rfl),
        readings_cons_none (scan_eq_none _ rfl)]
      rfl
    · rfl
  · rw [readings_cons_none (scan_eq_none _ rfl), readings_cons_none (scan_eq_none _ rfl)]
    split_ifs
    · rw [readings_cons_none (scan_eq_none _ rfl), readings_cons_none (scan_eq_none _ rfl)]
      refine readings_cons_some ?_ []
      simp only [List.append_assoc]
      exact scan_two _ _ _ _ _ rfl (by decide) rfl
    · rfl

/-- The other texts in C++ begin with a line break or a directive. -/
theorem head_otherFiles_cpp (description : FileDescriptor) :
    (∀ file ∈ messagesFiles (str "cpp") cppMessagesNamespace, file.content.head? = some 10) ∧
    ∀ file ∈ includeFiles (str "cpp") cppMessagesNamespace description,
      file.content.head? = some 35 := by
  constructor
  · rw [messagesFiles, if_pos rfl]
    exact List.forall_mem_cons.mpr ⟨rfl, List.forall_mem_cons.mpr ⟨rfl, nofun⟩⟩
  · rw [includeFiles, if_neg (fun h => absurd h.1 (by decide)), if_pos rfl]
    refine List.forall_mem_append.mpr ⟨?_, ?_⟩
    · split_ifs
      · exact List.forall_mem_cons.mpr ⟨rfl, nofun⟩
      · exact nofun
    · split_ifs
      · exact List.forall_mem_cons.mpr ⟨rfl, nofun⟩
      · exact nofun

/-- A text that begins with another character has no readings. -/
theorem readings_eq_nil {piece : Bytes} {pieces : List Bytes} {files : List ResponseFile}
    {c : UInt8} (hfiles : ∀ file ∈ files, file.content.head? = some c)
    (hpiece : ∃ c' ∈ piece.head?, c' ≠ c) : readings (piece :: pieces) files = [] := by
  obtain ⟨c', hc', hne⟩ := hpiece
  obtain ⟨cs', rfl⟩ := List.head?_eq_some_iff.mp hc'
  refine List.filterMap_eq_nil_iff.mpr fun file hfile => ?_
  obtain ⟨cs, hcontent⟩ := List.head?_eq_some_iff.mp (hfiles file hfile)
  rw [hcontent, scan_eq_none]
  · rfl
  · exact Bool.and_eq_false_imp.mpr fun heq => absurd (beq_iff_eq.mp heq) hne

/-! ### Both -/

theorem flatMap_ite_singleton {α β : Type*} (p : α → Prop) [DecidablePred p] (f : α → β)
    (l : List α) : (l.flatMap fun a => if p a then [f a] else []) = (l.filter (p ·)).map f := by
  induction l with
  | nil => rfl
  | cons a l ih =>
    rw [List.flatMap_cons, ih, List.filter_cons]
    by_cases hp : p a
    · simp [hp]
    · simp [hp]

/-- What is read out of a response in C++, for texts that begin with a letter. -/
theorem readings_output_cpp {piece : Bytes} {pieces : List Bytes}
    (hpiece : ∃ c ∈ piece.head?, c ≠ 10 ∧ c ≠ 35)
    (reading : FileDescriptor × Bytes × Nat × Nat → List (Option Bytes × List Nat))
    (hmessage : ∀ description name (x : Nat × Nat), readings (piece :: pieces)
        (messageFiles (str "cpp") cppMessagesNamespace description name x.1 x.2) =
      reading (description, name, x)) (protoFile : List FileDescriptor) :
    readings (piece :: pieces) (output (str "cpp") cppMessagesNamespace pair protoFile) =
      (numbered pair protoFile).flatMap reading := by
  obtain ⟨c, hc, hbreak, hdirective⟩ := hpiece
  exact readings_output reading
    (readings_eq_nil (head_otherFiles_cpp ⟨[], [], []⟩).1 ⟨c, hc, hbreak⟩) hmessage
    (fun description => readings_eq_nil (head_otherFiles_cpp description).2 ⟨c, hc, hdirective⟩)
    protoFile

/-- **Reading back**: a response has the pairs that it is made from in the class and in
the registration of each message. -/
theorem declares_output (hmode : mode = str "cpp" ∨ mode = str "python")
    (protoFile : List FileDescriptor) :
    Declares mode pair protoFile (output mode cppMessagesNamespace pair protoFile) := by
  rcases hmode with rfl | rfl
  · constructor
    · rw [classNumbers, if_neg (by decide),
        readings_output_cpp ⟨115, rfl, by decide⟩
          (fun m => [(some (str "class_scope:" ++ m.1.full m.2.1), [m.2.2.1])])
          fun description name x => (messageFiles_cpp description name x).1,
        readings_output_cpp ⟨115, rfl, by decide⟩
          (fun m => [(some (str "class_scope:" ++ m.1.full m.2.1), [m.2.2.2])])
          fun description name x => (messageFiles_cpp description name x).2.1,
        ← List.map_eq_flatMap, ← List.map_eq_flatMap, List.zipWith_map, List.zipWith_self]
      rfl
    · rw [registrations, if_neg (by decide), readings_output_cpp ⟨114, rfl, by decide⟩
          (fun m => if Registered (str "cpp") m.1 then
            [(some (str "message_registration"), [m.2.2.1, m.2.2.2])] else [])
          fun description name x => (messageFiles_cpp description name x).2.2,
        flatMap_ite_singleton, List.map_map]
      rfl
  · constructor
    · rw [classNumbers, if_pos rfl, List.map_eq_flatMap]
      exact readings_output _ rfl
        (fun description name x => (messageFiles_python description name x).1)
        (fun description => (includeFiles_python description).1) protoFile
    · rw [registrations, if_pos rfl, readings_output
          (fun m => if Registered (str "python") m.1 then
            [(some (str "module_scope"), [m.2.2.1, m.2.2.2])] else []) rfl
          (fun description name x => (messageFiles_python description name x).2)
          (fun description => (includeFiles_python description).2),
        flatMap_ite_singleton, List.map_map]
      rfl

/-- Two responses from the same pairs have the same numbers in their classes. -/
theorem Declares.classNumbers_eq {mode' : Bytes} {protoFile : List FileDescriptor}
    {files files' : List ResponseFile} (h : Declares mode pair protoFile files)
    (h' : Declares mode' pair protoFile files') :
    classNumbers mode files = classNumbers mode' files' :=
  h.classes.trans h'.classes.symm

end

end ProtocGen

end Zippylog
