import Zippylog.Calendar
import Zippylog.Numbering
import Zippylog.Protocol.Messages
import Zippylog.Store.Path

/-!
# The protoc plugin

`bin/protoc-gen`, which gives each message of the `.proto` files a namespace and an
enumeration and writes them into the generated code.

- The state file is what JSON keeps of a state: tables of names with their numbers. The
  members of an object have no order (`StateFile.Reordered`).
- A dictionary of Python is a `Table`; a key that is missing is an exception.
- `run` is a run of the plugin, `History` are the runs on one state file.
-/

namespace Zippylog

open Wire

/-! ## Python -/

/-- `s.split(sep)`, with the bytes of a separator that are yet to be skipped. -/
def splitFrom (sep : Bytes) : Nat → Bytes → List Bytes
  | _, [] => [[]]
  | skip + 1, _ :: cs => splitFrom sep skip cs
  | 0, c :: cs =>
    if sep.isPrefixOf (c :: cs) then [] :: splitFrom sep (sep.length - 1) cs
    else match splitFrom sep 0 cs with
      | [] => [[c]]
      | word :: words => (c :: word) :: words

def split (sep s : Bytes) : List Bytes := splitFrom sep 0 s

/-- `s.replace(old, new)`. -/
def replace (old new s : Bytes) : Bytes := new.intercalate (split old s)

/-- `os.path.basename`. -/
def basename (path : Bytes) : Bytes := (path.reverse.takeWhile (· ≠ slash)).reverse

/-- `os.path.dirname`: slashes at the end are dropped unless there is nothing else. -/
def dirname (path : Bytes) : Bytes :=
  let head := path.reverse.dropWhile (· ≠ slash)
  if head.all (· = slash) then head.reverse else (head.dropWhile (· = slash)).reverse

/-- `%d`. -/
def decimal (n : Nat) : Bytes := Calendar.padded 1 n

namespace ProtocGen

/-! ## Requests and responses -/

/-- `FileDescriptorProto`, with the names of its messages. -/
structure FileDescriptor where
  name : Bytes
  package : Bytes
  messageType : List Bytes
  deriving DecidableEq

/-- `CodeGeneratorResponse.File`. -/
structure ResponseFile where
  name : Bytes
  insertionPoint : Option Bytes := none
  content : Bytes
  deriving DecidableEq

structure CodeGeneratorResponse where
  error : Option Bytes := none
  file : List ResponseFile := []
  deriving DecidableEq

/-- What a run is given, apart from the state file. -/
structure Invocation where
  /-- whether `ZIPPYLOG_STATE_FILE` is defined -/
  stateFile : Bool
  /-- `ZIPPYLOG_CPP_MESSAGES_NAMESPACE` -/
  cppMessagesNamespace : Option Bytes := none
  argv0 : Bytes
  protoFile : List FileDescriptor

/-- The state file. -/
structure StateFile where
  namespaces : Table Bytes Nat
  messages : Table Bytes (Table Bytes Nat)
  cppMessagesNamespace : Bytes

/-- The same JSON with the members of the objects in another order. -/
structure StateFile.Reordered (file file' : StateFile) : Prop where
  namespaces : file'.namespaces.entries.Perm file.namespaces.entries
  messages : ∀ ns, Option.Rel (fun d d' => d'.entries.Perm d.entries)
    (file.messages.lookup ns) (file'.messages.lookup ns)
  cppMessagesNamespace : file'.cppMessagesNamespace = file.cppMessagesNamespace

/-! ## Names -/

def pythonOutputName (filename : Bytes) : Bytes := replace (str ".proto") (str "_pb2.py") filename

def cppOutputHeader (filename : Bytes) : Bytes := replace (str ".proto") (str ".pb.h") filename

def cppOutputSource (filename : Bytes) : Bytes := replace (str ".proto") (str ".pb.cc") filename

namespace FileDescriptor

variable (description : FileDescriptor)

/-- `namespace`: the first directory. -/
def ns : Bytes :=
  let dir := dirname description.name
  if slash ∈ dir ∧ dir.head? ≠ some slash then dir.takeWhile (· ≠ slash) else dir

def pyModule : Bytes :=
  replace [slash] (str ".") (replace (str ".proto") (str "_pb2") description.name)

def cppNamespace : Bytes := str "::" ++ replace (str ".") (str "::") description.package

/-- The full name of a message. -/
def full (name : Bytes) : Bytes := description.package ++ str "." ++ name

end FileDescriptor

/-! ## Generated code -/

section

variable (mode cppMessagesNamespace : Bytes)

def cppMessagesSource : Bytes :=
  replace (str "::") [slash] cppMessagesNamespace ++ str "/messages.cpp"

def cppMessagesHeader : Bytes :=
  replace (str "::") [slash] cppMessagesNamespace ++ str "/messages.hpp"

def namespaceHeader : Bytes :=
  (split (str "::") cppMessagesNamespace).flatMap fun f => str "namespace " ++ f ++ str " \x7b\n"

def namespaceFooter : Bytes := (split (str "::") cppMessagesNamespace).flatMap fun _ => str "\x7d"

def generatedNote : Bytes :=
  str "\n// this file is automatically generated. you are highly discouraged from\n" ++
    str "// editing it manually\n"

/-- The files that are there before any message. -/
def messagesFiles : List ResponseFile :=
  if mode = str "cpp" then
    [{ name := cppMessagesHeader cppMessagesNamespace
       content := generatedNote ++
         str "#include <zippylog/zippylog.hpp>\n\n// @@protoc_insertion_point(includes)\n\n" ++
         namespaceHeader cppMessagesNamespace ++
         str "\n    ZIPPYLOG_EXPORT void register_known_messages();\n" ++
         namespaceFooter cppMessagesNamespace ++ str "\n" },
     { name := cppMessagesSource cppMessagesNamespace
       content := generatedNote ++
         str "\n#include <" ++ cppMessagesHeader cppMessagesNamespace ++
         str ">\n#include <zippylog/message_registrar.hpp>\n\n" ++
         namespaceHeader cppMessagesNamespace ++
         str "\n    void register_known_messages()\n    \x7b\n" ++
         str "        ::zippylog::MessageRegistrar *registrar = " ++
         str "::zippylog::MessageRegistrar::instance();\n\n" ++
         str "        // @@protoc_insertion_point(message_registration)\n    \x7d\n" ++
         namespaceFooter cppMessagesNamespace ++ str "\n" }]
  else []

/-- What is inserted for a message with its numbers. -/
def messageFiles (description : FileDescriptor) (name : Bytes) (nsIndex messageIndex : Nat) :
    List ResponseFile :=
  let scope := some (str "class_scope:" ++ description.full name)
  if mode = str "python" then
    let filename := pythonOutputName description.name
    { name := filename
      insertionPoint := scope
      content := str "ZIPPYLOG_NAMESPACE = " ++ decimal nsIndex ++
        str "\nZIPPYLOG_ENUMERATION = " ++ decimal messageIndex } ::
    if description.package ≠ str "zippylog.message" then
      [{ name := filename
         insertionPoint := some (str "module_scope")
         content := str "register_message(" ++ decimal nsIndex ++ str ", " ++
           decimal messageIndex ++ str ", '" ++ description.pyModule ++ str "', '" ++ name ++
           str "')" }]
    else []
  else if mode = str "cpp" then
    let filename := cppOutputHeader description.name
    { name := filename
      insertionPoint := scope
      content := str "static const ::google::protobuf::uint32 zippylog_namespace = " ++
        decimal nsIndex ++ str ";" } ::
    { name := filename
      insertionPoint := scope
      content := str "static const ::google::protobuf::uint32 zippylog_enumeration = " ++
        decimal messageIndex ++ str ";" } ::
    if description.package ≠ str "zippylog.message" ∧
        description.package.take 6 ≠ str "google" then
      [{ name := filename
         insertionPoint := scope
         content := str "\nbool add_to_envelope(::zippylog::Envelope *envelope);\n" ++
           str "bool add_to_envelope(::zippylog::Envelope &envelope);\n" },
       { name := cppOutputSource description.name
         insertionPoint := some (str "namespace_scope")
         content :=
           str "\nbool " ++ name ++ str "::add_to_envelope(::zippylog::Envelope *envelope) \x7b\n" ++
           str "    return envelope->AddMessage(*this, zippylog_namespace, zippylog_enumeration);\n" ++
           str "\x7d\n\nbool " ++ name ++
           str "::add_to_envelope(::zippylog::Envelope &envelope) \x7b\n" ++
           str "    return envelope.AddMessage(*this, zippylog_namespace, zippylog_enumeration);\n" ++
           str "\x7d\n" },
       { name := cppMessagesSource cppMessagesNamespace
         insertionPoint := some (str "message_registration")
         content := str "registrar->register_message(" ++ decimal nsIndex ++ str ", " ++
           decimal messageIndex ++ str ", new " ++ description.cppNamespace ++ str "::" ++ name ++
           str "());" }]
    else []
  else []

/-- What is inserted behind the messages of a file. -/
def includeFiles (description : FileDescriptor) : List ResponseFile :=
  let filename := description.name
  if mode = str "python" ∧ description.package ≠ str "zippylog.message" then
    [{ name := pythonOutputName filename
       insertionPoint := some (str "imports")
       content := str "from zippylog.envelope import register_message" }]
  else if mode = str "cpp" then
    (if description.package ≠ str "zippylog.message" then
      [{ name := cppOutputHeader filename
         insertionPoint := some (str "includes")
         content := str "#include <zippylog/envelope.hpp>" }]
    else []) ++
    if description.package.take 6 ≠ str "google" then
      [{ name := cppMessagesHeader cppMessagesNamespace
         insertionPoint := some (str "includes")
         content := str "#include <" ++ cppOutputHeader filename ++ str ">" }]
    else []
  else []

end

/-! ## Runs -/

/-- How a run ends: by an exception, or with a response and the state file it writes. -/
inductive Outcome where
  | raised
  | exited (response : CodeGeneratorResponse) (written : Option StateFile)

/-- The variables of a run. -/
structure Generator where
  byIndex : Table Nat Bytes := ∅
  byName : Table Bytes Nat := ∅
  messages : Table Bytes (Table Bytes Nat) := ∅
  files : List ResponseFile := []

namespace Generator

/-- The loop that reads the namespaces of a state file. -/
def loadNamespaces (file : StateFile) : List (Σ _ : Bytes, Nat) → Generator → Option Generator
  | [], gen => some gen
  | ⟨k, v⟩ :: rest, gen =>
    match file.messages.lookup k with
    | none => none
    | some enums => loadNamespaces file rest
        { gen with
          byIndex := gen.byIndex.insert v k
          byName := gen.byName.insert k v
          messages := gen.messages.insert k (Table.insertAll enums.entries ∅) }

/-- "zippylog namespace is special. ensure it is always present" -/
def ensureZippylog (gen : Generator) : Generator :=
  { gen with
    byIndex := gen.byIndex.insert 1 (str "zippylog")
    byName := gen.byName.insert (str "zippylog") 1
    messages :=
      if (gen.messages.lookup (str "zippylog")).isNone then
        gen.messages.insert (str "zippylog") ∅
      else gen.messages }

/-- The state that is loaded. -/
def load (file : Option StateFile) : Option Generator :=
  match file with
  | none => some (ensureZippylog {})
  | some file => (loadNamespaces file file.namespaces.entries {}).map ensureZippylog

/-- `namespace index (%d) already seen`. -/
def alreadySeen (nsIndex : Nat) : Bytes :=
  str "namespace index (" ++ decimal nsIndex ++ str ") already seen"

/-- The index of the namespace of a file. -/
def namespaceIndex (gen : Generator) (ns : Bytes) : Except Outcome (Nat × Generator) :=
  match gen.byName.lookup ns with
  | some nsIndex => .ok (nsIndex, gen)
  | none =>
    let nsIndex := gen.byName.size + 1
    if (gen.byIndex.lookup nsIndex).isSome then
      .error (.exited { error := some (alreadySeen nsIndex), file := gen.files } none)
    else
      .ok (nsIndex, { gen with
        byName := gen.byName.insert ns nsIndex
        byIndex := gen.byIndex.insert nsIndex ns
        messages := gen.messages.insert ns ∅ })

section

variable (mode cppMessagesNamespace : Bytes)

/-- The loop over the messages of a file. -/
def processMessages (description : FileDescriptor) (nsIndex : Nat) :
    List Bytes → Generator → Except Outcome Generator
  | [], gen => .ok gen
  | name :: names, gen =>
    match gen.messages.lookup description.ns with
    | none => .error .raised
    | some enums =>
      let (messageIndex, enums) := enums.number (description.full name)
      processMessages description nsIndex names
        { gen with
          messages := gen.messages.insert description.ns enums
          files := gen.files ++
            messageFiles mode cppMessagesNamespace description name nsIndex messageIndex }

/-- The loop over the files of a request. -/
def processFiles : List FileDescriptor → Generator → Except Outcome Generator
  | [], gen => .ok gen
  | description :: rest, gen => do
    let (nsIndex, gen) ← gen.namespaceIndex description.ns
    let gen ← processMessages mode cppMessagesNamespace description nsIndex
      description.messageType gen
    processFiles rest
      { gen with files := gen.files ++ includeFiles mode cppMessagesNamespace description }

end

end Generator

namespace Invocation

variable (inv : Invocation)

/-- `protoc-gen-<mode>_zippylog`. -/
def mode : Bytes :=
  let mode := (basename inv.argv0).drop 11
  mode.take (mode.length - 9)

/-- The error of a run that is not set up. -/
def refusal? : Option Bytes :=
  let name := basename inv.argv0
  if ¬inv.stateFile then some (str "ZIPPYLOG_STATE_FILE environment variable not defined")
  else if ¬(str "protoc-gen-").isPrefixOf name ∨ name.drop (name.length - 9) ≠ str "_zippylog" then
    some (str "protoc-gen not invoked properly. did you use zippylog_compile?")
  else none

/-- `state['cpp_messages_namespace']`: of the environment, of the state, or the default. -/
def cppMessagesNamespaceOf (file : Option StateFile) : Bytes :=
  inv.cppMessagesNamespace.getD
    ((file.map StateFile.cppMessagesNamespace).getD (str "zippylog::site"))

/-- A run, with the state file if there is one. -/
def run (file : Option StateFile) : Outcome :=
  match inv.refusal? with
  | some error => .exited { error := some error } none
  | none =>
    match Generator.load file with
    | none => .raised
    | some gen =>
      let cppNamespace := inv.cppMessagesNamespaceOf file
      match Generator.processFiles inv.mode cppNamespace inv.protoFile
          { gen with files := messagesFiles inv.mode cppNamespace } with
      | .error outcome => outcome
      | .ok gen =>
        .exited { file := gen.files }
          (some {
            namespaces := gen.byName
            messages := gen.messages
            cppMessagesNamespace := cppNamespace })

end Invocation

/-- The state file behind a run. -/
def Outcome.stateFile (file : Option StateFile) : Outcome → Option StateFile
  | raised => file
  | exited _ written => written.or file

/-- The runs on a state file that is not there at first: what each was given and how it
ended, and the file that is left. -/
inductive History : List (Invocation × Outcome) → Option StateFile → Prop where
  | nil : History [] none
  | run {runs : List (Invocation × Outcome)} {file file' : Option StateFile} (inv : Invocation)
      (h : History runs file) (horder : Option.Rel StateFile.Reordered file file') :
      History (runs ++ [(inv, inv.run file')]) ((inv.run file').stateFile file')

end ProtocGen

end Zippylog
