import Zippylog.Program
import Zippylog.RequestProcessor
import Zippylog.SimpleDirectoryStore
import Zippylog.StoreWriter

/-!
# File accesses of a store

`SimpleDirectoryStore` as a program that asks the system for files, and what a request or a message
of a store writer makes it ask. A program is the calls that it makes and what it does with their
answers, so that what it asks for can be followed without saying what the system has.

- What is asked is answered at that moment, by anything: nothing is said of the files.
- A name in a directory is not empty and has no slash and no NUL; `.` and `..` are among the names.
- Of a request processor it has what comes to the store. The handlers of the server do not come to
  it.
-/

namespace Zippylog

open Wire Platform

namespace Platform

inductive FileType where
  | regular
  | directory
  | pipe
  | character
  | unknown
  deriving DecidableEq

structure FileStat where
  type : FileType
  size : Int
  deriving DecidableEq

/-- `DirectoryEntry`, of what `readdir` can return. -/
structure DirectoryEntry where
  name : Bytes
  type : FileType
  ne_nil : name ≠ []
  slash_notMem : slash ∉ name
  zero_notMem : 0 ∉ name

/-- What the system is asked. -/
inductive FileCall where
  | stat (path : Bytes)
  | readdir (path : Bytes)
  | mkdir (path : Bytes)
  /-- `open` to read, or to create and append -/
  | openRead (path : Bytes)
  | openAppend (path : Bytes)
  | gettimeofday

/-- What it answers. `stat` leaves something in the structure also when it fails; a file
that is read has a content. -/
abbrev FileAnswer : FileCall → Type
  | .stat _ => Bool × FileStat
  | .readdir _ => Option (List DirectoryEntry)
  | .mkdir _ => Bool
  | .openRead _ => Option Bytes
  | .openAppend _ => Bool
  | .gettimeofday => Int

/-- The path that is asked for. -/
def FileCall.path? : FileCall → Option Bytes
  | stat path | readdir path | mkdir path | openRead path | openAppend path => some path
  | gettimeofday => none

end Platform

/-- A program that uses files. -/
abbrev FileProgram := Program FileCall FileAnswer

namespace StoreAccess

/-! ## The platform -/

def askFile (call : FileCall) : FileProgram (FileAnswer call) := Program.ask call

def stat (path : Bytes) : FileProgram (Bool × FileStat) := askFile (.stat path)

/-- `PathIsDirectory`: the result of `stat` is compared with -1, which it never is. -/
def pathIsDirectory (path : Bytes) : FileProgram Bool := do
  let (_, st) ← stat path
  return st.type = .directory

/-- `PathIsRegularFile`. -/
def pathIsRegularFile (path : Bytes) : FileProgram Bool := do
  let (_, st) ← stat path
  return st.type = .regular

/-- `MakeDirectory`. -/
def makeDirectory (path : Bytes) : FileProgram Bool := askFile (.mkdir path)

/-- `DirectoriesInDirectory`, without what it returns. -/
def directoriesInDirectory (dir : Bytes) : FileProgram (List Bytes) := do
  let entries ← askFile (.readdir dir)
  return ((entries.getD []).filter fun entry =>
    entry.type = .directory ∧ entry.name.head? ≠ some 46).map DirectoryEntry.name

/-- `FilesInDirectory`, without what it returns. -/
def filesInDirectory (dir : Bytes) : FileProgram (List Bytes) := do
  let entries ← askFile (.readdir dir)
  return ((entries.getD []).filter fun entry => entry.type = .regular).map DirectoryEntry.name

/-! ## `SimpleDirectoryStore` -/

section

variable (root : Bytes)

/-- `PathToFilesystemPath`. -/
def pathToFilesystemPath (path : Bytes) : Bytes := root ++ slash :: path

/-- `StreamFilesystemPath`. -/
def streamFilesystemPath (path : Bytes) : Bytes := pathToFilesystemPath root path ++ extension

/-- `BucketNames`. -/
def bucketNames : FileProgram (List Bytes) := directoriesInDirectory root

/-- `StreamSetNames`. -/
def streamSetNames (bucket : Bytes) : FileProgram (List Bytes) :=
  directoriesInDirectory (pathToFilesystemPath root (Store.bucketPath bucket))

/-- The name of a stream file without the extension. -/
def streamName? (file : Bytes) : Option Bytes :=
  if file.length < 10 ∨ file.drop (file.length - 9) ≠ extension then none
  else some (file.take (file.length - 9))

/-- `StreamNames`. -/
def streamNames (bucket set : Bytes) : FileProgram (List Bytes) := do
  let files ← filesInDirectory (pathToFilesystemPath root (Store.streamsetPath bucket set))
  return files.filterMap streamName?

/-- `StreamLength`. -/
def streamLength (path : Bytes) : FileProgram (Option Int) :=
  if Store.validatePath path then do
    let (ok, st) ← stat (streamFilesystemPath root path)
    return if ok then some st.size else none
  else return none

/-- `BucketExists`. -/
def bucketExists (bucket : Bytes) : FileProgram Bool :=
  pathIsDirectory (pathToFilesystemPath root (Store.bucketPath bucket))

/-- `StreamSetExists`. -/
def streamSetExists (bucket set : Bytes) : FileProgram Bool :=
  pathIsDirectory (pathToFilesystemPath root (Store.streamsetPath bucket set))

/-- `StreamExists`. -/
def streamExists (bucket set stream : Bytes) : FileProgram Bool :=
  pathIsRegularFile (streamFilesystemPath root (Store.streamPath bucket set stream))

/-- `GetInputStream` of the subclass: what the file has that is opened; `none` is an
exception. -/
def openInputStream (bucket set stream : Bytes) : FileProgram (Option Bytes) :=
  askFile (.openRead (streamFilesystemPath root (Store.streamPath bucket set stream)))

/-- `CreateBucket`. -/
def createBucket (bucket : Bytes) : FileProgram Bool :=
  makeDirectory (pathToFilesystemPath root (Store.bucketPath bucket))

/-- `CreateStreamset`. -/
def createStreamset (bucket set : Bytes) : FileProgram Bool :=
  makeDirectory (pathToFilesystemPath root (Store.streamsetPath bucket set))

/-- `FileOutputStream(path, true)`: it throws if the file does not open, or cannot be
looked at then. -/
def openOutputStream (path : Bytes) : FileProgram WriteResult := do
  if ← askFile (.openAppend path) then
    let (ok, _) ← stat path
    return if ok then .written else .threw
  else return .threw

/-- `if (!BucketExists(bucket)) CreateBucket(bucket)`, and the same of a stream set. -/
def ensure (pathExists create : FileProgram Bool) : FileProgram Bool := do
  if ← pathExists then return true
  else create

/-- `CreateOutputStream`: `failed` is `NULL`. -/
def createOutputStream (bucket set stream : Bytes) : FileProgram WriteResult := do
  if ← ensure (bucketExists root bucket) (createBucket root bucket) then
    if ← ensure (streamSetExists root bucket set) (createStreamset root bucket set) then
      openOutputStream (pathToFilesystemPath root
        (Store.streamPath bucket set stream ++ extension))
    else return .failed
  else return .failed

/-! ## `Store` -/

/-- `StreamInfo`. -/
def streamInfo (bucket set stream : Bytes) : FileProgram StreamInfoV1 := do
  let length ← streamLength root (Store.streamPath bucket set stream)
  return { path := stream, length := length.map UInt64.ofInt }

/-- `StreamsetInfo`. -/
def streamsetInfo (bucket set : Bytes) : FileProgram StreamSetInfoV1 := do
  let streams ← streamNames root bucket set
  let infos ← Program.each (streamInfo root bucket set) streams
  return { path := set, stream := infos }

/-- `BucketInfo`. -/
def bucketInfo (bucket : Bytes) : FileProgram BucketInfoV1 := do
  let sets ← streamSetNames root bucket
  let infos ← Program.each (streamsetInfo root bucket) sets
  return { path := bucket, streamSet := infos }

/-- `StoreInfo`. -/
def storeInfo : FileProgram StoreInfoV1 := do
  let buckets ← bucketNames root
  let infos ← Program.each (bucketInfo root) buckets
  return { bucket := infos }

/-- `GetInputStream`: without a file there is `NULL` or an exception. -/
def getInputStream (path : Bytes) : FileProgram (Option Bytes) :=
  match Store.parsePath path with
  | none => return none
  | some (bucket, set, stream) => openInputStream root bucket set stream

/-- `WriteEnvelope` with the current time, on a store with some streams open: what it
does, and the streams that are open then. -/
def writeEnvelope (bucket set : Bytes) (opened : List Bytes) :
    FileProgram (WriteResult × List Bytes) := do
  let time ← askFile .gettimeofday
  match Store.streamNameForTime (unixMicroTimeToZippyTime time) 3600 with
  | .error _ => return (.threw, opened)
  | .ok stream =>
    let storePath := Store.streamPath bucket set stream
    if opened.any fun path => path = storePath then return (.written, opened)
    else
      match ← createOutputStream root bucket set stream with
      | .written => return (.written, storePath :: opened)
      | result => return (result, opened)

/-! ## `RequestProcessor` -/

/-- `require && !exists`. -/
def requireExists (require : Bool) (pathExists : FileProgram Bool) : FileProgram Bool :=
  if require then pathExists else return true

/-- `CheckPath`. -/
def checkPath (path : Bytes) (requireBucket requireSet requireStream : Bool) :
    FileProgram Bool :=
  match Store.parsePath path with
  | none => return false
  | some (bucket, set, stream) =>
    if requireBucket && bucket.isEmpty || requireSet && set.isEmpty ||
        requireStream && stream.isEmpty then
      return false
    else do
      if ← requireExists requireBucket (bucketExists root bucket) then
        if ← requireExists requireSet (streamSetExists root bucket set) then
          requireExists requireStream (streamExists root bucket set stream)
        else return false
      else return false

/-- What a handler does with the parts of a path that is checked. -/
def withPath (path : Bytes) (requireSet requireStream : Bool)
    (f : Bytes → Bytes → Bytes → FileProgram Unit) : FileProgram Unit := do
  if ← checkPath root path true requireSet requireStream then
    match Store.parsePath path with
    | none => return ()
    | some (bucket, set, stream) => f bucket set stream
  else return ()

/-- `ProcessStoreInfo`. -/
def processStoreInfo : FileProgram Unit := do
  let _ ← storeInfo root

/-- `ProcessBucketInfo`. -/
def processBucketInfo (path : Bytes) : FileProgram Unit :=
  withPath root path false false fun bucket _ _ => do
    let _ ← bucketInfo root bucket

/-- `ProcessStreamSetInfo`. -/
def processStreamSetInfo (path : Bytes) : FileProgram Unit :=
  withPath root path true false fun bucket set _ => do
    let _ ← streamsetInfo root bucket set

/-- `ProcessStreamInfo`. -/
def processStreamInfo (path : Bytes) : FileProgram Unit :=
  withPath root path true true fun bucket set stream => do
    let _ ← streamInfo root bucket set stream

/-- `ProcessGetStream`. -/
def processGetStream (path : Bytes) : FileProgram Unit :=
  withPath root path true true fun _ _ _ => do
    let _ ← getInputStream root path

/-- `ProcessWriteEnvelope`: the path of a stream is not looked at. -/
def processWriteEnvelope (path : Bytes) : FileProgram Unit :=
  match Store.parsePath path with
  | none => return ()
  | some (_, set, stream) =>
    if stream.isEmpty && !set.isEmpty then do
      let _ ← checkPath root path true true false
    else return ()

/-- The switch of `ProcessRequest`, by type: no other routine comes to the store. -/
def dispatchType (type : MessageType) (request : Envelope) : FileProgram Unit :=
  match type, request.getMessage 0 with
  | .getStoreInfoV1, some _ => processStoreInfo root
  | .getBucketInfoV1, some (.getBucketInfoV1 path) => processBucketInfo root path
  | .getStreamSetInfoV1, some (.getStreamSetInfoV1 path) => processStreamSetInfo root path
  | .getStreamInfoV1, some (.getStreamInfoV1 path) => processStreamInfo root path
  | .getStreamSegmentV1, some (.getStreamSegmentV1 get) => processGetStream root get.path
  | .writeEnvelopeV1, some (.writeEnvelopeV1 m) => processWriteEnvelope root m.path
  | _, _ => return ()

/-- `ProcessRequest`. -/
def processRequest (request : Envelope) : FileProgram Unit :=
  if request.messageCount < 1 then return ()
  else match request.messageNamespace, request.messageType with
    | ns :: _, requestType :: _ =>
      if ns ≠ messageNamespace then return ()
      else match MessageType.ofEnumeration? requestType with
        | some type => dispatchType root type request
        | none => return ()
    | _, _ => return ()

/-- `ProcessMessages`. -/
def processMessages (messages : List Bytes) : FileProgram Unit :=
  match messages with
  | (1 :: data) :: _ =>
    if data.isEmpty then return ()
    else match Envelope.ofZmqMessage (1 :: data) 1 with
      | .error _ => return ()
      | .ok request => processRequest root request
  | _ => return ()

/-! ## `StoreWriter` -/

/-- The write loop of `ReceiveAndWrite`. -/
def writeAll (bucket set : Bytes) : List Bytes → List Bytes → FileProgram (List Bytes)
  | [], opened => return opened
  | _ :: payloads, opened => do
    match ← writeEnvelope root bucket set opened with
    | (.written, opened) => writeAll bucket set payloads opened
    | (_, opened) => return opened

/-- `ReceiveAndWrite`, with what is in the memory behind the path. -/
def receiveAndWrite (memory : Bytes) (messages : List Bytes) (opened : List Bytes) :
    FileProgram (List Bytes) :=
  match StoreWriter.target memory messages with
  | none => return opened
  | some (bucket, set, payloads) => writeAll root bucket set payloads opened

/-! ## Runs -/

/-- What comes from the network. -/
inductive Received where
  | request (messages : List Bytes)
  | write (memory : Bytes) (messages : List Bytes)

/-- The file accesses for what is received, with the streams the writer has open. -/
def serve : List Received → List Bytes → FileProgram Unit
  | [], _ => return ()
  | .request messages :: rest, opened => do
    processMessages root messages
    serve rest opened
  | .write memory messages :: rest, opened => do
    let opened ← receiveAndWrite root memory messages opened
    serve rest opened

end

end StoreAccess

end Zippylog
