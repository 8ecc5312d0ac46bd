import Zippylog.Platform
import Zippylog.StreamFile

/-!
# Writing to a store

The output side of `Store` and `SimpleDirectoryStore`: an envelope is written to the stream of a
bucket and a stream set for the hour of its time. The directories of a stream and its file are made
when the stream is opened for the first time, and an open stream is kept in a map by its path.

- An open stream is the file it appends to and the buffer that is not yet in the
  file. Every operation on it is one of `FileOutputStream`, on the file as it is
  at that moment.
- A store is a file system and the streams that are open, and its calls are functions of these; the
  other stores of a process are in `ConcurrentStores`.
- The times of last writes are left out: nothing reads them.
-/

namespace Zippylog

open Wire Platform

/-- `OpenOutputStream`, with the file its `FileOutputStream` was opened on. -/
structure OpenOutputStream where
  file : List Bytes
  buffer : Bytes
  deriving DecidableEq

/-- `SimpleDirectoryStore`, and the file system it is on. -/
structure SimpleDirectoryStore where
  rootPath : Bytes
  fs : FileSystem
  outStreams : AList fun _ : Bytes => OpenOutputStream := ∅

namespace Store

/-- The character `-`. -/
def dash : UInt8 := 45

/-- `StreamNameForTime`. -/
def streamNameForTime (t : Time) (secondsPerFile : Int) : Except Exn Bytes :=
  let day := Calendar.padded 4 t.year ++ dash :: (Calendar.padded 2 t.mon ++
    dash :: Calendar.padded 2 t.mday)
  let hour := day ++ dash :: Calendar.padded 2 t.hour
  if secondsPerFile = 86400 then .ok day
  else if secondsPerFile = 3600 then .ok hour
  else if 3600 < secondsPerFile ∨ secondsPerFile < 4 then
    .error (.invalidArgument "seconds_per_file value not valid")
  else if 0 < 3600 % secondsPerFile then
    .error (.invalidArgument "seconds_per_file does not divide into 3600 evenly")
  else
    let current := (t.min * 60 + t.sec) / secondsPerFile.toNat + 1
    let seriesMax := 3600 / secondsPerFile.toNat
    .ok (hour ++ dash :: (Calendar.padded 3 current ++ dash :: Calendar.padded 3 seriesMax))

end Store

namespace SimpleDirectoryStore

/-- `PathToFilesystemPath`. -/
def pathToFilesystemPath (store : SimpleDirectoryStore) (path : Bytes) : Bytes :=
  store.rootPath ++ slash :: path

/-- `StreamFilesystemPath`. -/
def streamFilesystemPath (store : SimpleDirectoryStore) (path : Bytes) : Bytes :=
  store.pathToFilesystemPath path ++ extension

/-- `BucketExists`. -/
def bucketExists (store : SimpleDirectoryStore) (bucket : Bytes) : Bool :=
  pathIsDirectory store.fs (store.pathToFilesystemPath (Store.bucketPath bucket))

/-- `StreamSetExists`. -/
def streamSetExists (store : SimpleDirectoryStore) (bucket set : Bytes) : Bool :=
  pathIsDirectory store.fs (store.pathToFilesystemPath (Store.streamsetPath bucket set))

/-- `CreateBucket`. -/
def createBucket (store : SimpleDirectoryStore) (bucket : Bytes) : Bool × SimpleDirectoryStore :=
  let (made, fs) := makeDirectory store.fs (store.pathToFilesystemPath (Store.bucketPath bucket))
  (made, { store with fs := fs })

/-- `CreateStreamset`. -/
def createStreamset (store : SimpleDirectoryStore) (bucket set : Bytes) :
    Bool × SimpleDirectoryStore :=
  let (made, fs) :=
    makeDirectory store.fs (store.pathToFilesystemPath (Store.streamsetPath bucket set))
  (made, { store with fs := fs })

/-- What `FileOutputStream(path, true)` does to the file. -/
def openOutput (store : SimpleDirectoryStore) (path : Bytes) :
    Except Exn (OpenOutputStream × SimpleDirectoryStore) :=
  match openFile store.fs path with
  | none => .error (.generic "could not open file")
  | some content =>
    let s := FileOutputStream.ofFile content
    let file := resolve path
    .ok (⟨file, s.buffer⟩,
      { store with fs := { store.fs with files := store.fs.files.insert file s.file } })

/-- `CreateOutputStream`: `none` is `NULL`. -/
def createOutputStream (store : SimpleDirectoryStore) (bucket set stream : Bytes) :
    Except Exn (Option OpenOutputStream × SimpleDirectoryStore) :=
  let (ok, store) := if store.bucketExists bucket then (true, store) else store.createBucket bucket
  if ok = false then .ok (none, store)
  else
    let (ok, store) := if store.streamSetExists bucket set then (true, store)
      else store.createStreamset bucket set
    if ok = false then .ok (none, store)
    else (store.openOutput (store.streamFilesystemPath (Store.streamPath bucket set stream))).map
      fun (os, store) => (some os, store)

/-- `ObtainOutputStream`: the key in `out_streams` of the stream, unless there is
none. A negative time is that of the clock. -/
def obtainOutputStream (store : SimpleDirectoryStore) (bucket set : Bytes) (secondsPerFile : Int)
    (clock time : Int) : Except Exn (Option Bytes × SimpleDirectoryStore) :=
  let t := unixMicroTimeToZippyTime (if time < 0 then clock else time)
  match Store.streamNameForTime t secondsPerFile with
  | .error e => .error e
  | .ok stream =>
    let storePath := Store.streamPath bucket set stream
    if storePath ∈ store.outStreams then .ok (some storePath, store)
    else match store.createOutputStream bucket set stream with
      | .error e => .error e
      | .ok (none, store) => .ok (none, store)
      | .ok (some os, store) =>
        .ok (some storePath, { store with outStreams := store.outStreams.insert storePath os })

/-- An operation on the open stream of a path. -/
def onStream (store : SimpleDirectoryStore) (storePath : Bytes)
    (f : FileOutputStream → FileOutputStream) : SimpleDirectoryStore :=
  match store.outStreams.lookup storePath with
  | none => store
  | some os =>
    let s := f ⟨(store.fs.files.lookup os.file).getD [], os.buffer⟩
    { store with
      fs := { store.fs with files := store.fs.files.insert os.file s.file }
      outStreams := store.outStreams.insert storePath { os with buffer := s.buffer } }

/-- `WriteEnvelope`. -/
def writeEnvelope (store : SimpleDirectoryStore) (bucket set : Bytes) (e : Envelope)
    (clock time : Int) : Except Exn (Bool × SimpleDirectoryStore) :=
  match store.obtainOutputStream bucket set 3600 clock time with
  | .error e => .error e
  | .ok (none, store) => .ok (false, store)
  | .ok (some storePath, store) =>
    .ok (true, store.onStream storePath (FileOutputStream.writeEnvelope · e))

/-- `FlushOutputStreams`. -/
def flushOutputStreams (store : SimpleDirectoryStore) : SimpleDirectoryStore :=
  store.outStreams.keys.foldl (fun store path => store.onStream path FileOutputStream.flush) store

/-- The destructor closes the streams: what is left on the file system. Closing
writes the buffer out, as `Flush` does. -/
def destroy (store : SimpleDirectoryStore) : FileSystem := store.flushOutputStreams.fs

/-- What can happen to a store: calls, and the library writing out a part of a
buffer. -/
inductive Op where
  | writeEnvelope (bucket set : Bytes) (e : Envelope) (time : Int)
  | flushOutputStreams
  | spill (storePath : Bytes) (n : Nat)

/-- One operation, unless it throws or returns false. -/
def step (clock : Int) (store : SimpleDirectoryStore) : Op → Option SimpleDirectoryStore
  | .writeEnvelope bucket set e time =>
    match store.writeEnvelope bucket set e clock time with
    | .ok (true, store) => some store
    | _ => none
  | .flushOutputStreams => some store.flushOutputStreams
  | .spill storePath n => some (store.onStream storePath (FileOutputStream.spill · n))

/-- Operations one after the other. -/
def run (clock : Int) (store : SimpleDirectoryStore) : List Op → Option SimpleDirectoryStore
  | [] => some store
  | op :: ops => (store.step clock op).bind (run clock · ops)

end SimpleDirectoryStore

end Zippylog
