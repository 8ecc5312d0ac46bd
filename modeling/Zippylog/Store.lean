import Zippylog.Store.Path
import Zippylog.StreamFile

/-!
# Stores

`Store` as its readers see it: the names in it and the files behind them, at one
moment. The virtual functions are the fields; the functions of the base class
are built on them. A request is answered from one such value, and the next one from another:
what writers do in between is in `SimpleDirectoryStore`.

- `bucketExists` and its siblings ask for names, or for a file;
- `storeInfo` and the functions it is made of go through the names, and give the streams their
  lengths;
- `getInputStream` opens a stream by its path, at the beginning. A path that does not parse gives no
  stream, a file that is not there an exception.
-/

namespace Zippylog

open Wire

/-- A store. `streamNames` has the names without the file extension, and `file`
the content of the stream file of that name. -/
structure Store where
  bucketNames : List Bytes
  streamSetNames (bucket : Bytes) : List Bytes
  streamNames (bucket set : Bytes) : List Bytes
  file (bucket set stream : Bytes) : Option Bytes

namespace Store

/-- `BucketExists`. -/
def bucketExists (store : Store) (bucket : Bytes) : Bool := bucket ∈ store.bucketNames

/-- `StreamSetExists`. -/
def streamSetExists (store : Store) (bucket set : Bytes) : Bool :=
  set ∈ store.streamSetNames bucket

/-- `StreamExists`. -/
def streamExists (store : Store) (bucket set stream : Bytes) : Bool :=
  (store.file bucket set stream).isSome

/-- `StreamLength` of a path made by `StreamPath`. -/
def streamLength (store : Store) (bucket set stream : Bytes) : Option UInt64 :=
  if validatePath (streamPath bucket set stream) then
    (store.file bucket set stream).map fun content => UInt64.ofNat content.length
  else none

/-- `StreamInfo`. -/
def streamInfo (store : Store) (bucket set stream : Bytes) : StreamInfoV1 :=
  { path := stream, length := store.streamLength bucket set stream }

/-- `StreamsetInfo`. -/
def streamsetInfo (store : Store) (bucket set : Bytes) : StreamSetInfoV1 :=
  { path := set, stream := (store.streamNames bucket set).map (store.streamInfo bucket set) }

/-- `BucketInfo`. -/
def bucketInfo (store : Store) (bucket : Bytes) : BucketInfoV1 :=
  { path := bucket, streamSet := (store.streamSetNames bucket).map (store.streamsetInfo bucket) }

/-- `StoreInfo`. -/
def storeInfo (store : Store) : StoreInfoV1 :=
  { bucket := store.bucketNames.map store.bucketInfo }

/-- `GetInputStream`: `none` is `NULL`. -/
def getInputStream (store : Store) (path : Bytes) : Option (Except Exn InputStream) :=
  (parsePath path).map fun (bucket, set, stream) =>
    InputStream.ofFile (store.file bucket set stream) 0

end Store

end Zippylog
