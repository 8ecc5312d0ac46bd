import Mathlib.Data.List.AList
import Zippylog.Calendar
import Zippylog.Store.Path

/-!
# The platform

What `platform.cpp` has of times and files, as far as a store writes with it.

- `UnixMicroTimeToZippyTime` goes through a time in seconds of 32 bits. Time zones, week days and
  the day of the year are left out: nothing reads them.
- A file system is the directories and files there are, by the names on the way to them
  (`resolve`). Nothing else uses it, and no permission is missing.
-/

namespace Zippylog

open Wire Calendar

namespace Platform

/-! ## Times -/

/-- `Time`. -/
structure Time where
  epochMicro : Int
  epochSec : Int
  usec : Int
  year : Nat
  mon : Nat
  mday : Nat
  hour : Nat
  min : Nat
  sec : Nat

/-- `(int32)n`. -/
def toInt32 (n : Int) : Int := n.bmod (2 ^ 32)

/-- `UnixMicroTimeToZippyTime`, with `gmtime` for the seconds of the epoch. -/
def unixMicroTimeToZippyTime (micro : Int) : Time :=
  let epochSec := toInt32 (micro.tdiv 1000000)
  let date := Date.ofDays (epochSec / 86400)
  let second := (epochSec % 86400).toNat
  { epochMicro := micro
    epochSec := epochSec
    usec := micro.tmod 1000000
    year := date.year
    mon := date.mon
    mday := date.mday
    hour := second / 3600
    min := second % 3600 / 60
    sec := second % 60 }

/-! ## Timers -/

/-- `Timer`, with the time in microseconds at which it was started. That it has
elapsed is not remembered: until the next start it stays so. -/
structure Timer where
  microseconds : UInt32
  started : Option Nat := none
  deriving DecidableEq

namespace Timer

/-- `Timer(microseconds)`. -/
def new (microseconds : UInt32) : Timer where
  microseconds := microseconds

/-- `Start`. -/
def start (timer : Timer) (now : Nat) (microseconds : UInt32) : Timer where
  microseconds := if 0 < microseconds then microseconds else timer.microseconds
  started := some now

/-- `Signaled`. -/
def signaled (timer : Timer) (now : Nat) : Bool :=
  match timer.started with
  | none => false
  | some started => started + timer.microseconds.toNat ≤ now

end Timer

/-! ## Files -/

/-- The names that a path goes through. -/
def resolve (path : Bytes) : List Bytes := (Store.splitSlash path).filter (· ≠ [])

structure FileSystem where
  directories : List (List Bytes)
  files : AList fun _ : List Bytes => Bytes

/-- `PathIsDirectory`. -/
def pathIsDirectory (fs : FileSystem) (path : Bytes) : Bool := resolve path ∈ fs.directories

/-- `MakeDirectory`: it fails without the directory above, and where there is
something already. -/
def makeDirectory (fs : FileSystem) (path : Bytes) : Bool × FileSystem :=
  let p := resolve path
  if p.dropLast ∈ fs.directories ∧ p ∉ fs.directories ∧ p ∉ fs.files then
    (true, { fs with directories := p :: fs.directories })
  else (false, fs)

/-- `File::Open` to create and append: the content, if the file is there. It fails
without a directory to create it in, and on a directory. -/
def openFile (fs : FileSystem) (path : Bytes) : Option (Option Bytes) :=
  let p := resolve path
  if p ∈ fs.directories then none
  else match fs.files.lookup p with
    | some content => some (some content)
    | none => if p.dropLast ∈ fs.directories then some none else none

end Platform

end Zippylog
