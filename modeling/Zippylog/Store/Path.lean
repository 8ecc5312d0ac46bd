import Zippylog.Envelope

/-!
# Store paths

The static functions of `Store` on paths: `/bucket`, `/bucket/set` and
`/bucket/set/stream`, the last with an optional `.zippylog`. They are the names by which clients,
servers and stores speak of what a store has, whatever kind of store it is.

- `ValidName`: what a component has to be: letters, digits, `-` and `_`, and at least one;
- `parsePath_streamPath`: a path made of valid names gives them back;
- `streamPath_injective`: different streams have different paths. This is what lets a store keep its
  open streams by their paths.
-/

namespace Zippylog

open Wire

/-- The character `/`. -/
def slash : UInt8 := 47

/-- The file extension of streams. -/
def extension : Bytes := str ".zippylog"

/-- The characters that store paths are made of, besides slashes. -/
def isNameChar (c : UInt8) : Bool :=
  (48 ≤ c && c ≤ 57) || (65 ≤ c && c ≤ 90) || (97 ≤ c && c ≤ 122) || c == 45 || c == 95

namespace Store

/-- The loop of `ValidatePath`: the previous character, and the number of slashes
so far. -/
def validatePathFrom (prev : UInt8) (seenPaths : Nat) : Bytes → Bool
  | [] => true
  | c :: cs =>
    if c = slash then
      -- two slashes in a row are not allowed
      if prev = slash then false
      else if 3 < seenPaths + 1 then false
      else validatePathFrom c (seenPaths + 1) cs
    else if isNameChar c then validatePathFrom c seenPaths cs
    else seenPaths = 3 && c = 46 && c :: cs = extension

/-- `ValidatePath`. -/
def validatePath : Bytes → Bool
  | [] => false
  | c :: cs => c = slash && validatePathFrom c 1 cs

/-- The pieces of a path between its slashes. -/
def splitSlash : Bytes → List Bytes
  | [] => [[]]
  | c :: cs =>
    if c = slash then [] :: splitSlash cs
    else match splitSlash cs with
      | [] => [[c]]
      | w :: ws => (c :: w) :: ws

/-- The stream name without the file extension. -/
def stripExtension (stream : Bytes) : Bytes :=
  if 9 < stream.length ∧ stream.drop (stream.length - 9) = extension then
    stream.take (stream.length - 9)
  else stream

/-- `ParsePath`: bucket, stream set and stream, empty where the path has none. -/
def parsePath (path : Bytes) : Option (Bytes × Bytes × Bytes) :=
  if validatePath path then
    match splitSlash (path.drop 1) with
    | [bucket] => some (bucket, [], [])
    | [bucket, set] => some (bucket, set, [])
    | [bucket, set, stream] => some (bucket, set, stripExtension stream)
    | _ => none
  else none

/-- `IsBucketPath`. -/
def isBucketPath (path : Bytes) : Bool :=
  match parsePath path with
  | none => false
  | some (bucket, set, stream) => !bucket.isEmpty && set.isEmpty && stream.isEmpty

/-- `IsStreamSetPath`. -/
def isStreamSetPath (path : Bytes) : Bool :=
  match parsePath path with
  | none => false
  | some (bucket, set, stream) => !bucket.isEmpty && !set.isEmpty && stream.isEmpty

/-- `IsStreamPath`. -/
def isStreamPath (path : Bytes) : Bool :=
  match parsePath path with
  | none => false
  | some (bucket, set, stream) => !bucket.isEmpty && !set.isEmpty && !stream.isEmpty

/-- `BucketPath`. -/
def bucketPath (bucket : Bytes) : Bytes := slash :: bucket

/-- `StreamsetPath`. -/
def streamsetPath (bucket set : Bytes) : Bytes := bucketPath bucket ++ [slash] ++ set

/-- `StreamPath`. -/
def streamPath (bucket set filename : Bytes) : Bytes :=
  streamsetPath bucket set ++ [slash] ++ filename

end Store

/-- A name that can be a component of a path: not empty, over `[A-Za-z0-9_-]`. -/
structure ValidName (name : Bytes) : Prop where
  ne_nil : name ≠ []
  chars : ∀ c ∈ name, isNameChar c = true

theorem validName_of_all {name : Bytes} (h0 : name ≠ []) (h : name.all isNameChar = true) :
    ValidName name :=
  ⟨h0, List.all_eq_true.mp h⟩

namespace Store

theorem slash_not_isNameChar : isNameChar slash = false := by decide

theorem ne_slash_of_isNameChar {c : UInt8} (h : isNameChar c = true) : c ≠ slash := by
  rintro rfl
  rw [slash_not_isNameChar] at h
  cases h

/-! ## Validation -/

/-- A run of name characters is passed over. -/
theorem validatePathFrom_append {name : Bytes} (h : ∀ c ∈ name, isNameChar c = true) :
    ∀ {prev : UInt8} {seen : Nat} {rest : Bytes},
      validatePathFrom prev seen (name ++ rest) =
        validatePathFrom (name.getLast?.getD prev) seen rest := by
  induction name with
  | nil =>
    intro prev seen rest
    rfl
  | cons c cs ih =>
    intro prev seen rest
    obtain ⟨hc, hcs⟩ := List.forall_mem_cons.mp h
    rw [List.cons_append, validatePathFrom, if_neg (ne_slash_of_isNameChar hc), if_pos hc, ih hcs,
      List.getLast?_cons]
    rfl

theorem getLastD_ne_slash {name : Bytes} (h : ValidName name) (prev : UInt8) :
    name.getLast?.getD prev ≠ slash := by
  rw [List.getLast?_eq_some_getLast h.ne_nil, Option.getD_some]
  exact ne_slash_of_isNameChar (h.chars _ (List.getLast_mem h.ne_nil))

/-- A component and the slash behind it are passed over. -/
theorem validatePathFrom_component {name : Bytes} (h : ValidName name) {prev : UInt8} {seen : Nat}
    (hseen : seen < 3) (rest : Bytes) :
    validatePathFrom prev seen (name ++ slash :: rest) = validatePathFrom slash (seen + 1) rest := by
  rw [validatePathFrom_append h.chars, validatePathFrom, if_pos rfl, if_neg (getLastD_ne_slash h _),
    if_neg (by omega)]

theorem validatePathFrom_name {name : Bytes} (h : ValidName name) (prev : UInt8) (seen : Nat) :
    validatePathFrom prev seen name = true := by
  calc validatePathFrom prev seen name
      = validatePathFrom prev seen (name ++ []) := by rw [List.append_nil]
    _ = true := by
      rw [validatePathFrom_append h.chars]
      rfl

/-! ## Splitting -/

theorem splitSlash_name {name : Bytes} (h : ∀ c ∈ name, c ≠ slash) : splitSlash name = [name] := by
  induction name with
  | nil => rfl
  | cons c cs ih =>
    obtain ⟨hc, hcs⟩ := List.forall_mem_cons.mp h
    rw [splitSlash, if_neg hc, ih hcs]

theorem splitSlash_ne_nil (bs : Bytes) : splitSlash bs ≠ [] := by
  cases bs with
  | nil => exact List.cons_ne_nil _ _
  | cons c cs =>
    rw [splitSlash]
    split_ifs
    · exact List.cons_ne_nil _ _
    · split
      · exact List.cons_ne_nil _ _
      · exact List.cons_ne_nil _ _

theorem splitSlash_append (bs rest : Bytes) :
    splitSlash (bs ++ slash :: rest) = splitSlash bs ++ splitSlash rest := by
  induction bs with
  | nil =>
    show splitSlash (slash :: rest) = [] :: splitSlash rest
    rw [splitSlash, if_pos rfl]
  | cons c bs ih =>
    rw [List.cons_append, splitSlash, splitSlash, ih]
    split_ifs
    · rfl
    · obtain ⟨w, ws, hsplit⟩ := List.exists_cons_of_ne_nil (splitSlash_ne_nil bs)
      rw [hsplit]
      rfl

/-- A name has no dot, so no file extension. -/
theorem stripExtension_name {name : Bytes} (h : ValidName name) : stripExtension name = name := by
  unfold stripExtension
  rw [if_neg]
  rintro ⟨hlen, hext⟩
  have hdot : (46 : UInt8) ∈ name.drop (name.length - 9) := by
    rw [hext]
    decide
  have := h.chars 46 (List.mem_of_mem_drop hdot)
  exact absurd this (by decide)

/-- The path of a stream with valid names parses to them. -/
theorem parsePath_streamPath {bucket set stream : Bytes} (hb : ValidName bucket)
    (hs : ValidName set) (hn : ValidName stream) :
    parsePath (streamPath bucket set stream) = some (bucket, set, stream) := by
  have hpath : streamPath bucket set stream =
      slash :: (bucket ++ slash :: (set ++ slash :: stream)) := by
    simp [streamPath, streamsetPath, bucketPath]
  have hvalid : validatePath (streamPath bucket set stream) = true := by
    rw [hpath, validatePath, validatePathFrom_component hb (by decide),
      validatePathFrom_component hs (by decide), validatePathFrom_name hn]
    rfl
  have hsplit : splitSlash ((streamPath bucket set stream).drop 1) = [bucket, set, stream] := by
    have hne : ∀ {name : Bytes}, ValidName name → ∀ c ∈ name, c ≠ slash :=
      fun h c hc => ne_slash_of_isNameChar (h.chars c hc)
    rw [hpath]
    show splitSlash (bucket ++ slash :: (set ++ slash :: stream)) = _
    rw [splitSlash_append, splitSlash_append, splitSlash_name (hne hb), splitSlash_name (hne hs),
      splitSlash_name (hne hn)]
    rfl
  rw [parsePath, if_pos hvalid, hsplit]
  show some (bucket, set, stripExtension stream) = _
  rw [stripExtension_name hn]

/-- Different streams have different paths. -/
theorem streamPath_injective {bucket set stream bucket' set' stream' : Bytes}
    (hb : ValidName bucket) (hs : ValidName set) (hn : ValidName stream)
    (hb' : ValidName bucket') (hs' : ValidName set') (hn' : ValidName stream')
    (h : streamPath bucket set stream = streamPath bucket' set' stream') :
    bucket = bucket' ∧ set = set' ∧ stream = stream' := by
  have h1 := parsePath_streamPath hb hs hn
  rw [h, parsePath_streamPath hb' hs' hn'] at h1
  cases h1
  exact ⟨rfl, rfl, rfl⟩

end Store

end Zippylog
