import Mathlib.Data.List.GetD
import Mathlib.Data.List.TakeWhile
import Mathlib.Tactic.SplitIfs
import Zippylog.Store.Path

/-!
# The loops of `ParsePath`

`ValidatePath` and `ParsePath` scan a path by position, with the slashes that were found so far and
the start of the component they are in. What they accept is said here of every string, also of those
with other characters, with too many components, and with a file extension in the wrong place.

- `validatePath_eq`, `parsePath_eq`: the scanners agree with the functions of `Store.Path`, which
  take a path apart at its slashes. The induction is on what is left of the path.
- `StorePath`: the paths of buckets, stream sets and streams as `store.hpp` describes them,
  made of valid names.
- `roundtrip`: such a path gives back the names that it was made of.
- `validatePath_iff`: what is accepted is such a path, `/`, or a bare file extension in a
  stream set.
- `sound_iff`: the last one is the only path that is parsed and is none of a store.
-/

namespace Zippylog

open Wire

namespace Store

/-- `substr(pos, n)`. -/
def substr (s : Bytes) (pos n : Nat) : Bytes := (s.drop pos).take n

/-- `find_first_of("/", off)`. -/
def findSlash (s : Bytes) (off : Nat) : Option Nat :=
  ((s.drop off).findIdx? (· == slash)).map (off + ·)

/-- What `ParsePath` writes to. -/
structure Components where
  bucket : Bytes
  set : Bytes
  stream : Bytes
  deriving DecidableEq

namespace PathParser

/-- The loop of `ValidatePath`. -/
def validatePathLoop (path : Bytes) (i seenPaths : Nat) : Bool :=
  if h : i < path.length then
    if path[i] = slash then
      -- two slashes in a row are not allowed
      if path.getD (i - 1) 0 = slash then false
      else if 3 < seenPaths + 1 then false
      else validatePathLoop path (i + 1) (seenPaths + 1)
    else if isNameChar path[i] then validatePathLoop path (i + 1) seenPaths
    else if seenPaths = 3 ∧ path[i] = 46 then substr path i (path.length - i) == extension
    else false
  else true
termination_by path.length - i

/-- `ValidatePath`. Behind the end of a string there is a zero. -/
def validatePath (path : Bytes) : Bool :=
  if path.getD 0 0 ≠ slash then false else validatePathLoop path 1 1

/-- The loop of `ParsePath`, with the rounds that are left. -/
def parsePathLoop (path : Bytes) : Nat → Nat → Nat → Nat → Components → Bool × Components
  | 0, _, _, _, out => (true, out)
  | rounds + 1, field, curr, off, out =>
    match findSlash path off with
    | none =>
      (true, match field with
        | 0 => { out with bucket := substr path 1 (path.length - 1) }
        | 1 => { out with set := substr path curr (path.length - curr) }
        | 2 => { out with stream := stripExtension (substr path curr (path.length - curr)) }
        | _ => out)
    | some off =>
      match field with
      | 0 =>
        parsePathLoop path rounds 1 (off + 1) (off + 1)
          { out with bucket := substr path 1 (off - 1) }
      | 1 =>
        parsePathLoop path rounds 2 (off + 1) (off + 1)
          { out with set := substr path curr (off - curr) }
      | 2 => (false, out)
      | field => parsePathLoop path rounds (field + 1) (off + 1) (off + 1) out

/-- `ParsePath`: what it returns, and the strings that it was given as it leaves them. -/
def parsePath (path : Bytes) (out : Components) : Bool × Components :=
  if !validatePath path then (false, out)
  else
    let out : Components := ⟨[], [], []⟩
    if path.length = 1 then (true, out)
    else parsePathLoop path 3 0 1 1 out

/-- `ParseBucketPath`. -/
def parseBucketPath (path bucket : Bytes) : Bool × Bytes :=
  match parsePath path ⟨bucket, [], []⟩ with
  | (false, out) => (false, out.bucket)
  | (true, out) => (0 < out.bucket.length, out.bucket)

/-- `ParseStreamSetPath`. -/
def parseStreamSetPath (path bucket set : Bytes) : Bool × Bytes × Bytes :=
  match parsePath path ⟨bucket, set, []⟩ with
  | (false, out) => (false, out.bucket, out.set)
  | (true, out) => (0 < out.bucket.length && 0 < out.set.length, out.bucket, out.set)

/-- `IsBucketPath`. -/
def isBucketPath (path : Bytes) : Bool :=
  match parsePath path ⟨[], [], []⟩ with
  | (false, _) => false
  | (true, out) => !out.bucket.isEmpty && out.set.isEmpty && out.stream.isEmpty

/-- `IsStreamSetPath`. -/
def isStreamSetPath (path : Bytes) : Bool :=
  match parsePath path ⟨[], [], []⟩ with
  | (false, _) => false
  | (true, out) => !out.bucket.isEmpty && !out.set.isEmpty && out.stream.isEmpty

/-- `IsStreamPath`. -/
def isStreamPath (path : Bytes) : Bool :=
  match parsePath path ⟨[], [], []⟩ with
  | (false, _) => false
  | (true, out) => !out.bucket.isEmpty && !out.set.isEmpty && !out.stream.isEmpty

/-! ## The loops and the functions on lists -/

/-- The loop by positions is the recursion over what is left of the path. The induction is on the
bytes behind the position. -/
theorem validatePathLoop_eq (path : Bytes) (i seenPaths : Nat) :
    validatePathLoop path (i + 1) seenPaths =
      validatePathFrom (path.getD i 0) seenPaths (path.drop (i + 1)) := by
  generalize hj : i + 1 = j
  fun_induction validatePathLoop path j seenPaths generalizing i with
  | case1 j seenPaths h hc hprev =>
    subst hj
    rw [List.drop_eq_getElem_cons h, validatePathFrom, if_pos hc]
    exact (if_pos hprev).symm
  | case2 j seenPaths h hc hprev hseen =>
    subst hj
    rw [List.drop_eq_getElem_cons h, validatePathFrom, if_pos hc, if_pos hseen]
    exact (if_neg hprev).symm
  | case3 j seenPaths h hc hprev hseen ih =>
    subst hj
    rw [ih _ rfl, List.drop_eq_getElem_cons h, validatePathFrom, if_pos hc, if_neg hseen,
      List.getD_eq_getElem _ _ h]
    exact (if_neg hprev).symm
  | case4 j seenPaths h hc hname ih =>
    subst hj
    rw [ih _ rfl, List.drop_eq_getElem_cons h, validatePathFrom, if_neg hc, if_pos hname,
      List.getD_eq_getElem _ _ h]
  | case5 j seenPaths h hc hname hdot =>
    subst hj
    have hsubstr : substr path (i + 1) (path.length - (i + 1)) = path.drop (i + 1) := by
      rw [substr, List.take_of_length_le (by rw [List.length_drop])]
    rw [hsubstr, List.drop_eq_getElem_cons h, validatePathFrom, if_neg hc, if_neg hname, hdot.1,
      hdot.2]
    by_cases hext : 46 :: path.drop (i + 1 + 1) = extension <;> simp [hext]
  | case6 j seenPaths h hc hname hdot =>
    subst hj
    rw [List.drop_eq_getElem_cons h, validatePathFrom, if_neg hc, if_neg hname]
    simp only [not_and] at hdot
    by_cases hseen : seenPaths = 3
    · simp [hdot hseen]
    · simp [hseen]
  | case7 j seenPaths h =>
    rw [List.drop_of_length_le (Nat.le_of_not_lt h)]
    rfl

/-- The scanner of `ValidatePath` accepts what the function on lists does. -/
theorem validatePath_eq (path : Bytes) : validatePath path = Store.validatePath path := by
  cases path with
  | nil => rfl
  | cons c cs =>
    have hloop := validatePathLoop_eq (c :: cs) 0 1
    rw [validatePath, Store.validatePath, hloop]
    show (if c ≠ slash then false else validatePathFrom c 1 cs) = _
    by_cases hc : c = slash
    · simp [hc]
    · simp [hc]

/-! ## Splitting -/

theorem findSlash_eq_none {path : Bytes} {off : Nat} (h : findSlash path off = none) :
    splitSlash (path.drop off) = [path.drop off] := by
  rw [findSlash, Option.map_eq_none_iff, List.findIdx?_eq_none_iff] at h
  exact splitSlash_name fun c hc heq => by simpa [heq] using h c hc

/-- A slash that is found ends the component that begins at the offset. -/
theorem findSlash_eq_some {path : Bytes} {off off' : Nat} (h : findSlash path off = some off') :
    splitSlash (path.drop off) =
      substr path off (off' - off) :: splitSlash (path.drop (off' + 1)) := by
  obtain ⟨n, hn, rfl⟩ := Option.map_eq_some_iff.mp h
  obtain ⟨hlt, hc, hbefore⟩ := List.findIdx?_eq_some_iff_getElem.mp hn
  have hname : ∀ c ∈ (path.drop off).take n, c ≠ slash := by
    intro c hmem heq
    obtain ⟨j, hj, rfl⟩ := List.getElem_of_mem hmem
    rw [List.length_take] at hj
    rw [List.getElem_take] at heq
    exact hbefore j (by omega) (beq_iff_eq.mpr heq)
  have hsplit : path.drop off =
      (path.drop off).take n ++ slash :: path.drop (off + n + 1) := by
    have hdrop : (path.drop off).drop n = slash :: path.drop (off + n + 1) := by
      rw [List.drop_eq_getElem_cons hlt, beq_iff_eq.mp hc, List.drop_drop, Nat.add_assoc]
    rw [← hdrop, List.take_append_drop]
  rw [substr, Nat.add_sub_cancel_left, hsplit, splitSlash_append, splitSlash_name hname, ← hsplit]
  rfl

theorem findSlash_of_split {path w : Bytes} {off : Nat}
    (h : splitSlash (path.drop off) = [w]) : findSlash path off = none ∧ path.drop off = w := by
  cases hfind : findSlash path off with
  | none =>
    rw [findSlash_eq_none hfind] at h
    exact ⟨rfl, (List.cons.inj h).1⟩
  | some off' =>
    rw [findSlash_eq_some hfind] at h
    exact absurd (List.cons.inj h).2 (splitSlash_ne_nil _)

/-- And where there is a component behind, a slash is found. -/
theorem findSlash_of_split_cons {path w v : Bytes} {ws : List Bytes} {off : Nat}
    (h : splitSlash (path.drop off) = w :: v :: ws) :
    ∃ off', findSlash path off = some off' ∧ substr path off (off' - off) = w ∧
      splitSlash (path.drop (off' + 1)) = v :: ws := by
  cases hfind : findSlash path off with
  | none =>
    rw [findSlash_eq_none hfind] at h
    cases h
  | some off' =>
    rw [findSlash_eq_some hfind] at h
    exact ⟨off', rfl, (List.cons.inj h).1, (List.cons.inj h).2⟩

theorem substr_length_sub (path : Bytes) (off : Nat) :
    substr path off (path.length - off) = path.drop off := by
  rw [substr, List.take_of_length_le (by rw [List.length_drop])]

section Split

variable {path bucket set stream : Bytes} (out : Components)

/-- One component is a bucket; the outputs for the others are cleared. -/
theorem parsePath_of_bucket (hvalid : validatePath path = true)
    (h : splitSlash (path.drop 1) = [bucket]) :
    parsePath path out = (true, ⟨bucket, [], []⟩) := by
  obtain ⟨hfind, hdrop⟩ := findSlash_of_split h
  rw [parsePath, hvalid]
  by_cases hlen : path.length = 1
  · rw [← hdrop, List.drop_of_length_le hlen.le]
    exact if_pos hlen
  · refine (if_neg hlen).trans ?_
    rw [parsePathLoop, hfind]
    dsimp only
    rw [substr_length_sub, hdrop]

theorem length_ne_one_of_split {w v : Bytes} {ws : List Bytes}
    (h : splitSlash (path.drop 1) = w :: v :: ws) : path.length ≠ 1 := by
  intro hlen
  rw [List.drop_of_length_le hlen.le] at h
  cases h

/-- Two components are a bucket and a stream set. -/
theorem parsePath_of_streamSet (hvalid : validatePath path = true)
    (h : splitSlash (path.drop 1) = [bucket, set]) :
    parsePath path out = (true, ⟨bucket, set, []⟩) := by
  have hlen := length_ne_one_of_split h
  obtain ⟨off, hfind, hbucket, h⟩ := findSlash_of_split_cons h
  obtain ⟨hfind', hset⟩ := findSlash_of_split h
  rw [parsePath, hvalid]
  refine (if_neg hlen).trans ?_
  rw [parsePathLoop, hfind]
  dsimp only
  rw [parsePathLoop, hfind']
  dsimp only
  rw [substr_length_sub, hbucket, hset]

/-- Three components are a stream, whose file extension is taken off. -/
theorem parsePath_of_stream (hvalid : validatePath path = true)
    (h : splitSlash (path.drop 1) = [bucket, set, stream]) :
    parsePath path out = (true, ⟨bucket, set, stripExtension stream⟩) := by
  have hlen := length_ne_one_of_split h
  obtain ⟨off, hfind, hbucket, h⟩ := findSlash_of_split_cons h
  obtain ⟨off', hfind', hset, h⟩ := findSlash_of_split_cons h
  obtain ⟨hfind'', hstream⟩ := findSlash_of_split h
  rw [parsePath, hvalid]
  refine (if_neg hlen).trans ?_
  rw [parsePathLoop, hfind]
  dsimp only
  rw [parsePathLoop, hfind']
  dsimp only
  rw [parsePathLoop, hfind'']
  dsimp only
  rw [substr_length_sub, hbucket, hset, hstream]

end Split

end PathParser

/-! ## Paths as they are described -/

/-- A component of a path. -/
abbrev Name := { name : Bytes // ValidName name }

/-- The path of a bucket or a stream set, with or without a slash behind it, or of a stream,
with or without the file extension. -/
inductive StorePath where
  | bucket (bucket : Name) (trailing : Bool)
  | streamSet (bucket set : Name) (trailing : Bool)
  | stream (bucket set stream : Name) (suffix : Bool)

namespace StorePath

def text : StorePath → Bytes
  | .bucket b trailing => bucketPath b ++ if trailing then [slash] else []
  | .streamSet b s trailing => streamsetPath b s ++ if trailing then [slash] else []
  | .stream b s n suffix => streamPath b s n ++ if suffix then extension else []

/-- What is between the slashes. -/
def pieces : StorePath → List Bytes
  | .bucket b false => [b]
  | .bucket b true => [b, []]
  | .streamSet b s false => [b, s]
  | .streamSet b s true => [b, s, []]
  | .stream b s n false => [b, s, n]
  | .stream b s n true => [b, s, n ++ extension]

def components : StorePath → Components
  | .bucket b _ => ⟨b, [], []⟩
  | .streamSet b s _ => ⟨b, s, []⟩
  | .stream b s n _ => ⟨b, s, n⟩

end StorePath

/-! ## What is accepted -/

/-- A component, and what may follow it. -/
theorem validatePathFrom_slash_iff {seenPaths : Nat} {bs : Bytes} :
    validatePathFrom slash seenPaths bs = true ↔
      ∃ name rest, bs = name ++ rest ∧ (∀ c ∈ name, isNameChar c = true) ∧
        (rest = [] ∨
          (ValidName name ∧ seenPaths < 3 ∧
            ∃ rest', rest = slash :: rest' ∧ validatePathFrom slash (seenPaths + 1) rest' = true) ∨
          seenPaths = 3 ∧ rest = extension) := by
  constructor
  · intro h
    have hsplit := List.takeWhile_append_dropWhile (p := isNameChar) (l := bs)
    have hname : ∀ c ∈ bs.takeWhile isNameChar, isNameChar c = true :=
      fun c hc => List.mem_takeWhile_imp hc
    rw [← hsplit, validatePathFrom_append hname] at h
    refine ⟨_, _, hsplit.symm, hname, ?_⟩
    cases hrest : bs.dropWhile isNameChar with
    | nil => exact .inl rfl
    | cons c rest =>
      have hc : ¬ isNameChar c = true := by
        have hne : bs.dropWhile isNameChar ≠ [] := by
          rw [hrest]
          nofun
        have hhead := List.head_dropWhile_not isNameChar hne
        simp only [hrest, List.head_cons] at hhead
        rw [hhead]
        nofun
      rw [hrest, validatePathFrom] at h
      split_ifs at h with hslash hprev hseen
      · subst hslash
        have hne : bs.takeWhile isNameChar ≠ [] := by
          intro hnil
          rw [hnil] at hprev
          exact hprev rfl
        exact .inr (.inl ⟨⟨hne, hname⟩, by omega, rest, rfl, h⟩)
      · simp only [Bool.and_eq_true, decide_eq_true_eq] at h
        exact .inr (.inr ⟨h.1.1, h.2⟩)
  · rintro ⟨name, rest, rfl, hname, rfl | ⟨hvalid, hseen, rest, rfl, hrest⟩ | ⟨rfl, rfl⟩⟩
    · rw [validatePathFrom_append hname]
      rfl
    · rwa [validatePathFrom_component hvalid hseen]
    · rw [validatePathFrom_append hname]
      rfl

/-- What is behind the second slash: the end, a stream set, or more. -/
theorem validatePathFrom_three_iff {bs : Bytes} :
    validatePathFrom slash 3 bs = true ↔
      ∃ name : Bytes, (∀ c ∈ name, isNameChar c = true) ∧ (bs = name ∨ bs = name ++ extension) := by
  rw [validatePathFrom_slash_iff]
  constructor
  · rintro ⟨name, rest, rfl, hname, rfl | ⟨-, hseen, -⟩ | ⟨-, rfl⟩⟩
    · exact ⟨name, hname, .inl (List.append_nil _)⟩
    · exact absurd hseen (Nat.lt_irrefl _)
    · exact ⟨name, hname, .inr rfl⟩
  · rintro ⟨name, hname, rfl | rfl⟩
    · exact ⟨bs, [], (List.append_nil _).symm, hname, .inl rfl⟩
    · exact ⟨name, extension, rfl, hname, .inr (.inr ⟨rfl, rfl⟩)⟩

theorem name_or_nil {name : Bytes} (h : ∀ c ∈ name, isNameChar c = true) :
    name = [] ∨ ∃ n : Name, n.val = name := by
  by_cases hne : name = []
  · exact .inl hne
  · exact .inr ⟨⟨name, hne, h⟩, rfl⟩

theorem validatePathFrom_three {bs : Bytes} (h : ∀ c ∈ bs, isNameChar c = true) (suffix : Bool) :
    validatePathFrom slash 3 (bs ++ if suffix then extension else []) = true := by
  cases suffix with
  | false => exact validatePathFrom_three_iff.mpr ⟨bs, h, .inl (List.append_nil _)⟩
  | true => exact validatePathFrom_three_iff.mpr ⟨bs, h, .inr rfl⟩

theorem streamsetPath_eq (b s : Bytes) : streamsetPath b s = slash :: (b ++ slash :: s) := by
  simp [streamsetPath, bucketPath]

theorem streamPath_eq (b s n : Bytes) :
    streamPath b s n = slash :: (b ++ slash :: (s ++ slash :: n)) := by
  simp [streamPath, streamsetPath, bucketPath]

theorem validatePath_slash (bs : Bytes) :
    validatePath (slash :: bs) = validatePathFrom slash 1 bs := rfl

/-- A path as described is accepted. -/
theorem validatePath_text (q : StorePath) : validatePath q.text = true := by
  cases q with
  | bucket b trailing =>
    cases trailing with
    | false =>
      rw [StorePath.text, if_neg Bool.false_ne_true, List.append_nil, bucketPath,
        validatePath_slash, validatePathFrom_name b.2]
    | true =>
      rw [StorePath.text, if_pos rfl, bucketPath, List.cons_append, validatePath_slash,
        validatePathFrom_component b.2 (by decide)]
      rfl
  | streamSet b s trailing =>
    cases trailing with
    | false =>
      rw [StorePath.text, if_neg Bool.false_ne_true, List.append_nil, streamsetPath_eq,
        validatePath_slash, validatePathFrom_component b.2 (by decide), validatePathFrom_name s.2]
    | true =>
      rw [StorePath.text, if_pos rfl, streamsetPath_eq, List.cons_append, List.append_assoc,
        List.cons_append, validatePath_slash, validatePathFrom_component b.2 (by decide),
        validatePathFrom_component s.2 (by decide)]
      rfl
  | stream b s n suffix =>
    have htext : (StorePath.stream b s n suffix).text = slash :: (b.val ++ slash ::
        (s.val ++ slash :: (n.val ++ if suffix then extension else []))) := by
      simp [StorePath.text, streamPath_eq]
    rw [htext, validatePath_slash, validatePathFrom_component b.2 (by decide),
      validatePathFrom_component s.2 (by decide), validatePathFrom_three n.2.chars]

/-- **What `ValidatePath` accepts**: a path as described, `/`, or a file extension without a
name. -/
theorem validatePath_iff (path : Bytes) :
    validatePath path = true ↔ path = [slash] ∨ (∃ q : StorePath, path = q.text) ∨
      ∃ b s : Name, path = streamPath b s extension := by
  constructor
  · intro h
    cases path with
    | nil => cases h
    | cons c cs =>
      rw [validatePath, Bool.and_eq_true, decide_eq_true_eq] at h
      obtain ⟨rfl, h⟩ := h
      obtain ⟨name, rest, rfl, hname, rfl | ⟨hb, -, rest, rfl, h₂⟩ | ⟨hseen, -⟩⟩ :=
        validatePathFrom_slash_iff.mp h
      · obtain rfl | ⟨b, rfl⟩ := name_or_nil hname
        · exact .inl rfl
        · exact .inr (.inl ⟨.bucket b false, rfl⟩)
      · -- a bucket, and what follows its slash
        obtain ⟨name', rest, rfl, hname', rfl | ⟨hs, -, rest, rfl, h₃⟩ | ⟨hseen, -⟩⟩ :=
          validatePathFrom_slash_iff.mp h₂
        · obtain rfl | ⟨s, rfl⟩ := name_or_nil hname'
          · exact .inr (.inl ⟨.bucket ⟨name, hb⟩ true, rfl⟩)
          · refine .inr (.inl ⟨.streamSet ⟨name, hb⟩ s false, ?_⟩)
            simp [StorePath.text, streamsetPath_eq]
        · -- a stream set, and what follows its slash
          obtain ⟨name'', hname'', rfl | rfl⟩ := validatePathFrom_three_iff.mp h₃
          · obtain rfl | ⟨n, rfl⟩ := name_or_nil hname''
            · refine .inr (.inl ⟨.streamSet ⟨name, hb⟩ ⟨name', hs⟩ true, ?_⟩)
              simp [StorePath.text, streamsetPath_eq]
            · refine .inr (.inl ⟨.stream ⟨name, hb⟩ ⟨name', hs⟩ n false, ?_⟩)
              simp [StorePath.text, streamPath_eq]
          · obtain rfl | ⟨n, rfl⟩ := name_or_nil hname''
            · refine .inr (.inr ⟨⟨name, hb⟩, ⟨name', hs⟩, ?_⟩)
              simp [streamPath_eq]
            · refine .inr (.inl ⟨.stream ⟨name, hb⟩ ⟨name', hs⟩ n true, ?_⟩)
              simp [StorePath.text, streamPath_eq]
        · cases hseen
      · cases hseen
  · rintro (rfl | ⟨q, rfl⟩ | ⟨b, s, rfl⟩)
    · rfl
    · exact validatePath_text q
    · rw [streamPath_eq, validatePath_slash, validatePathFrom_component b.2 (by decide),
        validatePathFrom_component s.2 (by decide)]
      rfl

/-! ## What is parsed -/

theorem ne_slash_of_mem {name : Name} {c : UInt8} (hc : c ∈ name.val) : c ≠ slash :=
  ne_slash_of_isNameChar (name.2.chars c hc)

theorem splitSlash_component (name : Name) (rest : Bytes) :
    splitSlash (name.val ++ slash :: rest) = name.val :: splitSlash rest := by
  rw [splitSlash_append, splitSlash_name fun _ hc => ne_slash_of_mem hc]
  rfl

/-- The file extension is taken off a name that has it, as a name has no dot of its own. -/
theorem stripExtension_append (name : Name) : stripExtension (name.val ++ extension) = name := by
  have hpos := List.length_pos_iff.mpr name.2.ne_nil
  have hlen : (name.val ++ extension).length - 9 = name.val.length := by
    rw [List.length_append]
    exact Nat.add_sub_cancel ..
  unfold stripExtension
  rw [hlen, if_pos, List.take_left]
  refine ⟨?_, List.drop_left⟩
  rw [List.length_append]
  exact Nat.lt_add_of_pos_left hpos

theorem splitSlash_streamPath (b s : Name) {tail : Bytes} (h : ∀ c ∈ tail, c ≠ slash) :
    splitSlash ((streamPath b s tail).drop 1) = [b.val, s.val, tail] := by
  rw [streamPath_eq]
  show splitSlash (b.val ++ slash :: (s.val ++ slash :: tail)) = _
  rw [splitSlash_component, splitSlash_component, splitSlash_name h]

/-- A path of a store is taken apart into the pieces that it was made of. -/
theorem splitSlash_text (q : StorePath) : splitSlash (q.text.drop 1) = q.pieces := by
  cases q with
  | bucket b trailing =>
    cases trailing with
    | false =>
      rw [StorePath.text, if_neg nofun, List.append_nil, bucketPath]
      exact splitSlash_name fun _ hc => ne_slash_of_mem hc
    | true => exact splitSlash_component b []
  | streamSet b s trailing =>
    cases trailing with
    | false =>
      rw [StorePath.text, if_neg nofun, List.append_nil, streamsetPath_eq]
      exact (splitSlash_component b _).trans
        (congrArg (b.val :: ·) (splitSlash_name fun _ hc => ne_slash_of_mem hc))
    | true =>
      rw [StorePath.text, if_pos rfl, streamsetPath_eq, List.cons_append, List.append_assoc,
        List.cons_append]
      exact (splitSlash_component b _).trans (congrArg (b.val :: ·) (splitSlash_component s []))
  | stream b s n suffix =>
    cases suffix with
    | false =>
      rw [StorePath.text, if_neg nofun, List.append_nil]
      exact splitSlash_streamPath b s fun _ hc => ne_slash_of_mem hc
    | true =>
      have htext : (StorePath.stream b s n true).text = streamPath b s (n.val ++ extension) := by
        simp [StorePath.text, streamPath_eq]
      rw [htext]
      refine splitSlash_streamPath b s fun c hc => ?_
      rcases List.mem_append.mp hc with hc | hc
      · exact ne_slash_of_mem hc
      · rintro rfl
        exact absurd hc (by decide)

namespace PathParser

theorem validatePath_text (q : StorePath) : validatePath q.text = true := by
  rw [validatePath_eq]
  exact (validatePath_iff _).mpr (.inr (.inl ⟨q, rfl⟩))

/-- A path as described gives back its components. -/
theorem parsePath_text (q : StorePath) (out : Components) :
    parsePath q.text out = (true, q.components) := by
  have hvalid := validatePath_text q
  have hsplit := splitSlash_text q
  cases q with
  | bucket b trailing =>
    cases trailing with
    | false => exact parsePath_of_bucket out hvalid hsplit
    | true => exact parsePath_of_streamSet out hvalid hsplit
  | streamSet b s trailing =>
    cases trailing with
    | false => exact parsePath_of_streamSet out hvalid hsplit
    | true => exact parsePath_of_stream out hvalid hsplit
  | stream b s n suffix =>
    cases suffix with
    | false =>
      rw [parsePath_of_stream out hvalid hsplit, stripExtension_name n.2]
      rfl
    | true =>
      rw [parsePath_of_stream out hvalid hsplit, stripExtension_append]
      rfl

theorem parsePath_slash (out : Components) : parsePath [slash] out = (true, ⟨[], [], []⟩) := by
  rw [parsePath, show validatePath [slash] = true by rw [validatePath_eq]; rfl]
  rfl

/-- A file extension is not stripped from nothing. -/
theorem parsePath_extension (b s : Name) (out : Components) :
    parsePath (streamPath b s extension) out = (true, ⟨b, s, extension⟩) := by
  have hvalid : validatePath (streamPath b s extension) = true := by
    rw [validatePath_eq]
    exact (validatePath_iff _).mpr (.inr (.inr ⟨b, s, rfl⟩))
  rw [parsePath_of_stream out hvalid (splitSlash_streamPath b s (by decide +kernel))]
  rfl

theorem parsePath_of_not_valid {path : Bytes} (h : validatePath path = false) (out : Components) :
    parsePath path out = (false, out) := by
  rw [parsePath, h]
  rfl

/-- The scanner of `ParsePath` returns what the function on lists does. -/
theorem parsePath_eq (path : Bytes) (out : Components) :
    Store.parsePath path =
      match parsePath path out with
      | (false, _) => none
      | (true, components) => some (components.bucket, components.set, components.stream) := by
  rw [Store.parsePath, ← validatePath_eq]
  cases hvalid : validatePath path with
  | false =>
    rw [parsePath_of_not_valid hvalid]
    rfl
  | true =>
    have hshape := (validatePath_iff path).mp (validatePath_eq path ▸ hvalid)
    rw [if_pos rfl]
    obtain rfl | ⟨q, rfl⟩ | ⟨b, s, rfl⟩ := hshape
    · rw [parsePath_slash]
      rfl
    · rw [parsePath_text, splitSlash_text]
      cases q with
      | bucket b trailing => cases trailing <;> rfl
      | streamSet b s trailing => cases trailing <;> rfl
      | stream b s n suffix =>
        cases suffix with
        | false => simp [StorePath.pieces, StorePath.components, stripExtension_name n.2]
        | true => simp [StorePath.pieces, StorePath.components, stripExtension_append]
    · rw [parsePath_extension, splitSlash_streamPath b s (by decide +kernel)]
      rfl

/-! ## The round trip -/

/-- The function that tells paths of this kind, and what it says of all kinds. -/
theorem isPath_text (q : StorePath) :
    [isBucketPath q.text, isStreamSetPath q.text, isStreamPath q.text] =
      match q with
      | .bucket _ _ => [true, false, false]
      | .streamSet _ _ _ => [false, true, false]
      | .stream _ _ _ _ => [false, false, true] := by
  rw [isBucketPath, isStreamSetPath, isStreamPath, parsePath_text]
  cases q with
  | bucket b trailing => simp [StorePath.components, b.2.ne_nil]
  | streamSet b s trailing => simp [StorePath.components, b.2.ne_nil, s.2.ne_nil]
  | stream b s n suffix => simp [StorePath.components, b.2.ne_nil, s.2.ne_nil, n.2.ne_nil]

/-- **Paths round-trip**: `ParsePath` accepts the path of a bucket, a stream set or a stream
and returns its components, exactly one of the tests holds for it, and the prefixes that it
has are returned. -/
theorem roundtrip (q : StorePath) (out : Components) :
    parsePath q.text out = (true, q.components) ∧
      [isBucketPath q.text, isStreamSetPath q.text, isStreamPath q.text].count true = 1 ∧
      parseBucketPath q.text out.bucket = (true, q.components.bucket) ∧
      parseStreamSetPath q.text out.bucket out.set =
        (!q.components.set.isEmpty, q.components.bucket, q.components.set) := by
  refine ⟨parsePath_text q out, ?_, ?_, ?_⟩
  · rw [isPath_text]
    cases q <;> rfl
  · rw [parseBucketPath, parsePath_text]
    cases q with
    | bucket b trailing => simp [StorePath.components, List.length_pos_iff, b.2.ne_nil]
    | streamSet b s trailing => simp [StorePath.components, List.length_pos_iff, b.2.ne_nil]
    | stream b s n suffix => simp [StorePath.components, List.length_pos_iff, b.2.ne_nil]
  · rw [parseStreamSetPath, parsePath_text]
    cases q with
    | bucket b trailing => simp [StorePath.components]
    | streamSet b s trailing =>
      simp [StorePath.components, List.length_pos_iff, b.2.ne_nil, s.2.ne_nil]
    | stream b s n suffix =>
      simp [StorePath.components, List.length_pos_iff, b.2.ne_nil, s.2.ne_nil]

/-! ## Soundness -/

/-- The paths that are described. -/
def Described (path : Bytes) : Prop := path = [slash] ∨ ∃ q : StorePath, path = q.text

/-- What is accepted is described and has valid names as components; what is refused leaves
the strings as they were. -/
def Sound (path : Bytes) (out : Components) : Prop :=
  match parsePath path out with
  | (true, components) => Described path ∧
      ∀ name ∈ [components.bucket, components.set, components.stream], name ≠ [] → ValidName name
  | (false, out') => out' = out

/-- **`ParsePath` is sound**: what it accepts is a path of a bucket, a stream set or a stream, made
of valid names, and what it returns are the names. This is so for every string but those with a bare
file extension in a stream set. -/
theorem sound_iff (path : Bytes) (out : Components) :
    Sound path out ↔ ¬ ∃ b s : Name, path = streamPath b s extension := by
  constructor
  · rintro h ⟨b, s, rfl⟩
    rw [Sound, parsePath_extension] at h
    have hext : ValidName extension :=
      h.2 extension (List.mem_cons_of_mem _ (List.mem_cons_of_mem _ List.mem_cons_self)) nofun
    exact absurd (hext.chars 46 (by decide)) (by decide)
  · intro h
    rw [Sound]
    cases hvalid : validatePath path with
    | false => rw [parsePath_of_not_valid hvalid]
    | true =>
      rw [validatePath_eq] at hvalid
      obtain rfl | ⟨q, rfl⟩ | hext := (validatePath_iff path).mp hvalid
      · rw [parsePath_slash]
        exact ⟨.inl rfl, by simp⟩
      · rw [parsePath_text]
        refine ⟨.inr ⟨q, rfl⟩, ?_⟩
        cases q with
        | bucket b trailing => simp [StorePath.components, b.2]
        | streamSet b s trailing => simp [StorePath.components, b.2, s.2]
        | stream b s n suffix => simp [StorePath.components, b.2, s.2, n.2]
      · exact absurd hext h

/-- `/b/s/.zippylog` is accepted. -/
theorem not_sound_extension : ¬ ∀ (path : Bytes) (out : Components), Sound path out := by
  intro h
  have hsound := h (str "/b/s/.zippylog") ⟨[], [], []⟩
  have hparse : parsePath (str "/b/s/.zippylog") ⟨[], [], []⟩ =
      (true, ⟨str "b", str "s", extension⟩) :=
    parsePath_extension ⟨str "b", by decide +kernel, by decide +kernel⟩
      ⟨str "s", by decide +kernel, by decide +kernel⟩ _
  rw [Sound, hparse] at hsound
  have hext : ValidName extension :=
    hsound.2 extension (List.mem_cons_of_mem _ (List.mem_cons_of_mem _ List.mem_cons_self)) nofun
  exact absurd (hext.chars 46 (by decide)) (by decide)

end PathParser

end Store

end Zippylog
