import Zippylog.LoadString

/-!
# String loaders

`StringLoader`: lines of a stream are made into envelopes, with Lua or without, and written to a
store and a stream. A loader is a device whose `Pump` reads one line; it is run until its semaphore
is reset, so it does not end with the stream.

- `WriteEnvelope` of the store and `ToString` of envelopes return: a store has the calls that
  were made, and what an envelope is printed as is any text.
- A run is given by the rounds of its loop, for as long as the semaphore is set.
- `loads_iff`: without Lua the store gets the lines of a text, and nothing else, exactly when
  there is a round for every line and no other. What `getline` says is not looked at, so a round
  behind the last line has an empty one.
-/

universe u

namespace Zippylog

open Wire Lua

/-- `Envelope(string)`. -/
def Envelope.ofString (now : UInt64) (s : Bytes) : Envelope :=
  { Envelope.new now with stringValue := some s }

/-! ## Input streams -/

/-- A `std::istream`: what was not read yet, `eofbit` and `failbit`. -/
structure IStream where
  rest : Bytes
  eof : Bool := false
  fail : Bool := false
  deriving DecidableEq

/-- `\n`. -/
def newline : UInt8 := 10

/-- `std::getline`. Nothing is read from a stream that is not good. The end sets `eofbit`, and
`failbit` too if there was nothing before it. -/
def IStream.getline (s : IStream) : Bytes × IStream :=
  if s.eof || s.fail then ([], { s with fail := true })
  else
    let line := s.rest.takeWhile (· ≠ newline)
    match s.rest.dropWhile (· ≠ newline) with
    | [] => (line, { rest := [], eof := true, fail := line.isEmpty })
    | _ :: rest => (line, { s with rest })

/-! ## Loaders -/

/-- `StringLoaderProcessingResult`. -/
structure StringLoaderProcessingResult where
  success : Bool := false
  error : Bytes := []
  envelopes : List Envelope := []
  hasBucket : Bool := false
  hasSet : Bool := false
  bucket : Bytes := []
  set : Bytes := []

/-- `WriteEnvelope` of a store. -/
structure EnvelopeWrite where
  bucket : Bytes
  set : Bytes
  envelope : Envelope

/-- `StringLoader`. The streams and the store can be `NULL`. -/
structure StringLoader (γ : Type u) where
  instream : Option IStream
  outstream : Option Bytes
  lua : OpenLua γ
  haveLuaStringLoader : Bool
  defaultBucket : Bytes
  defaultSet : Bytes
  store : Option (List EnvelopeWrite)

namespace StringLoader

variable {γ : Type u} (api : Api γ) (toString : Envelope → Bytes)

/-- The bucket and the stream set that Lua returned. -/
def withTable (result : StringLoaderProcessingResult) (lsresult : LoadStringResult) :
    StringLoaderProcessingResult :=
  let result :=
    if lsresult.hasBucket then { result with hasBucket := true, bucket := lsresult.bucket }
    else result
  if lsresult.hasSet then { result with hasSet := true, set := lsresult.set } else result

/-- `ProcessString` behind a call of Lua. The `i`-th envelope is created at `now i`. -/
def processLoadString (now : Nat → UInt64) (s : Bytes) (lsresult : LoadStringResult) :
    Except Fault StringLoaderProcessingResult :=
  if !lsresult.executionSuccess then
    .ok { error := str "Lua error: " ++ lsresult.luaError }
  else match lsresult.returnType with
    | some .nil | some .boolTrue =>
      .ok { withTable { envelopes := [.ofString (now 0) s] } lsresult with success := true }
    | some .boolFalse => .ok { success := true }
    | some .string =>
      let envelopes := lsresult.strings.mapIdx fun i s => .ofString (now i) s
      .ok { withTable { envelopes } lsresult with success := true }
    | some .invalid => .ok { error := str "invalid signature from Lua function" }
    | some .message | some .envelope =>
      .error (.exception (.generic "message and envelope returns from Lua not currently implemented"))
    | none =>
      .error (.exception (.generic "unhandled return type from LuaState.ExecuteLoadString()"))

/-- `ProcessString`. -/
def processString (now : Nat → UInt64) (l : StringLoader γ) (s : Bytes) :
    Except Fault (StringLoaderProcessingResult × StringLoader γ) :=
  if l.haveLuaStringLoader then
    match l.lua.executeLoadString api s {} with
    | .error fault => .error fault
    | .ok ((false, _), lua) =>
      .ok ({ error := str "Lua load string function did not execute" }, { l with lua })
    | .ok ((true, lsresult), lua) =>
      match processLoadString now s lsresult with
      | .error fault => .error fault
      | .ok result => .ok (result, { l with lua })
  else .ok ({ success := true, envelopes := [.ofString (now 0) s] }, l)

/-- `ReadLineAndProcess`. -/
def readLineAndProcess (now : Nat → UInt64) (l : StringLoader γ) :
    Except Fault (StringLoaderProcessingResult × StringLoader γ) :=
  match l.instream with
  | none =>
    .error (.exception (.generic "cannot receive line since no input stream is defined"))
  | some instream =>
    if instream.fail then .ok ({ success := false, error := str "input stream is closed" }, l)
    else
      let (line, instream) := instream.getline
      { l with instream := some instream }.processString api now line

/-- `SendResult`. -/
def sendResult (l : StringLoader γ) (result : StringLoaderProcessingResult) :
    Except Fault (StringLoader γ) :=
  if !result.success then
    .error (.exception (.invalidArgument "cannot send unsuccessful results"))
  else
    let bucket := if result.hasBucket then result.bucket else l.defaultBucket
    let set := if result.hasSet then result.set else l.defaultSet
    .ok { l with
      outstream := l.outstream.map (· ++ result.envelopes.flatMap toString)
      store := l.store.map (· ++ result.envelopes.map (⟨bucket, set, ·⟩)) }

/-- A round of `Run`. -/
def round (now : Nat → UInt64) (l : StringLoader γ) : Except Fault (StringLoader γ) :=
  match l.readLineAndProcess api now with
  | .error fault => .error fault
  | .ok (result, l) => if result.success then l.sendResult toString result else .ok l

/-- The loop, with the times of the envelopes of each round. -/
def rounds : List (Nat → UInt64) → StringLoader γ → Except Fault (StringLoader γ)
  | [], l => .ok l
  | now :: nows, l =>
    match l.round api toString now with
    | .error fault => .error fault
    | .ok l => rounds nows l

/-- `Run`: without a semaphore a pointer is thrown. -/
def run (active : Option (List (Nat → UInt64))) (l : StringLoader γ) :
    Except Fault (StringLoader γ) :=
  match active with
  | none => .error (.exception (.generic
      "StringLoader cannot be executed because no active semaphore defined"))
  | some nows => l.rounds api toString nows

/-! ## Lines -/

/-- The lines of a text. The last one may be unterminated. -/
def lines : Bytes → List Bytes
  | [] => []
  | c :: text =>
    if c = newline then [] :: lines text
    else match lines text with
      | [] => [[c]]
      | line :: rest => (c :: line) :: rest

example : lines (str "a\n\nb") = [str "a", [], str "b"] := by decide +kernel

theorem lines_eq {text : Bytes} (h : text ≠ []) :
    lines text = text.takeWhile (· ≠ newline) ::
      match text.dropWhile (· ≠ newline) with
      | [] => []
      | _ :: rest => lines rest := by
  induction text with
  | nil => exact absurd rfl h
  | cons c text ih =>
    rw [lines]
    by_cases hc : c = newline
    · rw [if_pos hc, List.takeWhile_cons_of_neg (by simpa using hc),
        List.dropWhile_cons_of_neg (by simpa using hc)]
    · rw [if_neg hc, List.takeWhile_cons_of_pos (by simpa using hc),
        List.dropWhile_cons_of_pos (by simpa using hc)]
      cases text with
      | nil => rfl
      | cons c' text => rw [ih (List.cons_ne_nil _ _)]

/-! ## Reading lines -/

section Stream

variable {s : IStream} {line : Bytes} {ls : List Bytes}

/-- The lines that a stream has yet. The end may have been seen. -/
def Pending (s : IStream) (ls : List Bytes) : Prop :=
  s.fail = false ∧ ((s.eof = false ∧ lines s.rest = ls) ∨ (s.eof = true ∧ s.rest = [] ∧ ls = []))

theorem Pending.rest_eq_nil (h : Pending s []) : s.rest = [] := by
  obtain ⟨-, ⟨-, hlines⟩ | ⟨-, hrest, -⟩⟩ := h
  · by_contra hne
    rw [lines_eq hne] at hlines
    cases hlines
  · exact hrest

/-- A line is read. -/
theorem Pending.getline (h : Pending s (line :: ls)) :
    s.getline.1 = line ∧ Pending s.getline.2 ls := by
  obtain ⟨hfail, ⟨heof, hlines⟩ | ⟨-, -, hnil⟩⟩ := h
  · have hne : s.rest ≠ [] := by
      intro hrest
      rw [hrest] at hlines
      cases hlines
    rw [lines_eq hne] at hlines
    obtain ⟨hline, hmore⟩ := List.cons.inj hlines
    rw [IStream.getline, hfail, heof, Bool.or_self, if_neg Bool.false_ne_true]
    dsimp only
    cases hdrop : s.rest.dropWhile (· ≠ newline) with
    | nil =>
      -- an unterminated line is not empty
      have hwhole := List.takeWhile_append_dropWhile (p := (· ≠ newline)) (l := s.rest)
      rw [hdrop, List.append_nil] at hwhole
      rw [hdrop] at hmore
      refine ⟨hline, ?_, Or.inr ⟨rfl, rfl, hmore.symm⟩⟩
      dsimp only
      rw [hwhole, List.isEmpty_eq_false_iff]
      exact hne
    | cons c rest =>
      rw [hdrop] at hmore
      exact ⟨hline, rfl, Or.inl ⟨rfl, hmore⟩⟩
  · cases hnil

/-- At the end an empty line is read, and the stream is closed by that. -/
theorem Pending.getline_nil (h : Pending s []) :
    s.getline.1 = [] ∧ s.getline.2.fail = true := by
  have hrest := h.rest_eq_nil
  obtain ⟨hfail, ⟨heof, -⟩ | ⟨heof, -, -⟩⟩ := h
  · rw [IStream.getline, hfail, heof, hrest]
    exact ⟨rfl, rfl⟩
  · rw [IStream.getline, heof]
    exact ⟨rfl, rfl⟩

end Stream

/-! ## Rounds without Lua -/

section Rounds

variable {γ : Type u} {api : Api γ} {toString : Envelope → Bytes} {l : StringLoader γ}
  {s : IStream} {writes : List EnvelopeWrite} {ls : List Bytes}

/-- What is written for a line. -/
def lineWrite (l : StringLoader γ) (now : Nat → UInt64) (s : IStream) : EnvelopeWrite :=
  ⟨l.defaultBucket, l.defaultSet, .ofString (now 0) s.getline.1⟩

/-- The loader when a line was read and sent. -/
def afterLine (toString : Envelope → Bytes) (l : StringLoader γ) (now : Nat → UInt64)
    (s : IStream) : StringLoader γ :=
  { l with
    instream := some s.getline.2
    outstream := l.outstream.map (· ++ toString (.ofString (now 0) s.getline.1))
    store := l.store.map (· ++ [l.lineWrite now s]) }

/-- **A round** sends the line that is read, at the end an empty one. -/
theorem round_eq (now : Nat → UInt64) (hlua : l.haveLuaStringLoader = false)
    (hin : l.instream = some s) (hfail : s.fail = false) :
    l.round api toString now = .ok (l.afterLine toString now s) := by
  have hprocess : ({ l with instream := some s.getline.2 } : StringLoader γ).processString api now
      s.getline.1 = .ok ({ success := true, envelopes := [.ofString (now 0) s.getline.1] },
        { l with instream := some s.getline.2 }) := by
    rw [processString]
    dsimp only
    rw [hlua, if_neg Bool.false_ne_true]
  rw [round, readLineAndProcess, hin]
  dsimp only
  rw [hfail, if_neg Bool.false_ne_true, hprocess]
  simp [sendResult, afterLine, lineWrite]

/-- Nothing is done once the stream is closed. -/
theorem rounds_closed (nows : List (Nat → UInt64)) (hin : l.instream = some s)
    (hfail : s.fail = true) : l.rounds api toString nows = .ok l := by
  induction nows with
  | nil => rfl
  | cons now nows ih =>
    rw [rounds, round, readLineAndProcess, hin]
    dsimp only
    rw [hfail, if_pos rfl]
    exact ih

/-- **A run** writes the lines one by one, and an empty one behind the last. -/
theorem rounds_eq (nows : List (Nat → UInt64)) :
    ∀ {l : StringLoader γ} {s : IStream} {writes : List EnvelopeWrite} {ls : List Bytes},
      l.haveLuaStringLoader = false → l.instream = some s → Pending s ls →
      l.store = some writes →
      ∃ l' s' writes', l.rounds api toString nows = .ok l' ∧ l'.instream = some s' ∧
        l'.store = some (writes ++ writes') ∧
        writes'.map (·.envelope.stringValue) = ((ls ++ [[]]).take nows.length).map some ∧
        (nows.length = ls.length → s'.rest = []) := by
  induction nows with
  | nil =>
    intro l s writes ls _ hin hpending hstore
    refine ⟨l, s, [], rfl, hin, by rw [hstore, List.append_nil], rfl, fun h => ?_⟩
    obtain rfl := List.length_eq_zero_iff.mp h.symm
    exact hpending.rest_eq_nil
  | cons now nows ih =>
    intro l s writes ls hlua hin hpending hstore
    rw [rounds, round_eq now hlua hin hpending.1]
    have hstore' : (l.afterLine toString now s).store = some (writes ++ [l.lineWrite now s]) := by
      rw [afterLine, hstore]
      rfl
    cases ls with
    | nil =>
      obtain ⟨hline, hclosed⟩ := hpending.getline_nil
      dsimp only
      rw [rounds_closed nows rfl hclosed]
      refine ⟨_, _, [l.lineWrite now s], rfl, rfl, hstore', ?_, fun h => by cases h⟩
      rw [List.map_singleton, lineWrite, hline, List.nil_append, List.length_cons,
        List.take_succ_cons, List.take_nil]
      rfl
    | cons line ls =>
      obtain ⟨hline, hrest⟩ := hpending.getline
      obtain ⟨l', s', writes', hrounds, hin', hwritten, hwrites, hread⟩ :=
        @ih (l.afterLine toString now s) _ _ ls hlua rfl hrest hstore'
      refine ⟨l', s', l.lineWrite now s :: writes', hrounds, hin', ?_, ?_, fun h => ?_⟩
      · rw [hwritten, List.append_assoc]
        rfl
      · rw [List.map_cons, hwrites, List.length_cons, List.cons_append, List.take_succ_cons,
          List.map_cons, lineWrite, hline]
        rfl
      · exact hread (Nat.succ.inj h)

end Rounds

/-! ## Loading -/

/-- A loader without Lua that reads a text and writes to a store. -/
def reading {γ : Type u} (lua : OpenLua γ) (outstream : Option Bytes)
    (defaultBucket defaultSet text : Bytes) : StringLoader γ where
  instream := some { rest := text }
  outstream
  lua
  haveLuaStringLoader := false
  defaultBucket
  defaultSet
  store := some []

/-- The text was read, and the store has its lines. -/
def Loaded {γ : Type u} (l : StringLoader γ) (text : Bytes) : Prop :=
  (∃ s, l.instream = some s ∧ s.rest = []) ∧
    ∃ writes, l.store = some writes ∧
      writes.map (·.envelope.stringValue) = (lines text).map some

section Loading

variable {γ : Type u} (api : Api γ) (toString : Envelope → Bytes)

/-- **Line loading**: a run reads the text and writes one envelope for each line of it, in their
order, exactly when it has as many rounds as there are lines. The text is any, with an end of line
at its end or without, and the rounds are those that the loop makes until the semaphore is reset. -/
theorem loads_iff (lua : OpenLua γ) (outstream : Option Bytes)
    (defaultBucket defaultSet text : Bytes) (nows : List (Nat → UInt64)) :
    (∃ l, (reading lua outstream defaultBucket defaultSet text).run api toString (some nows) =
        .ok l ∧ Loaded l text) ↔ nows.length = (lines text).length := by
  obtain ⟨l, s, writes, hrounds, hin, hstore, hwrites, hread⟩ :=
    @rounds_eq γ api toString nows (reading lua outstream defaultBucket defaultSet text)
      { rest := text } [] (lines text) rfl rfl ⟨rfl, Or.inl ⟨rfl, rfl⟩⟩ rfl
  rw [run, hrounds]
  constructor
  · rintro ⟨l', hl, -, writes', hstore', hlines⟩
    cases hl
    rw [hstore] at hstore'
    cases hstore'
    rw [List.nil_append, hwrites] at hlines
    have hlength := congrArg List.length hlines
    rw [List.length_map, List.length_map, List.length_take, List.length_append,
      List.length_singleton] at hlength
    omega
  · intro hlength
    refine ⟨l, rfl, ⟨s, hin, hread hlength⟩, writes, hstore, ?_⟩
    rw [hwrites, hlength, List.take_left]

/-- The second round meets the end of the text, and sends an empty line. -/
theorem not_loads_end :
    ¬ ∃ l, (reading { lua := () } none (str "b") (str "s") (str "a\n")).run (returning [])
        (fun _ => []) (some [fun _ => 0, fun _ => 0]) = .ok l ∧ Loaded l (str "a\n") := by
  obtain ⟨l, s, writes, hrounds, -, hstore, hwrites, -⟩ :=
    @rounds_eq Unit (returning []) (fun _ => []) [fun _ => 0, fun _ => 0]
      (reading { lua := () } none (str "b") (str "s") (str "a\n"))
      { rest := str "a\n" } [] (lines (str "a\n")) rfl rfl ⟨rfl, Or.inl ⟨rfl, rfl⟩⟩ rfl
  rw [run, hrounds]
  rintro ⟨l', hl, -, writes', hstore', hlines⟩
  cases hl
  rw [hstore] at hstore'
  cases hstore'
  rw [List.nil_append, hwrites] at hlines
  exact absurd hlines (by decide +kernel)

end Loading

end StringLoader

end Zippylog
