import Zippylog.Envelope

/-!
# Formatters

A message type can have a formatter, an option in its `.proto` file. `CustomPrintMessage` prints
a message with it: a `%` and a digit stand for the field of that number, everything else for itself.

- What protobuf knows of a type and prints of a field is a parameter.
- `atoi` is given the address of a single character: it reads on in the memory behind it.
- A number that is no field finds a `NULL` descriptor, which is used without a check.
- `formats_iff`: every message of a type is printed as its formatter says exactly when the
  formatter is not empty, every `%` but a last one has the number of a field behind it, and no
  digit is in the memory that `atoi` reads on in.
-/

namespace Zippylog

open Wire

namespace Formatter

/-- `%`. -/
def percent : UInt8 := 37

/-! ## `atoi` -/

/-- `isspace`. -/
def isSpace (c : UInt8) : Bool := c = 32 || (9 ≤ c && c ≤ 13)

/-- `isdigit`. -/
def isDigit (c : UInt8) : Bool := 48 ≤ c && c ≤ 57

/-- The digits in front, behind a number. -/
def digits (n : Nat) : Bytes → Nat
  | [] => n
  | c :: s => if isDigit c then digits (10 * n + (c.toNat - 48)) s else n

/-- The number in front: blanks, a sign and digits. -/
def number (s : Bytes) : Int :=
  match s.dropWhile isSpace with
  | [] => 0
  | c :: s =>
    if c = 45 then -digits 0 s
    else if c = 43 then digits 0 s
    else digits 0 (c :: s)

/-- `atoi`, of the bytes up to a zero. It is undefined for what is no `int`. -/
def atoi (s : Bytes) : Option Int :=
  if number s < -2 ^ 31 ∨ 2 ^ 31 ≤ number s then none else some (number s)

/-! ## Messages -/

/-- A message type: which fields it has, with `is_repeated`. Numbers of fields are positive. -/
structure MessageType where
  field : Nat → Option Bool
  field_zero : field 0 = none

/-- `FindFieldByNumber`: `none` is `NULL`. -/
def MessageType.findFieldByNumber (t : MessageType) (n : Int) : Option (Nat × Bool) :=
  if n < 0 then none else (t.field n.toNat).map (n.toNat, ·)

/-- A message: `FieldSize` of a field, and `PrintFieldValueToString` of its value at an index;
`none` is the index -1. -/
structure MessageText where
  fieldSize : Nat → Nat
  printFieldValueToString : Nat → Option Nat → Bytes

/-- The values of a field. -/
def MessageText.printField (m : MessageText) (n : Nat) (repeated : Bool) : Bytes :=
  if repeated then
    (List.range (m.fieldSize n)).flatMap fun fi => m.printFieldValueToString n (some fi)
  else m.printFieldValueToString n none

/-! ## `CustomPrintMessage` -/

section Print

variable (t : MessageType) (m : MessageText) (behind : Nat → Bytes)

/-- The loop from `i` on, behind what is printed. `behind i` is in memory behind the character
that is converted. Reading at the end gives a zero byte. -/
def printFrom (formatter : Bytes) (i : Nat) (s : Bytes) : Except Fault Bytes :=
  let length := formatter.length
  let c := formatter.getD i 0
  if c ≠ percent then
    if i + 1 < length then printFrom formatter (i + 1) (s ++ [c]) else .ok (s ++ [c])
  -- an empty formatter, for which the difference wraps, does not get here
  else if i ≥ length - 1 then
    if i + 1 < length then printFrom formatter (i + 1) (s ++ [c]) else .ok (s ++ [c])
  else
    let field := formatter.getD (i + 1) 0
    match (atoi (field :: behind i)).bind t.findFieldByNumber with
    | none => .error .undefinedBehavior
    | some (n, repeated) =>
      let s := s ++ m.printField n repeated
      if i + 2 < length then printFrom formatter (i + 2) s else .ok s
termination_by formatter.length - i

/-- `CustomPrintMessage`: whether there is a formatter, and what is printed behind `s`. -/
def customPrintMessage (formatter : Option Bytes) (s : Bytes) : Except Fault (Bool × Bytes) :=
  match formatter with
  | none => .ok (false, s)
  | some formatter =>
    match printFrom t m behind formatter 0 s with
    | .error fault => .error fault
    | .ok s => .ok (true, s ++ [10])

end Print

/-! ## Pieces of a formatter -/

/-- A character that is copied, or a field. -/
inductive Piece where
  | copy (c : UInt8)
  | field (n : Nat) (repeated : Bool)
  deriving DecidableEq

def Piece.print (m : MessageText) : Piece → Bytes
  | copy c => [c]
  | field n repeated => m.printField n repeated

def Piece.isField : Piece → Bool
  | copy _ => false
  | field _ _ => true

/-- The field whose number is a digit. -/
def MessageType.placeholder (t : MessageType) (c : UInt8) : Option (Nat × Bool) :=
  if isDigit c then (t.field (c.toNat - 48)).map (c.toNat - 48, ·) else none

/-- What a formatter is to print: a field for a `%` in front of its number, and all other
characters. -/
def wanted (t : MessageType) : Bytes → List Piece
  | [] => []
  | [c] => [.copy c]
  | c :: field :: rest =>
    match if c = percent then t.placeholder field else none with
    | some (n, repeated) => .field n repeated :: wanted t rest
    | none => .copy c :: wanted t (field :: rest)

/-- What is printed from `i` on, unless there is no field with a number. -/
def printed (t : MessageType) (behind : Nat → Bytes) : Nat → Bytes → Option (List Piece)
  | _, [] => some []
  | _, [c] => some [.copy c]
  | i, c :: field :: rest =>
    if c = percent then
      match (atoi (field :: behind i)).bind t.findFieldByNumber with
      | none => none
      | some (n, repeated) => (printed t behind (i + 2) rest).map (.field n repeated :: ·)
    else (printed t behind (i + 1) (field :: rest)).map (.copy c :: ·)

/-- Every `%` but a last one has the number of a field behind it, and `atoi` reads no further. -/
def placeholders (t : MessageType) (behind : Nat → Bytes) : Nat → Bytes → Bool
  | _, [] => true
  | _, [_] => true
  | i, c :: field :: rest =>
    if c = percent then
      (t.placeholder field).isSome && !((behind i).head?.any isDigit) &&
        placeholders t behind (i + 2) rest
    else placeholders t behind (i + 1) (field :: rest)

/-- Every message of a type is printed as its formatter says, in a line of its own. -/
def Formats (t : MessageType) (behind : Nat → Bytes) (formatter : Bytes) : Prop :=
  ∀ (m : MessageText) (s : Bytes),
    customPrintMessage t m behind (some formatter) s =
      .ok (true, s ++ (wanted t formatter).flatMap (Piece.print m) ++ [10])

/-! ## The loop -/

section Loop

variable {t : MessageType} {m : MessageText} {behind : Nat → Bytes} {formatter : Bytes}

theorem getD_of_drop_eq {i : Nat} {c : UInt8} {rest : Bytes} (h : formatter.drop i = c :: rest) :
    formatter.getD i 0 = c := by
  rw [List.getD_eq_getElem?_getD, ← Nat.add_zero i, ← List.getElem?_drop, h]
  rfl

theorem drop_succ_of_drop_eq {i : Nat} {c : UInt8} {rest : Bytes}
    (h : formatter.drop i = c :: rest) : formatter.drop (i + 1) = rest := by
  rw [← List.drop_drop, h]
  rfl

theorem length_of_drop_eq {i : Nat} {c : UInt8} {rest : Bytes} (h : formatter.drop i = c :: rest) :
    formatter.length = i + 1 + rest.length := by
  have hlen := congrArg List.length h
  rw [List.length_drop, List.length_cons] at hlen
  omega

/-- What the loop prints from a character on. -/
def Prints (t : MessageType) (m : MessageText) (behind : Nat → Bytes) (formatter : Bytes)
    (i : Nat) (rest s : Bytes) : Prop :=
  printFrom t m behind formatter i s =
    match printed t behind i rest with
    | none => .error .undefinedBehavior
    | some pieces => .ok (s ++ pieces.flatMap (Piece.print m))

/-- The loop goes on where there is a character. -/
theorem next_of_prints {i : Nat} {rest s : Bytes}
    (hlen : formatter.length = i + rest.length)
    (h : rest ≠ [] → Prints t m behind formatter i rest s) :
    (if i < formatter.length then printFrom t m behind formatter i s else .ok s) =
      match printed t behind i rest with
      | none => .error .undefinedBehavior
      | some pieces => .ok (s ++ pieces.flatMap (Piece.print m)) := by
  cases rest with
  | nil =>
    rw [if_neg (by rw [hlen]; exact Nat.lt_irrefl _)]
    exact congrArg Except.ok (List.append_nil s).symm
  | cons c rest =>
    rw [if_pos (by rw [hlen, List.length_cons]; omega)]
    exact h (List.cons_ne_nil _ _)

/-- **The loop**: a character is copied, or two make a field. -/
theorem prints : ∀ (rest : Bytes) (i : Nat) (s : Bytes), formatter.drop i = rest → rest ≠ [] →
    Prints t m behind formatter i rest s
  | [], _, _, _, hne => absurd rfl hne
  | [c], i, s, h, _ => by
    have hc := getD_of_drop_eq h
    have hlen := length_of_drop_eq h
    rw [List.length_nil] at hlen
    have hend : ¬ i + 1 < formatter.length := by omega
    rw [Prints, printFrom, hc]
    dsimp only
    by_cases hpercent : c = percent
    · rw [if_neg (not_not.mpr hpercent), if_pos (show i ≥ formatter.length - 1 by omega),
        if_neg hend]
      rfl
    · rw [if_pos hpercent, if_neg hend]
      rfl
  | c :: field :: rest, i, s, h, _ => by
    have hc := getD_of_drop_eq h
    have hdrop := drop_succ_of_drop_eq h
    have hfield := getD_of_drop_eq hdrop
    have hlen := length_of_drop_eq h
    have hlen' := length_of_drop_eq hdrop
    rw [Prints, printFrom, printed, hc, hfield]
    dsimp only
    by_cases hpercent : c = percent
    · rw [if_neg (not_not.mpr hpercent), if_neg (by omega), if_pos hpercent]
      cases (atoi (field :: behind i)).bind t.findFieldByNumber with
      | none => rfl
      | some found =>
        obtain ⟨n, repeated⟩ := found
        dsimp only
        rw [next_of_prints (by omega) (prints rest (i + 2) _ (drop_succ_of_drop_eq hdrop))]
        cases printed t behind (i + 2) rest with
        | none => rfl
        | some pieces => exact congrArg Except.ok (List.append_assoc _ _ _)
    · rw [if_pos hpercent, if_neg hpercent,
        next_of_prints (by rw [hlen]) (prints (field :: rest) (i + 1) _ hdrop)]
      cases printed t behind (i + 1) (field :: rest) with
      | none => rfl
      | some pieces => exact congrArg Except.ok (List.append_assoc _ _ _)

/-- `CustomPrintMessage` with a formatter that is not empty. -/
theorem customPrintMessage_eq (h : formatter ≠ []) (s : Bytes) :
    customPrintMessage t m behind (some formatter) s =
      match printed t behind 0 formatter with
      | none => .error .undefinedBehavior
      | some pieces => .ok (true, s ++ pieces.flatMap (Piece.print m) ++ [10]) := by
  have hprints : Prints t m behind formatter 0 formatter s := prints formatter 0 s rfl h
  rw [Prints] at hprints
  rw [customPrintMessage, hprints]
  cases printed t behind 0 formatter <;> rfl

end Loop

/-! ## Which number is read -/

section Number

variable {t : MessageType} {c : UInt8} {memory : Bytes}

theorem le_digits (s : Bytes) : ∀ n, n ≤ digits n s := by
  induction s with
  | nil => exact fun n => le_refl n
  | cons c s ih =>
    intro n
    rw [digits]
    split
    · exact le_trans (by omega) (ih _)
    · exact le_refl n

/-- The digits end where the memory has none. -/
theorem digits_of_no_digit (n : Nat) (h : memory.head?.any isDigit = false) :
    digits n memory = n := by
  cases memory with
  | nil => rfl
  | cons c memory =>
    rw [digits, if_neg]
    rw [show isDigit c = false from h]
    exact Bool.false_ne_true

theorem ten_mul_le_digits (n : Nat) (h : memory.head?.any isDigit = true) :
    10 * n ≤ digits n memory := by
  cases memory with
  | nil => cases h
  | cons c memory =>
    have hdigit : isDigit c = true := h
    rw [digits, if_pos hdigit]
    exact le_trans (Nat.le_add_right _ _) (le_digits _ _)

theorem isDigit_iff : isDigit c = true ↔ 48 ≤ c.toNat ∧ c.toNat ≤ 57 := by
  rw [isDigit, Bool.and_eq_true, decide_eq_true_iff, decide_eq_true_iff, UInt8.le_iff_toNat_le,
    UInt8.le_iff_toNat_le]
  rfl

/-- A digit is no blank and no sign. -/
theorem number_of_digit (memory : Bytes) (h : isDigit c = true) :
    number (c :: memory) = digits (c.toNat - 48) memory := by
  have hc := isDigit_iff.mp h
  have hspace : ¬ isSpace c = true := by
    intro hs
    simp only [isSpace, Bool.or_eq_true, Bool.and_eq_true, decide_eq_true_iff,
      UInt8.le_iff_toNat_le] at hs
    rcases hs with rfl | ⟨-, hle⟩
    · exact absurd hc.1 (by decide)
    · exact absurd (le_trans hc.1 hle) (by decide)
  have hminus : c ≠ 45 := by
    rintro rfl
    exact absurd hc.1 (by decide)
  have hplus : c ≠ 43 := by
    rintro rfl
    exact absurd hc.1 (by decide)
  rw [number, List.dropWhile_cons_of_neg hspace]
  dsimp only
  rw [if_neg hminus, if_neg hplus, digits, if_pos h, Nat.mul_zero, Nat.zero_add]

/-- The number of a digit with no digit behind it. -/
theorem atoi_of_digit (h : isDigit c = true) (hmemory : memory.head?.any isDigit = false) :
    atoi (c :: memory) = some ((c.toNat - 48 : Nat) : Int) := by
  have hc := isDigit_iff.mp h
  have hnumber := number_of_digit memory h
  rw [digits_of_no_digit _ hmemory] at hnumber
  rw [atoi, hnumber, if_neg (by omega)]

theorem findFieldByNumber_natCast (n : Nat) :
    t.findFieldByNumber n = (t.field n).map (n, ·) := by
  rw [MessageType.findFieldByNumber, if_neg (by omega), Int.toNat_natCast]

/-- No field is found for a `%` behind a `%`. -/
theorem find_percent (memory : Bytes) :
    (atoi (percent :: memory)).bind t.findFieldByNumber = none := by
  have hnumber : number (percent :: memory) = 0 := rfl
  have hatoi : atoi (percent :: memory) = some ((0 : Nat) : Int) := by
    rw [atoi, hnumber]
    rfl
  rw [hatoi, Option.bind_some, findFieldByNumber_natCast, t.field_zero]
  rfl

/-- The field of a digit is found where `atoi` reads no further. -/
theorem find_of_placeholder {found : Nat × Bool} (h : t.placeholder c = some found)
    (hmemory : memory.head?.any isDigit = false) :
    (atoi (c :: memory)).bind t.findFieldByNumber = some found := by
  rw [MessageType.placeholder] at h
  split at h
  · rename_i hdigit
    rw [atoi_of_digit hdigit hmemory, Option.bind_some, findFieldByNumber_natCast, h]
  · cases h

/-- A field with a number below ten is found for a digit only if `atoi` reads no further. -/
theorem memory_of_find {n : Nat} {repeated : Bool} (h : (t.placeholder c).isSome = true)
    (hfind : (atoi (c :: memory)).bind t.findFieldByNumber = some (n, repeated)) (hn : n < 10) :
    memory.head?.any isDigit = false := by
  rw [MessageType.placeholder] at h
  split at h
  · rename_i hdigit
    by_contra hmemory
    have hten := ten_mul_le_digits (c.toNat - 48) (Bool.not_eq_false _ ▸ hmemory)
    have hpos : c.toNat - 48 ≠ 0 := by
      intro hzero
      rw [hzero, t.field_zero] at h
      cases h
    have hnumber := number_of_digit memory hdigit
    rw [atoi, hnumber] at hfind
    split at hfind
    · cases hfind
    · rw [Option.bind_some, findFieldByNumber_natCast, Option.map_eq_some_iff] at hfind
      obtain ⟨_, _, heq⟩ := hfind
      cases heq
      omega
  · cases h

end Number

/-! ## What is printed and what is wanted -/

section Pieces

variable {t : MessageType} {behind : Nat → Bytes}

/-- Nothing else is printed than what is wanted, where `atoi` reads no further. -/
theorem printed_of_placeholders : ∀ (rest : Bytes) (i : Nat),
    placeholders t behind i rest = true → printed t behind i rest = some (wanted t rest)
  | [], _, _ => rfl
  | [_], _, _ => rfl
  | c :: field :: rest, i, h => by
    rw [placeholders] at h
    rw [printed, wanted]
    by_cases hpercent : c = percent
    · rw [if_pos hpercent, Bool.and_eq_true, Bool.and_eq_true] at h
      obtain ⟨⟨hsome, hmemory⟩, hrest⟩ := h
      obtain ⟨⟨n, repeated⟩, hfound⟩ := Option.isSome_iff_exists.mp hsome
      rw [if_pos hpercent, if_pos hpercent, find_of_placeholder hfound (by simpa using hmemory),
        hfound]
      dsimp only
      rw [printed_of_placeholders rest (i + 2) hrest]
      rfl
    · rw [if_neg hpercent] at h
      rw [if_neg hpercent, if_neg hpercent, printed_of_placeholders (field :: rest) (i + 1) h]
      rfl

/-- A character that is no `%` makes no field. -/
theorem countP_wanted_cons {c : UInt8} (rest : Bytes) (h : c ≠ percent) :
    (wanted t (c :: rest)).countP Piece.isField = (wanted t rest).countP Piece.isField := by
  cases rest with
  | nil => rfl
  | cons field rest =>
    rw [wanted, if_neg h]
    exact List.countP_cons_of_neg Bool.false_ne_true

/-- A `%` in front of the number of a field makes one. -/
theorem countP_wanted_placeholder {field : UInt8} (rest : Bytes) {found : Nat × Bool}
    (h : t.placeholder field = some found) :
    (wanted t (percent :: field :: rest)).countP Piece.isField =
      (wanted t rest).countP Piece.isField + 1 := by
  rw [wanted, if_pos rfl, h]
  exact List.countP_cons_of_pos rfl

theorem countP_wanted_percent {field : UInt8} (rest : Bytes) (h : t.placeholder field = none)
    (hfield : field ≠ percent) :
    (wanted t (percent :: field :: rest)).countP Piece.isField =
      (wanted t rest).countP Piece.isField := by
  rw [wanted, if_pos rfl, h]
  dsimp only
  rw [List.countP_cons_of_neg Bool.false_ne_true, countP_wanted_cons rest hfield]

/-- There are at least as many fields in what is printed as wanted, and otherwise the formatter
has a `%` where no field is wanted. -/
theorem countP_wanted_le : ∀ (rest : Bytes) (i : Nat) (pieces : List Piece),
    printed t behind i rest = some pieces →
    (∀ n repeated, Piece.field n repeated ∈ pieces → n < 10) →
    (wanted t rest).countP Piece.isField ≤ pieces.countP Piece.isField ∧
      ((wanted t rest).countP Piece.isField = pieces.countP Piece.isField →
        placeholders t behind i rest = true)
  | [], _, _, h, _ => by
    cases h
    exact ⟨le_refl _, fun _ => rfl⟩
  | [_], _, _, h, _ => by
    cases h
    exact ⟨le_refl _, fun _ => rfl⟩
  | c :: field :: rest, i, pieces, h, hten => by
    rw [printed] at h
    rw [placeholders]
    by_cases hpercent : c = percent
    · subst hpercent
      rw [if_pos rfl] at h ⊢
      cases hfind : (atoi (field :: behind i)).bind t.findFieldByNumber with
      | none =>
        rw [hfind] at h
        cases h
      | some found =>
        obtain ⟨n, repeated⟩ := found
        rw [hfind] at h
        obtain ⟨pieces', hpieces, rfl⟩ := Option.map_eq_some_iff.mp h
        obtain ⟨hle, heq⟩ := countP_wanted_le rest (i + 2) pieces' hpieces
          fun n repeated hmem => hten n repeated (List.mem_cons_of_mem _ hmem)
        rw [List.countP_cons_of_pos (show Piece.isField (.field n repeated) = true from rfl)]
        cases hplace : t.placeholder field with
        | none =>
          -- a field is printed that is not wanted
          have hfield : field ≠ percent := by
            rintro rfl
            rw [find_percent] at hfind
            cases hfind
          rw [countP_wanted_percent rest hplace hfield]
          exact ⟨by omega, fun h => absurd h (by omega)⟩
        | some found' =>
          have hmemory := memory_of_find (by rw [hplace]; rfl) hfind
            (hten n repeated List.mem_cons_self)
          rw [countP_wanted_placeholder rest hplace, hmemory]
          exact ⟨by omega, fun h => by rw [heq (by omega)]; rfl⟩
    · rw [if_neg hpercent] at h ⊢
      obtain ⟨pieces', hpieces, rfl⟩ := Option.map_eq_some_iff.mp h
      rw [countP_wanted_cons _ hpercent, List.countP_cons_of_neg Bool.false_ne_true]
      exact countP_wanted_le (field :: rest) (i + 1) pieces' hpieces
        fun n repeated hmem => hten n repeated (List.mem_cons_of_mem _ hmem)

/-- A digit is the number of every field that is wanted. -/
theorem lt_ten_of_mem_wanted {n : Nat} {repeated : Bool} : ∀ (formatter : Bytes),
    Piece.field n repeated ∈ wanted t formatter → n < 10
  | [], h => by cases h
  | [c], h => by
    rw [wanted, List.mem_singleton] at h
    cases h
  | c :: field :: rest, h => by
    rw [wanted] at h
    split at h
    · rename_i n' repeated' hplace
      rw [List.mem_cons] at h
      rcases h with h | h
      · cases h
        split at hplace
        · rw [MessageType.placeholder] at hplace
          split at hplace
          · rename_i hdigit
            obtain ⟨_, _, heq⟩ := Option.map_eq_some_iff.mp hplace
            cases heq
            have hc := isDigit_iff.mp hdigit
            omega
          · cases hplace
        · cases hplace
      · exact lt_ten_of_mem_wanted rest h
    · rw [List.mem_cons] at h
      rcases h with h | h
      · cases h
      · exact lt_ten_of_mem_wanted (field :: rest) h

end Pieces

/-! ## Messages that tell -/

section Probe

/-- A message in which some fields print one byte, and the others nothing. -/
def probe (p : Nat → Bool) : MessageText where
  fieldSize n := if p n then 1 else 0
  printFieldValueToString n _ := if p n then [0] else []

def Piece.isFieldOf (p : Nat → Bool) : Piece → Bool
  | copy _ => false
  | field n _ => p n

theorem Piece.isFieldOf_true : (Piece.isFieldOf fun _ => true) = Piece.isField := by
  funext piece
  cases piece <;> rfl

theorem length_print_probe (p : Nat → Bool) (piece : Piece) :
    (piece.print (probe p)).length =
      (if piece.isField then 0 else 1) + (if piece.isFieldOf p then 1 else 0) := by
  cases piece with
  | copy c => rfl
  | field n repeated =>
    cases hp : p n <;> cases repeated <;>
      simp [Piece.print, MessageText.printField, probe, Piece.isField, Piece.isFieldOf, hp]

theorem length_probe (p : Nat → Bool) (pieces : List Piece) :
    (pieces.flatMap (Piece.print (probe p))).length =
      pieces.countP (fun piece => !piece.isField) + pieces.countP (Piece.isFieldOf p) := by
  induction pieces with
  | nil => rfl
  | cons piece pieces ih =>
    rw [List.flatMap_cons, List.length_append, ih, length_print_probe, List.countP_cons,
      List.countP_cons]
    cases piece.isField <;> cases piece.isFieldOf p <;> simp <;> omega

/-- What prints alike in every message has the same fields, by number. -/
theorem countP_eq_of_print {pieces pieces' : List Piece}
    (h : ∀ m, pieces.flatMap (Piece.print m) = pieces'.flatMap (Piece.print m))
    (p : Nat → Bool) : pieces.countP (Piece.isFieldOf p) = pieces'.countP (Piece.isFieldOf p) := by
  have hlength : ∀ p, pieces.countP (fun piece => !piece.isField) +
        pieces.countP (Piece.isFieldOf p) =
      pieces'.countP (fun piece => !piece.isField) + pieces'.countP (Piece.isFieldOf p) := by
    intro p
    rw [← length_probe, ← length_probe, h]
  have hnone : ∀ pieces : List Piece, pieces.countP (Piece.isFieldOf fun _ => false) = 0 := by
    intro pieces
    rw [List.countP_eq_zero]
    intro piece _
    cases piece <;> exact Bool.false_ne_true
  have hcopies := hlength fun _ => false
  rw [hnone, hnone] at hcopies
  have := hlength p
  omega

end Probe

/-! ## Formatting -/

section Formats

variable {t : MessageType} {behind : Nat → Bytes} {formatter : Bytes}

/-- A zero byte is printed for an empty formatter. -/
theorem not_formats_nil : ¬ Formats t behind [] := by
  intro h
  have hprint := h (probe fun _ => false) []
  rw [customPrintMessage, printFrom] at hprint
  cases hprint

/-- What is printed prints as what is wanted, in every message. -/
theorem Formats.exists_printed (h : Formats t behind formatter) (hne : formatter ≠ []) :
    ∃ pieces, printed t behind 0 formatter = some pieces ∧
      ∀ m, pieces.flatMap (Piece.print m) = (wanted t formatter).flatMap (Piece.print m) := by
  cases hpieces : printed t behind 0 formatter with
  | none =>
    have hprint := h (probe fun _ => false) []
    rw [customPrintMessage_eq hne, hpieces] at hprint
    cases hprint
  | some pieces =>
    refine ⟨pieces, rfl, fun m => ?_⟩
    have hprint := h m []
    rw [customPrintMessage_eq hne, hpieces] at hprint
    simpa using hprint

/-- So a digit is the number of every field that is printed, too. -/
theorem lt_ten_of_mem_printed {pieces : List Piece}
    (h : ∀ m, pieces.flatMap (Piece.print m) = (wanted t formatter).flatMap (Piece.print m))
    {n : Nat} {repeated : Bool} (hmem : Piece.field n repeated ∈ pieces) : n < 10 := by
  by_contra hn
  have hzero : (wanted t formatter).countP (Piece.isFieldOf fun n => decide (10 ≤ n)) = 0 := by
    rw [List.countP_eq_zero]
    intro piece hpiece
    cases piece with
    | copy c => exact Bool.false_ne_true
    | field n repeated =>
      have hlt := lt_ten_of_mem_wanted formatter hpiece
      exact fun h => absurd (of_decide_eq_true h) (by omega)
  rw [← countP_eq_of_print h, List.countP_eq_zero] at hzero
  exact hzero _ hmem (decide_eq_true (by omega))

end Formats

/-- **Custom formatter**: every message of a type is printed as its formatter says exactly when the
formatter is not empty, every `%` but a last one has the number of a field behind it, and `atoi`
reads no digit behind that: for every formatter, type and content of the memory. -/
theorem formats_iff (t : MessageType) (behind : Nat → Bytes) (formatter : Bytes) :
    Formats t behind formatter ↔
      formatter ≠ [] ∧ placeholders t behind 0 formatter = true := by
  by_cases hempty : formatter = []
  · subst hempty
    exact iff_of_false not_formats_nil fun h => h.1 rfl
  · constructor
    · intro h
      obtain ⟨pieces, hpieces, hsame⟩ := h.exists_printed hempty
      have hten : ∀ n repeated, Piece.field n repeated ∈ pieces → n < 10 :=
        fun n repeated hmem => lt_ten_of_mem_printed hsame hmem
      have hcount := countP_eq_of_print hsame fun _ => true
      rw [Piece.isFieldOf_true] at hcount
      exact ⟨hempty, (countP_wanted_le formatter 0 pieces hpieces hten).2 hcount.symm⟩
    · rintro ⟨-, h⟩ m s
      rw [customPrintMessage_eq hempty, printed_of_placeholders formatter 0 h]

/-- A `%` with no field behind it. -/
theorem not_formats_percent : ¬ Formats ⟨fun _ => none, rfl⟩ (fun _ => []) (str "100%!") := by
  intro h
  obtain ⟨pieces, hpieces, -⟩ := h.exists_printed (by decide +kernel)
  have hnone : printed ⟨fun _ => none, rfl⟩ (fun _ => []) 0 (str "100%!") = none := by
    decide +kernel
  rw [hnone] at hpieces
  cases hpieces

end Formatter

end Zippylog
