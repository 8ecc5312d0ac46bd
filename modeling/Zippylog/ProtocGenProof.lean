import Zippylog.ProtocGenOutput

/-!
# Stability of the enumerations

Over all runs of the plugin on a state file, a message has one pair of a namespace and an
enumeration, which no other message has. The state file is read back by each run, in any
order of its objects, and written with what the run has added.

- A message is known by its namespace, the first directory of its file, and its full name.
- `Numbers.Valid`: what the tables of a state are, in memory and in the state file. They
  are dense, so the next number is always free.
- `Continues`: what a part of a run does to the tables, and what it inserts. It is stated
  for any later tables, as a pair that is assigned stays.
- `enumerations_stable`: the responses of all runs are made from the pairs of the last
  state file, which are those that are read in the generated code.
-/

namespace Zippylog

open Wire

namespace ProtocGen

/-! ## Numbers -/

/-- The tables of a state. -/
structure Numbers where
  namespaces : Table Bytes Nat
  messages : Table Bytes (Table Bytes Nat)

def StateFile.numbers (file : StateFile) : Numbers := ⟨file.namespaces, file.messages⟩

def Generator.numbers (gen : Generator) : Numbers := ⟨gen.byName, gen.messages⟩

namespace Numbers

/-- The namespace and the enumeration of a message. -/
def pair (numbers : Numbers) (ns full : Bytes) : Option (Nat × Nat) := do
  let nsIndex ← numbers.namespaces.lookup ns
  let enums ← numbers.messages.lookup ns
  let messageIndex ← enums.lookup full
  return (nsIndex, messageIndex)

/-- The tables are dense, and each namespace has one of messages. -/
structure Valid (numbers : Numbers) : Prop where
  namespaces : numbers.namespaces.Dense
  zippylog : numbers.namespaces.lookup (str "zippylog") = some 1
  messages : ∀ ns, (numbers.messages.lookup ns).isSome ↔ (numbers.namespaces.lookup ns).isSome
  enums : ∀ ns enums, numbers.messages.lookup ns = some enums → enums.Dense

/-- No number of the first is another one in the second. -/
structure Extends (numbers numbers' : Numbers) : Prop where
  namespaces : numbers.namespaces.Extends numbers'.namespaces
  messages : ∀ ns enums, numbers.messages.lookup ns = some enums →
    ∃ enums', numbers'.messages.lookup ns = some enums' ∧ enums.Extends enums'

variable {numbers numbers' numbers'' : Numbers}

/-- A pair is found in two steps: the number of the namespace, and the number of the message in the
table of the namespace. -/
theorem pair_eq_some {ns full : Bytes} {x : Nat × Nat} :
    numbers.pair ns full = some x ↔ numbers.namespaces.lookup ns = some x.1 ∧
      ∃ enums, numbers.messages.lookup ns = some enums ∧ enums.lookup full = some x.2 := by
  obtain ⟨nsIndex, messageIndex⟩ := x
  constructor
  · intro h
    obtain ⟨i, hi, h⟩ := Option.bind_eq_some_iff.mp h
    obtain ⟨enums, henums, h⟩ := Option.bind_eq_some_iff.mp h
    obtain ⟨j, hj, h⟩ := Option.bind_eq_some_iff.mp h
    cases h
    exact ⟨hi, enums, henums, hj⟩
  · rintro ⟨hi, enums, henums, hj⟩
    dsimp only at hi hj
    simp [pair, hi, henums, hj]

theorem Extends.refl (numbers : Numbers) : numbers.Extends numbers where
  namespaces := Table.Extends.refl _
  messages _ enums h := ⟨enums, h, Table.Extends.refl enums⟩

theorem Extends.trans (h : numbers.Extends numbers') (h' : numbers'.Extends numbers'') :
    numbers.Extends numbers'' where
  namespaces := h.namespaces.trans h'.namespaces
  messages ns enums henums := by
    obtain ⟨enums', henums', hext⟩ := h.messages ns enums henums
    obtain ⟨enums'', henums'', hext'⟩ := h'.messages ns enums' henums'
    exact ⟨enums'', henums'', hext.trans hext'⟩

theorem Extends.pair (h : numbers.Extends numbers') {ns full : Bytes} {x : Nat × Nat}
    (hx : numbers.pair ns full = some x) : numbers'.pair ns full = some x := by
  obtain ⟨hns, enums, henums, hfull⟩ := pair_eq_some.mp hx
  obtain ⟨enums', henums', hext⟩ := h.messages ns enums henums
  exact pair_eq_some.mpr ⟨h.namespaces _ _ hns, enums', henums', hext _ _ hfull⟩

/-- What the numbers are for: a number or a pair is of one name. -/
structure Unique (numbers : Numbers) : Prop where
  namespaces : ∀ ns ns' n, numbers.namespaces.lookup ns = some n →
    numbers.namespaces.lookup ns' = some n → ns = ns'
  zippylog : numbers.namespaces.lookup (str "zippylog") = some 1
  pairs : ∀ ns full ns' full' x, numbers.pair ns full = some x →
    numbers.pair ns' full' = some x → ns = ns' ∧ full = full'

/-- Dense tables give no number twice. -/
theorem Valid.unique (h : numbers.Valid) : numbers.Unique where
  namespaces _ _ _ hns hns' := h.namespaces.injective hns hns'
  zippylog := h.zippylog
  pairs ns full ns' full' x hx hx' := by
    obtain ⟨hns, enums, henums, hfull⟩ := pair_eq_some.mp hx
    obtain ⟨hns', enums', henums', hfull'⟩ := pair_eq_some.mp hx'
    have heq := h.namespaces.injective hns hns'
    rw [← heq, henums] at henums'
    cases henums'
    exact ⟨heq, (h.enums ns enums henums).injective hfull hfull'⟩

/-- A table of messages is replaced by one that has more. -/
theorem Extends.insert {ns : Bytes} {enums enums' : Table Bytes Nat}
    (henums : numbers.messages.lookup ns = some enums) (hext : enums.Extends enums') :
    numbers.Extends ⟨numbers.namespaces, numbers.messages.insert ns enums'⟩ where
  namespaces := Table.Extends.refl _
  messages ns' other hother := by
    by_cases heq : ns' = ns
    · rw [heq, henums] at hother
      cases hother
      exact ⟨enums', by rw [heq, AList.lookup_insert], hext⟩
    · exact ⟨other, by rw [AList.lookup_insert_ne heq, hother], Table.Extends.refl other⟩

/-- A table for a namespace that has a number can be replaced by another dense one. -/
theorem Valid.insert (h : numbers.Valid) {ns : Bytes} {enums : Table Bytes Nat}
    (hns : (numbers.namespaces.lookup ns).isSome) (hdense : enums.Dense) :
    Valid ⟨numbers.namespaces, numbers.messages.insert ns enums⟩ where
  namespaces := h.namespaces
  zippylog := h.zippylog
  messages ns' := by
    by_cases heq : ns' = ns
    · rw [heq, AList.lookup_insert]
      exact iff_of_true rfl hns
    · rw [AList.lookup_insert_ne heq]
      exact h.messages ns'
  enums ns' other hother := by
    by_cases heq : ns' = ns
    · rw [heq, AList.lookup_insert] at hother
      cases hother
      exact hdense
    · rw [AList.lookup_insert_ne heq] at hother
      exact h.enums ns' other hother

end Numbers

/-! ## State files -/

theorem StateFile.Reordered.refl (file : StateFile) : file.Reordered file where
  namespaces := List.Perm.refl _
  messages ns := by
    cases file.messages.lookup ns with
    | none => exact Option.Rel.none
    | some enums => exact Option.Rel.some (List.Perm.refl _)
  cppMessagesNamespace := rfl

theorem reordered_refl (file : Option StateFile) :
    Option.Rel StateFile.Reordered file file := by
  cases file with
  | none => exact Option.Rel.none
  | some file => exact Option.Rel.some (StateFile.Reordered.refl file)

theorem StateFile.Reordered.lookup_namespaces {file file' : StateFile}
    (h : file.Reordered file') (ns : Bytes) :
    file'.namespaces.lookup ns = file.namespaces.lookup ns :=
  AList.perm_lookup h.namespaces

/-- The messages of a namespace are in both files or in neither. -/
theorem StateFile.Reordered.lookup_messages {file file' : StateFile}
    (h : file.Reordered file') (ns : Bytes) :
    (file.messages.lookup ns = none ∧ file'.messages.lookup ns = none) ∨
      ∃ enums enums', file.messages.lookup ns = some enums ∧
        file'.messages.lookup ns = some enums' ∧ enums'.entries.Perm enums.entries := by
  have hrel := h.messages ns
  generalize file.messages.lookup ns = o at hrel
  generalize file'.messages.lookup ns = o' at hrel
  cases hrel with
  | some hperm => exact Or.inr ⟨_, _, rfl, rfl, hperm⟩
  | none => exact Or.inl ⟨rfl, rfl⟩

/-- The order of the members is of no matter. -/
theorem StateFile.Reordered.extends {file file' : StateFile} (h : file.Reordered file') :
    file.numbers.Extends file'.numbers where
  namespaces ns n hn := (h.lookup_namespaces ns).trans hn
  messages ns enums henums := by
    have hlookup : file.messages.lookup ns = some enums := henums
    rcases h.lookup_messages ns with ⟨hnone, -⟩ | ⟨_, enums', hsome, hsome', hperm⟩
    · cases hnone.symm.trans hlookup
    · cases hsome.symm.trans hlookup
      exact ⟨enums', hsome', fun full n hn => (AList.perm_lookup hperm).trans hn⟩

/-- A file that is written in another order is read back as valid tables. -/
theorem StateFile.Reordered.valid {file file' : StateFile} (h : file.Reordered file')
    (hvalid : file.numbers.Valid) : file'.numbers.Valid where
  namespaces := hvalid.namespaces.perm h.namespaces
  zippylog := (h.lookup_namespaces _).trans hvalid.zippylog
  messages ns := by
    have hns : (file.messages.lookup ns).isSome ↔ (file.namespaces.lookup ns).isSome :=
      hvalid.messages ns
    show (file'.messages.lookup ns).isSome ↔ (file'.namespaces.lookup ns).isSome
    rw [h.lookup_namespaces, ← hns]
    rcases h.lookup_messages ns with ⟨hnone, hnone'⟩ | ⟨_, _, hsome, hsome', -⟩
    · rw [hnone, hnone']
    · rw [hsome, hsome']
      exact iff_of_true rfl rfl
  enums ns enums' henums' := by
    have hlookup : file'.messages.lookup ns = some enums' := henums'
    rcases h.lookup_messages ns with ⟨-, hnone'⟩ | ⟨enums, _, hsome, hsome', hperm⟩
    · cases hnone'.symm.trans hlookup
    · cases hsome'.symm.trans hlookup
      exact (hvalid.enums ns enums hsome).perm hperm

/-! ## The variables of a run -/

namespace Generator

/-- The tables are valid, and the two of the namespaces say the same. -/
structure Inv (gen : Generator) : Prop where
  valid : gen.numbers.Valid
  index : ∀ n ns, gen.byIndex.lookup n = some ns ↔ gen.byName.lookup ns = some n

/-- **The next index is free**, so that no namespace is refused. -/
theorem Inv.next_free {gen : Generator} (h : gen.Inv) :
    gen.byIndex.lookup (gen.byName.size + 1) = none := by
  cases hlookup : gen.byIndex.lookup (gen.byName.size + 1) with
  | none => rfl
  | some ns =>
    have hbounds := h.valid.namespaces.bounds ((h.index _ _).mp hlookup)
    exact absurd hbounds.2 (Nat.not_succ_le_self _)

/-- What is inserted with the numbers, by a part of a run. -/
abbrev Inserts := (Bytes → Bytes → Option (Nat × Nat)) → List ResponseFile

/-- A part of a run keeps the numbers there are, and what it inserts is made from the
pairs that are there at any later time. -/
structure Continues (gen gen' : Generator) (inserts : Inserts) : Prop where
  inv : gen'.Inv
  kept : gen.numbers.Extends gen'.numbers
  files : ∀ later : Numbers, gen'.numbers.Extends later →
    gen'.files = gen.files ++ inserts later.pair

theorem Continues.trans {gen gen' gen'' : Generator} {inserts inserts' : Inserts}
    (h : Continues gen gen' inserts) (h' : Continues gen' gen'' inserts') :
    Continues gen gen'' fun pair => inserts pair ++ inserts' pair where
  inv := h'.inv
  kept := h.kept.trans h'.kept
  files later hlater := by
    rw [h'.files later hlater, h.files later (h'.kept.trans hlater), List.append_assoc]

theorem Continues.refl {gen : Generator} (h : gen.Inv) : Continues gen gen fun _ => [] where
  inv := h
  kept := Numbers.Extends.refl _
  files _ _ := (List.append_nil _).symm

/-- A new namespace. -/
theorem Inv.insert {gen : Generator} (h : gen.Inv) {ns : Bytes}
    (hns : gen.byName.lookup ns = none) :
    Continues gen { gen with
      byName := gen.byName.insert ns (gen.byName.size + 1)
      byIndex := gen.byIndex.insert (gen.byName.size + 1) ns
      messages := gen.messages.insert ns ∅ } fun _ => [] where
  inv := by
    have hvalid := h.valid
    have hfree := h.next_free
    constructor
    · constructor
      · exact hvalid.namespaces.insert hns
      · exact Table.Extends.insert _ hns _ _ hvalid.zippylog
      · intro ns'
        show ((gen.messages.insert ns ∅).lookup ns').isSome ↔
          ((gen.byName.insert ns (gen.byName.size + 1)).lookup ns').isSome
        by_cases heq : ns' = ns
        · rw [heq, AList.lookup_insert, AList.lookup_insert]
          exact iff_of_true rfl rfl
        · rw [AList.lookup_insert_ne heq, AList.lookup_insert_ne heq]
          exact hvalid.messages ns'
      · intro ns' enums henums
        have hlookup : (gen.messages.insert ns ∅).lookup ns' = some enums := henums
        -- the new namespace has an empty table, and the others have theirs
        by_cases heq : ns' = ns
        · rw [heq, AList.lookup_insert] at hlookup
          cases hlookup
          exact Table.dense_empty
        · rw [AList.lookup_insert_ne heq] at hlookup
          exact hvalid.enums ns' enums hlookup
    · intro n ns'
      show (gen.byIndex.insert (gen.byName.size + 1) ns).lookup n = some ns' ↔
        (gen.byName.insert ns (gen.byName.size + 1)).lookup ns' = some n
      -- the next number is free, so the two tables stay inverse to each other
      by_cases hn : n = gen.byName.size + 1
      · rw [hn, AList.lookup_insert]
        by_cases heq : ns' = ns
        · rw [heq, AList.lookup_insert]
          exact iff_of_true rfl rfl
        · rw [AList.lookup_insert_ne heq, ← h.index, hfree]
          exact iff_of_false (fun hsome => heq (Option.some.inj hsome).symm) (by simp)
      · rw [AList.lookup_insert_ne hn, h.index]
        by_cases heq : ns' = ns
        · rw [heq, AList.lookup_insert, hns]
          exact iff_of_false (by simp) fun hsome => hn (Option.some.inj hsome).symm
        · rw [AList.lookup_insert_ne heq]
  kept := by
    constructor
    · exact Table.Extends.insert _ hns
    · intro ns' enums henums
      have hlookup : gen.messages.lookup ns' = some enums := henums
      have hne : ns' ≠ ns := by
        rintro rfl
        have hsome := (h.valid.messages ns').mp (Option.isSome_of_eq_some henums)
        rw [show gen.numbers.namespaces.lookup ns' = none from hns] at hsome
        cases hsome
      exact ⟨enums, (AList.lookup_insert_ne hne).trans hlookup, Table.Extends.refl _⟩
  files _ _ := (List.append_nil _).symm

/-- A namespace that is known keeps its number, and a new one gets the next. -/
theorem namespaceIndex_spec {gen : Generator} (h : gen.Inv) (ns : Bytes) :
    ∃ nsIndex gen', gen.namespaceIndex ns = .ok (nsIndex, gen') ∧
      gen'.byName.lookup ns = some nsIndex ∧ Continues gen gen' fun _ => [] := by
  rw [namespaceIndex]
  split
  · rename_i nsIndex hlookup
    exact ⟨nsIndex, gen, rfl, hlookup, Continues.refl h⟩
  · rename_i hlookup
    refine ⟨gen.byName.size + 1, _, ?_, AList.lookup_insert _, h.insert hlookup⟩
    dsimp only
    rw [h.next_free]
    rfl

end Generator

namespace Generator

variable (mode cppMessagesNamespace : Bytes)

/-- A message is numbered, and inserted with its pair. -/
theorem Inv.message {gen : Generator} (h : gen.Inv) {description : FileDescriptor}
    {nsIndex : Nat} (hns : gen.byName.lookup description.ns = some nsIndex)
    {enums : Table Bytes Nat} (henums : gen.messages.lookup description.ns = some enums)
    (name : Bytes) :
    ∃ gen', gen' = { gen with
        messages := gen.messages.insert description.ns (enums.number (description.full name)).2
        files := gen.files ++ messageFiles mode cppMessagesNamespace description name nsIndex
          (enums.number (description.full name)).1 } ∧
      (gen'.numbers.pair description.ns (description.full name)).isSome ∧
      Continues gen gen' fun pair =>
        messageOutput mode cppMessagesNamespace pair description name := by
  refine ⟨_, rfl, ?_⟩
  obtain ⟨hdense, hext, hnumber⟩ := Table.number_spec
    (h.valid.enums _ _ henums) (description.full name)
  have hpair : Numbers.pair
      ⟨gen.byName, gen.messages.insert description.ns (enums.number (description.full name)).2⟩
      description.ns (description.full name) =
        some (nsIndex, (enums.number (description.full name)).1) :=
    Numbers.pair_eq_some.mpr ⟨hns, _, AList.lookup_insert _, hnumber⟩
  refine ⟨Option.isSome_of_eq_some hpair, ?_⟩
  constructor
  · exact ⟨h.valid.insert (Option.isSome_of_eq_some hns) hdense, h.index⟩
  · have hlookup : gen.numbers.messages.lookup description.ns = some enums := henums
    exact Numbers.Extends.insert hlookup hext
  · intro later hlater
    rw [messageOutput, hlater.pair hpair]

/-- The loop over the messages of a file: it ends without an exception, each message has a pair
then, pairs from before are kept, and what is put out is put out for these pairs. -/
theorem processMessages_spec {gen : Generator} (h : gen.Inv) {description : FileDescriptor}
    {nsIndex : Nat} (hns : gen.byName.lookup description.ns = some nsIndex) (names : List Bytes) :
    ∃ gen', processMessages mode cppMessagesNamespace description nsIndex names gen = .ok gen' ∧
      (∀ name ∈ names, (gen'.numbers.pair description.ns (description.full name)).isSome) ∧
      Continues gen gen' fun pair =>
        names.flatMap (messageOutput mode cppMessagesNamespace pair description) := by
  induction names generalizing gen with
  | nil => exact ⟨gen, rfl, fun _ h => absurd h List.not_mem_nil, Continues.refl h⟩
  | cons name names ih =>
    obtain ⟨enums, henums⟩ := Option.isSome_iff_exists.mp
      ((h.valid.messages _).mpr (Option.isSome_of_eq_some hns))
    have henums' : gen.messages.lookup description.ns = some enums := henums
    obtain ⟨next, hnext, hpair, hmessage⟩ :=
      h.message mode cppMessagesNamespace hns henums' name
    have hnsnext : next.byName.lookup description.ns = some nsIndex :=
      hmessage.kept.namespaces _ _ hns
    obtain ⟨gen', hgen', hnames, hcontinues⟩ := ih hmessage.inv hnsnext
    refine ⟨gen', ?_, ?_, ?_⟩
    · rw [processMessages, henums']
      dsimp only
      rw [← hnext]
      exact hgen'
    · refine List.forall_mem_cons.mpr ⟨?_, hnames⟩
      obtain ⟨x, hx⟩ := Option.isSome_iff_exists.mp hpair
      exact Option.isSome_of_eq_some (hcontinues.kept.pair hx)
    · exact hmessage.trans hcontinues

theorem Continues.append {gen gen' : Generator} {inserts : Inserts}
    (h : Continues gen gen' inserts) (files : List ResponseFile) :
    Continues gen { gen' with files := gen'.files ++ files } fun pair => inserts pair ++ files where
  inv := ⟨h.inv.valid, h.inv.index⟩
  kept := h.kept
  files later hlater := by
    rw [h.files later hlater, List.append_assoc]

/-- The same of the loop over the files. -/
theorem processFiles_spec {gen : Generator} (h : gen.Inv) (protoFile : List FileDescriptor) :
    ∃ gen', processFiles mode cppMessagesNamespace protoFile gen = .ok gen' ∧
      (∀ description ∈ protoFile, ∀ name ∈ description.messageType,
        (gen'.numbers.pair description.ns (description.full name)).isSome) ∧
      Continues gen gen' fun pair =>
        protoFile.flatMap (fileOutput mode cppMessagesNamespace pair) := by
  induction protoFile generalizing gen with
  | nil => exact ⟨gen, rfl, fun _ h => absurd h List.not_mem_nil, Continues.refl h⟩
  | cons description rest ih =>
    obtain ⟨nsIndex, gen₁, hgen₁, hns, hindex⟩ := namespaceIndex_spec h description.ns
    obtain ⟨gen₂, hgen₂, hnames, hmessages⟩ := processMessages_spec mode
      cppMessagesNamespace hindex.inv hns description.messageType
    have hfile := (hindex.trans hmessages).append
      (includeFiles mode cppMessagesNamespace description)
    obtain ⟨gen', hgen', hrest, hcontinues⟩ := ih hfile.inv
    refine ⟨gen', ?_, ?_, hfile.trans hcontinues⟩
    · rw [processFiles, hgen₁]
      show (do
        let gen ← processMessages mode cppMessagesNamespace description nsIndex
          description.messageType gen₁
        processFiles mode cppMessagesNamespace rest
          { gen with files := gen.files ++ includeFiles mode cppMessagesNamespace description }) = _
      rw [hgen₂]
      exact hgen'
    · refine List.forall_mem_cons.mpr ⟨fun name hname => ?_, hrest⟩
      obtain ⟨x, hx⟩ := Option.isSome_iff_exists.mp (hnames name hname)
      exact Option.isSome_of_eq_some (hcontinues.kept.pair hx)

/-! ## Loading -/

/-- The messages of a namespace, read back. -/
def copy (file : StateFile) (ns : Bytes) : Table Bytes Nat :=
  ((file.messages.lookup ns).map fun enums => Table.insertAll enums.entries ∅).getD ∅

/-- The loop reads the three tables back. -/
theorem loadNamespaces_eq (file : StateFile) (l : List (Σ _ : Bytes, Nat)) (gen : Generator)
    (h : ∀ e ∈ l, (file.messages.lookup e.1).isSome) :
    loadNamespaces file l gen = some { gen with
      byIndex := Table.insertAll (l.map fun e => ⟨e.2, e.1⟩) gen.byIndex
      byName := Table.insertAll l gen.byName
      messages := Table.insertAll (l.map (.map id fun ns _ => copy file ns)) gen.messages } := by
  induction l generalizing gen with
  | nil => rfl
  | cons e l ih =>
    obtain ⟨he, hl⟩ := List.forall_mem_cons.mp h
    obtain ⟨enums, henums⟩ := Option.isSome_iff_exists.mp he
    obtain ⟨k, v⟩ := e
    have hcopy : copy file k = Table.insertAll enums.entries ∅ := by
      rw [copy, show file.messages.lookup k = some enums from henums]
      rfl
    rw [loadNamespaces, show file.messages.lookup k = some enums from henums]
    dsimp only
    rw [ih _ hl, ← hcopy]
    rfl

theorem copy_perm {file : StateFile} {ns : Bytes} {enums : Table Bytes Nat}
    (h : file.messages.lookup ns = some enums) : (copy file ns).entries.Perm enums.entries := by
  rw [copy, h]
  exact Table.insertAll_perm enums.nodupKeys

theorem lookup_copies {file : StateFile} (ns : Bytes) :
    (Table.insertAll (file.namespaces.entries.map (.map id fun ns _ => copy file ns)) ∅).lookup ns =
      (file.namespaces.lookup ns).map fun _ => copy file ns := by
  rw [Table.lookup_insertAll (file.namespaces.nodupKeys.map₂ _), AList.lookup_empty,
    Option.or_none, List.dlookup_map₂]
  rfl

/-- The namespace of zippylog itself is there in every run, so that its number does not depend on
the files. -/
theorem Inv.ensureZippylog {gen : Generator} (h : gen.Inv) :
    gen.ensureZippylog.Inv ∧ gen.numbers.Extends gen.ensureZippylog.numbers := by
  have hlookup : gen.byName.lookup (str "zippylog") = some 1 := h.valid.zippylog
  have hname := Table.insert_perm hlookup
  have hindex := Table.insert_perm ((h.index _ _).mpr hlookup)
  have hmessages : gen.ensureZippylog.messages = gen.messages := by
    have hsome : (gen.messages.lookup (str "zippylog")).isSome :=
      (h.valid.messages _).mpr (Option.isSome_of_eq_some hlookup)
    obtain ⟨enums, henums⟩ := Option.isSome_iff_exists.mp hsome
    rw [Generator.ensureZippylog, henums]
    rfl
  have heq : ∀ ns, gen.ensureZippylog.byName.lookup ns = gen.byName.lookup ns :=
    fun ns => AList.perm_lookup hname
  constructor
  · constructor
    · constructor
      · exact h.valid.namespaces.perm hname
      · exact AList.lookup_insert _
      · intro ns
        show (gen.ensureZippylog.messages.lookup ns).isSome ↔
          (gen.ensureZippylog.byName.lookup ns).isSome
        rw [hmessages, heq]
        exact h.valid.messages ns
      · intro ns enums henums
        have henums' : gen.ensureZippylog.messages.lookup ns = some enums := henums
        rw [hmessages] at henums'
        exact h.valid.enums ns enums henums'
    · intro n ns
      rw [heq, ← h.index]
      exact (AList.perm_lookup hindex).congr_left
  · constructor
    · exact fun ns n hn => (heq ns).trans hn
    · intro ns enums henums
      refine ⟨enums, ?_, Table.Extends.refl enums⟩
      show gen.ensureZippylog.messages.lookup ns = some enums
      rw [hmessages]
      exact henums

/-- Without a state file there is the namespace of zippylog only. -/
theorem inv_ensureZippylog_empty : (ensureZippylog {}).Inv where
  valid := {
    namespaces := (Table.dense_empty).insert rfl
    zippylog := rfl
    messages := fun ns => by
      show ((AList.insert (str "zippylog") ∅ ∅ : Table Bytes (Table Bytes Nat)).lookup ns).isSome ↔
        ((AList.insert (str "zippylog") 1 ∅ : Table Bytes Nat).lookup ns).isSome
      rw [AList.lookup_isSome, AList.lookup_isSome, AList.mem_insert, AList.mem_insert]
      simp
    enums := fun ns enums henums => by
      have hlookup : (AList.insert (str "zippylog") ∅ ∅ : Table Bytes (Table Bytes Nat)).lookup ns =
          some enums := henums
      by_cases heq : ns = str "zippylog"
      · rw [heq, AList.lookup_insert] at hlookup
        cases hlookup
        exact Table.dense_empty
      · rw [AList.lookup_insert_ne heq, AList.lookup_empty] at hlookup
        cases hlookup }
  index n ns := by
    show (AList.insert 1 (str "zippylog") ∅ : Table Nat Bytes).lookup n = some ns ↔
      (AList.insert (str "zippylog") 1 ∅ : Table Bytes Nat).lookup ns = some n
    by_cases hn : n = 1 <;> by_cases hns : ns = str "zippylog"
    · rw [hn, hns, AList.lookup_insert, AList.lookup_insert]
      exact iff_of_true rfl rfl
    · rw [hn, AList.lookup_insert, AList.lookup_insert_ne hns]
      exact iff_of_false (fun h => hns (Option.some.inj h).symm) (by simp)
    · rw [hns, AList.lookup_insert, AList.lookup_insert_ne hn]
      exact iff_of_false (by simp) fun h => hn (Option.some.inj h).symm
    · rw [AList.lookup_insert_ne hn, AList.lookup_insert_ne hns]
      exact iff_of_false (by simp) (by simp)

/-- What is loaded has the numbers of the state file. -/
theorem load_spec {file : Option StateFile} (h : ∀ f ∈ file, f.numbers.Valid) :
    ∃ gen, load file = some gen ∧ gen.Inv ∧
      ∀ f ∈ file, f.numbers.Extends gen.numbers := by
  cases file with
  | none => exact ⟨_, rfl, inv_ensureZippylog_empty, fun f hf => by cases hf⟩
  | some f =>
    have hvalid := h f rfl
    have hmessages : ∀ e ∈ f.namespaces.entries, (f.messages.lookup e.1).isSome := fun e he =>
      (hvalid.messages e.1).mpr (Option.isSome_of_eq_some (AList.mem_lookup_iff.mpr he))
    have hnames := Table.insertAll_perm f.namespaces.nodupKeys
    have heq : ∀ ns, (Table.insertAll f.namespaces.entries ∅).lookup ns =
        f.namespaces.lookup ns := fun ns => AList.perm_lookup hnames
    -- each table of a namespace is a copy of the one in the file
    have hcopy : ∀ ns enums,
        (Table.insertAll (f.namespaces.entries.map (.map id fun ns _ => copy f ns)) ∅).lookup ns =
          some enums →
        ∃ enums', f.messages.lookup ns = some enums' ∧ enums.entries.Perm enums'.entries := by
      intro ns enums henums
      rw [lookup_copies] at henums
      obtain ⟨n, hn, rfl⟩ := Option.map_eq_some_iff.mp henums
      obtain ⟨enums', henums'⟩ := Option.isSome_iff_exists.mp
        ((hvalid.messages ns).mpr (Option.isSome_of_eq_some hn))
      exact ⟨enums', henums', copy_perm henums'⟩
    -- so what is loaded is as valid as the file
    have hinv : Inv {
        byIndex := Table.insertAll (f.namespaces.entries.map fun e => ⟨e.2, e.1⟩) ∅
        byName := Table.insertAll f.namespaces.entries ∅
        messages := Table.insertAll
          (f.namespaces.entries.map (.map id fun ns _ => copy f ns)) ∅ } := by
      constructor
      · constructor
        · exact hvalid.namespaces.perm hnames
        · exact (heq _).trans hvalid.zippylog
        · intro ns
          show ((Table.insertAll
              (f.namespaces.entries.map (.map id fun ns _ => copy f ns)) ∅).lookup ns).isSome ↔
            ((Table.insertAll f.namespaces.entries ∅).lookup ns).isSome
          rw [lookup_copies, heq, Option.isSome_map]
        · intro ns enums henums
          obtain ⟨enums', henums', hperm⟩ := hcopy ns enums henums
          exact (hvalid.enums ns enums' henums').perm hperm
      · intro n ns
        rw [heq]
        exact hvalid.namespaces.lookup_swap
    obtain ⟨hensured, hext⟩ := hinv.ensureZippylog
    refine ⟨_, ?_, hensured, fun f' hf' => ?_⟩
    · rw [load, loadNamespaces_eq f _ _ hmessages]
      rfl
    · cases hf'
      refine Numbers.Extends.trans ⟨fun ns n hn => (heq ns).trans hn, ?_⟩ hext
      intro ns enums henums
      obtain ⟨n, hn⟩ := Option.isSome_iff_exists.mp
        ((hvalid.messages ns).mp (Option.isSome_of_eq_some henums))
      refine ⟨copy f ns, ?_, fun full j hj => (AList.perm_lookup (copy_perm henums)).trans hj⟩
      show (Table.insertAll
        (f.namespaces.entries.map (.map id fun ns _ => copy f ns)) ∅).lookup ns = _
      rw [lookup_copies, show f.namespaces.lookup ns = some n from hn]
      rfl

end Generator

/-! ## Runs -/

/-- What a run that is set up writes, on a state file whose tables are valid. -/
structure Wrote (inv : Invocation) (file : Option StateFile) (files : List ResponseFile)
    (written : StateFile) : Prop where
  valid : written.numbers.Valid
  kept : ∀ f ∈ file, f.numbers.Extends written.numbers
  assigned : ∀ description ∈ inv.protoFile, ∀ name ∈ description.messageType,
    (written.numbers.pair description.ns (description.full name)).isSome
  files : ∀ later : Numbers, written.numbers.Extends later →
    files = output inv.mode written.cppMessagesNamespace later.pair inv.protoFile

/-- A run that is not refused exits, and leaves a state file with valid tables that extend those it
was given. -/
theorem run_spec {inv : Invocation} {file : Option StateFile} (hrefusal : inv.refusal? = none)
    (h : ∀ f ∈ file, f.numbers.Valid) :
    ∃ files written, inv.run file = .exited { file := files } (some written) ∧
      Wrote inv file files written := by
  obtain ⟨gen, hgen, hinv, hkept⟩ := Generator.load_spec h
  have hinv' : Generator.Inv { gen with
      files := messagesFiles inv.mode (inv.cppMessagesNamespaceOf file) } :=
    ⟨hinv.valid, hinv.index⟩
  obtain ⟨gen', hgen', hassigned, hcontinues⟩ :=
    Generator.processFiles_spec inv.mode (inv.cppMessagesNamespaceOf file) hinv' inv.protoFile
  refine ⟨gen'.files, ⟨gen'.byName, gen'.messages, inv.cppMessagesNamespaceOf file⟩, ?_, ?_⟩
  · rw [Invocation.run, hrefusal, hgen]
    dsimp only
    rw [hgen']
  · constructor
    · exact hcontinues.inv.valid
    · exact fun f hf => (hkept f hf).trans hcontinues.kept
    · exact hassigned
    · exact hcontinues.files

/-- The exception for a number that is already seen is none of the refusals of an invocation. -/
theorem alreadySeen_ne_refusal (inv : Invocation) (n : Nat) :
    inv.refusal? ≠ some (Generator.alreadySeen n) := by
  have hhead : ∀ error, error.head? ≠ some 110 → some error ≠ some (Generator.alreadySeen n) := by
    rintro error herror heq
    rw [Option.some.inj heq] at herror
    exact herror rfl
  rw [Invocation.refusal?]
  split_ifs
  · apply hhead
    decide
  · exact nofun
  · apply hhead
    decide

/-- A run ends with a response. It is refused if it is not set up; else all its messages
have pairs, which are those of the file, and the response is made from these. In C++ and in
Python, they are what is read in its classes and registrations. -/
def Answered (inv : Invocation) (outcome : Outcome) (file : Option StateFile) : Prop :=
  ∃ response written, outcome = .exited response written ∧
    response.error = inv.refusal? ∧ (∀ n, response.error ≠ some (Generator.alreadySeen n)) ∧
    (inv.refusal? = none → ∃ first last, written = some first ∧ file = some last ∧
      (∀ description ∈ inv.protoFile, ∀ name ∈ description.messageType,
        (first.numbers.pair description.ns (description.full name)).isSome) ∧
      (∀ ns full x, first.numbers.pair ns full = some x → last.numbers.pair ns full = some x) ∧
      response.file = output inv.mode first.cppMessagesNamespace last.numbers.pair inv.protoFile ∧
      (inv.mode = str "cpp" ∨ inv.mode = str "python" →
        Declares inv.mode last.numbers.pair inv.protoFile response.file))

/-- If the one run generated C++ and the other one Python for the same files, the classes of
both have the same numbers. -/
def SamePairs (r r' : Invocation × Outcome) : Prop :=
  r.1.mode = str "cpp" → r'.1.mode = str "python" → r.1.protoFile = r'.1.protoFile →
    ∀ files files' written written', r.2 = .exited { file := files } (some written) →
      r'.2 = .exited { file := files' } (some written') →
      classNumbers (str "cpp") files = classNumbers (str "python") files'

/-- What holds of the runs, by the numbers they wrote. -/
def Kept (inv : Invocation) (outcome : Outcome) (file : Option StateFile) : Prop :=
  (∃ error, inv.refusal? = some error ∧ outcome = .exited { error := some error } none) ∨
    (inv.refusal? = none ∧ ∃ before files written last,
      outcome = .exited { file := files } (some written) ∧ file = some last ∧
      Wrote inv before files written ∧ written.numbers.Extends last.numbers)

/-- Where the pairs of a run are kept in the file, every message that the run was asked for has its
pair in the file. -/
theorem Kept.answered {inv : Invocation} {outcome : Outcome} {file : Option StateFile}
    (h : Kept inv outcome file) : Answered inv outcome file := by
  rcases h with ⟨error, hrefusal, rfl⟩ | ⟨hrefusal, before, files, written, last, rfl, rfl, h, hext⟩
  · refine ⟨_, _, rfl, hrefusal.symm, fun n => ?_, fun hnone => ?_⟩
    · rw [← hrefusal]
      exact alreadySeen_ne_refusal inv n
    · cases hnone.symm.trans hrefusal
  · refine ⟨_, _, rfl, hrefusal.symm, fun n => nofun, fun _ => ?_⟩
    refine ⟨written, last, rfl, rfl, h.assigned, fun _ _ _ hx => hext.pair hx, h.files _ hext,
      fun hmode => ?_⟩
    rw [h.files _ hext]
    exact declares_output hmode inv.protoFile

/-- What is read in a response of a run that is set up. -/
theorem Answered.declares {inv : Invocation} {files : List ResponseFile} {written : StateFile}
    {file : Option StateFile} (h : Answered inv (.exited { file := files } (some written)) file)
    (hmode : inv.mode = str "cpp" ∨ inv.mode = str "python") :
    ∃ last, file = some last ∧ Declares inv.mode last.numbers.pair inv.protoFile files := by
  obtain ⟨response, written', houtcome, hrefusal, -, hrest⟩ := h
  obtain ⟨rfl, -⟩ := Outcome.exited.inj houtcome
  obtain ⟨first, last, -, hlast, -, -, -, hdeclares⟩ := hrest hrefusal.symm
  exact ⟨last, hlast, hdeclares hmode⟩

/-- Two runs whose pairs are those of one file agree on every message that both were asked for. -/
theorem Answered.samePairs {r r' : Invocation × Outcome} {file : Option StateFile}
    (h : Answered r.1 r.2 file) (h' : Answered r'.1 r'.2 file) : SamePairs r r' := by
  intro hcpp hpython hprotoFile files files' written written' houtcome houtcome'
  rw [houtcome] at h
  rw [houtcome'] at h'
  obtain ⟨last, hlast, hdeclares⟩ := h.declares (.inl hcpp)
  obtain ⟨last', hlast', hdeclares'⟩ := h'.declares (.inr hpython)
  obtain rfl := Option.some.inj (hlast.symm.trans hlast')
  rw [hcpp, hprotoFile] at hdeclares
  rw [hpython] at hdeclares'
  exact hdeclares.classNumbers_eq hdeclares'

/-- A file that goes on from the one before. -/
def Later (file file' : Option StateFile) : Prop :=
  ∀ f ∈ file, ∃ f' ∈ file', f.numbers.Extends f'.numbers

theorem Kept.later {inv : Invocation} {outcome : Outcome} {file file' : Option StateFile}
    (h : Kept inv outcome file) (hlater : Later file file') : Kept inv outcome file' := by
  rcases h with h | ⟨hrefusal, before, files, written, last, houtcome, rfl, h, hext⟩
  · exact Or.inl h
  · obtain ⟨last', hlast', hext'⟩ := hlater last rfl
    exact Or.inr ⟨hrefusal, before, files, written, last', houtcome, hlast', h,
      hext.trans hext'⟩

theorem later_reordered {file file' : Option StateFile}
    (h : Option.Rel StateFile.Reordered file file') : Later file file' := by
  cases h with
  | some h =>
    rintro f hf
    cases hf
    exact ⟨_, rfl, h.extends⟩
  | none => exact nofun

/-- A run is kept, and goes on from the file it was given. -/
theorem kept_run (inv : Invocation) {file : Option StateFile}
    (h : ∀ f ∈ file, f.numbers.Valid) :
    Kept inv (inv.run file) ((inv.run file).stateFile file) ∧
      Later file ((inv.run file).stateFile file) ∧
      ∀ f ∈ (inv.run file).stateFile file, f.numbers.Valid := by
  cases hrefusal : inv.refusal? with
  | some error =>
    have hrun : inv.run file = .exited { error := some error } none := by
      rw [Invocation.run, hrefusal]
    rw [hrun]
    exact ⟨Or.inl ⟨error, hrefusal, rfl⟩, fun f hf => ⟨f, hf, Numbers.Extends.refl _⟩, h⟩
  | none =>
    obtain ⟨files, written, hrun, hwrote⟩ := run_spec hrefusal h
    rw [hrun]
    refine ⟨Or.inr ⟨hrefusal, file, files, written, written, rfl, rfl, hwrote,
      Numbers.Extends.refl _⟩, fun f hf => ⟨written, rfl, hwrote.kept f hf⟩, ?_⟩
    rintro f hf
    cases hf
    exact hwrote.valid

/-- The run lemma: every pair that any run of a history gave is in the state file at the end. -/
theorem History.kept {runs : List (Invocation × Outcome)} {file : Option StateFile}
    (h : History runs file) :
    (∀ f ∈ file, f.numbers.Valid) ∧ ∀ r ∈ runs, Kept r.1 r.2 file := by
  induction h with
  | nil => exact ⟨nofun, fun r hr => absurd hr List.not_mem_nil⟩
  | @run runs file file' inv h horder ih =>
    obtain ⟨hvalid, hruns⟩ := ih
    have hvalid' : ∀ f ∈ file', f.numbers.Valid := by
      cases horder with
      | some hreordered =>
        rintro f hf
        cases hf
        exact hreordered.valid (hvalid _ rfl)
      | none => exact nofun
    obtain ⟨hrun, hlater, hafter⟩ := kept_run inv hvalid'
    refine ⟨hafter, fun r hr => ?_⟩
    rcases List.mem_append.mp hr with hr | hr
    · exact ((hruns r hr).later (later_reordered horder)).later hlater
    · cases List.mem_singleton.mp hr
      exact hrun

/-- **Stability of the enumerations**, over all runs on a state file. The numbers are
unique, and no run fails. What each run inserted is made from the pairs of the last file, so
that a pair, once it is assigned, is the same in all later runs; read back from the generated
code, each message has its pair in C++ and in Python, and so the two agree. -/
theorem enumerations_stable {runs : List (Invocation × Outcome)} {file : Option StateFile}
    (h : History runs file) :
    (∀ f ∈ file, f.numbers.Unique) ∧ (∀ r ∈ runs, Answered r.1 r.2 file) ∧
      ∀ r ∈ runs, ∀ r' ∈ runs, SamePairs r r' := by
  obtain ⟨hvalid, hruns⟩ := h.kept
  refine ⟨fun f hf => (hvalid f hf).unique, fun r hr => (hruns r hr).answered, ?_⟩
  exact fun r hr r' hr' => (hruns r hr).answered.samePairs (hruns r' hr').answered

/-- The runs of one compilation, by language. -/
def compile (language : String) : Invocation where
  stateFile := true
  argv0 := str "protoc-gen-" ++ str language ++ str "_zippylog"
  protoFile := [⟨str "site/request.proto", str "site", [str "Request", str "Reply"]⟩]

theorem enumerations_stable_compile :
    Answered (compile "cpp") ((compile "cpp").run none)
      (((compile "python").run (((compile "cpp").run none).stateFile none)).stateFile
        (((compile "cpp").run none).stateFile none)) := by
  have hcpp := History.run (compile "cpp") .nil Option.Rel.none
  have hpython := hcpp.run (compile "python") (reordered_refl _)
  exact (enumerations_stable hpython).2.1 _ List.mem_cons_self

end ProtocGen

end Zippylog
