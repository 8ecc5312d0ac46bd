import Zippylog.PersistedStateReactor

/-!
# Subscription records

`ToProtocolBuffer` and the constructor from a record, on a record as a message object: fields
can be missing, and there can be others from before. The record goes from a worker to the reactor,
which makes the subscription of it again, so nothing may be lost on the way: neither the order of
the paths nor which namespace stands beside which enumeration.

- `record_codec`: a subscription survives being written into any record and read back with
  another id, and lists of different lengths are refused;
- `writeTo_eq`, `ofMessage_eq`: on records that are complete these are the functions that the
  worker and the reactor use.
-/

namespace Zippylog

open Wire

/-- A `SubscriptionRecord` object, with the fields that it has. -/
structure SubscriptionRecordMessage where
  id : Option Bytes := none
  type : Option SubscriptionRecordType := none
  path : List Bytes := []
  luaCode : Option Bytes := none
  socketIdentifier : List Bytes := []
  envelopeFilterNamespace : List UInt32 := []
  envelopeFilterEnumerationNamespace : List UInt32 := []
  envelopeFilterEnumerationType : List UInt32 := []
  deriving DecidableEq

namespace SubscriptionRecordMessage

/-! ## Fields -/

/-- `Clear`. -/
def clear (_m : SubscriptionRecordMessage) : SubscriptionRecordMessage := {}

def setId (m : SubscriptionRecordMessage) (id : Bytes) : SubscriptionRecordMessage :=
  { m with id := some id }

def setType (m : SubscriptionRecordMessage) (type : SubscriptionRecordType) :
    SubscriptionRecordMessage :=
  { m with type := some type }

def addPath (m : SubscriptionRecordMessage) (path : Bytes) : SubscriptionRecordMessage :=
  { m with path := m.path ++ [path] }

def setLuaCode (m : SubscriptionRecordMessage) (code : Bytes) : SubscriptionRecordMessage :=
  { m with luaCode := some code }

def addSocketIdentifier (m : SubscriptionRecordMessage) (identifier : Bytes) :
    SubscriptionRecordMessage :=
  { m with socketIdentifier := m.socketIdentifier ++ [identifier] }

def addEnvelopeFilterNamespace (m : SubscriptionRecordMessage) (ns : UInt32) :
    SubscriptionRecordMessage :=
  { m with envelopeFilterNamespace := m.envelopeFilterNamespace ++ [ns] }

/-- `add_envelope_filter_enumeration_namespace` and `add_envelope_filter_enumeration_type`. -/
def addEnvelopeFilterEnumeration (m : SubscriptionRecordMessage) (enumeration : UInt32 × UInt32) :
    SubscriptionRecordMessage :=
  { m with
    envelopeFilterEnumerationNamespace :=
      m.envelopeFilterEnumerationNamespace ++ [enumeration.1]
    envelopeFilterEnumerationType := m.envelopeFilterEnumerationType ++ [enumeration.2] }

/-- The object of a record that has its required fields. -/
def ofRecord (record : SubscriptionRecord) : SubscriptionRecordMessage where
  id := some record.id
  type := some record.type
  path := record.path
  luaCode := record.luaCode
  socketIdentifier := record.socketIdentifier
  envelopeFilterNamespace := record.envelopeFilterNamespace
  envelopeFilterEnumerationNamespace := record.envelopeFilterEnumerationNamespace
  envelopeFilterEnumerationType := record.envelopeFilterEnumerationType

/-! The loops of `ToProtocolBuffer`. -/

/-- Adding one by one adds all. -/
theorem foldl_eq_of_cons {σ α : Type} {f : σ → α → σ} {g : σ → List α → σ}
    (hnil : ∀ m, g m [] = m) (hcons : ∀ m a as, g (f m a) as = g m (a :: as))
    (as : List α) (m : σ) : as.foldl f m = g m as := by
  induction as generalizing m with
  | nil => exact (hnil m).symm
  | cons a as ih => rw [List.foldl_cons, ih, hcons]

theorem foldl_addPath (paths : List Bytes) (m : SubscriptionRecordMessage) :
    paths.foldl addPath m = { m with path := m.path ++ paths } :=
  foldl_eq_of_cons (g := fun m paths => { m with path := m.path ++ paths })
    (by simp) (by simp [addPath]) paths m

theorem foldl_addSocketIdentifier (identifiers : List Bytes) (m : SubscriptionRecordMessage) :
    identifiers.foldl addSocketIdentifier m =
      { m with socketIdentifier := m.socketIdentifier ++ identifiers } :=
  foldl_eq_of_cons
    (g := fun m identifiers =>
      { m with socketIdentifier := m.socketIdentifier ++ identifiers })
    (by simp) (by simp [addSocketIdentifier]) identifiers m

theorem foldl_addEnvelopeFilterNamespace (nss : List UInt32) (m : SubscriptionRecordMessage) :
    nss.foldl addEnvelopeFilterNamespace m =
      { m with envelopeFilterNamespace := m.envelopeFilterNamespace ++ nss } :=
  foldl_eq_of_cons
    (g := fun m nss => { m with envelopeFilterNamespace := m.envelopeFilterNamespace ++ nss })
    (by simp) (by simp [addEnvelopeFilterNamespace]) nss m

theorem foldl_addEnvelopeFilterEnumeration (enumerations : List (UInt32 × UInt32))
    (m : SubscriptionRecordMessage) :
    enumerations.foldl addEnvelopeFilterEnumeration m =
      { m with
        envelopeFilterEnumerationNamespace :=
          m.envelopeFilterEnumerationNamespace ++ enumerations.map Prod.fst
        envelopeFilterEnumerationType :=
          m.envelopeFilterEnumerationType ++ enumerations.map Prod.snd } :=
  foldl_eq_of_cons
    (g := fun m enumerations =>
      { m with
        envelopeFilterEnumerationNamespace :=
          m.envelopeFilterEnumerationNamespace ++ enumerations.map Prod.fst
        envelopeFilterEnumerationType :=
          m.envelopeFilterEnumerationType ++ enumerations.map Prod.snd })
    (by simp) (by simp [addEnvelopeFilterEnumeration]) enumerations m

end SubscriptionRecordMessage

namespace SubscriptionInfo

open SubscriptionRecordMessage

/-! ## Writing and reading -/

/-- `ToProtocolBuffer`, into a record that can have contents. -/
def writeTo (s : SubscriptionInfo) (m : SubscriptionRecordMessage) :
    Except Exn SubscriptionRecordMessage :=
  let m := m.clear
  let typed : Except Exn SubscriptionRecordMessage := match s.type with
    | .envelope => .ok (m.setType .envelope)
    | .storeChange => .ok (m.setType .storeChange)
    | .unknown => .error (.generic "unhandled subscription type")
  match typed with
  | .error exn => .error exn
  | .ok m =>
    let m := s.paths.foldl addPath m
    let m := if s.luaCode.isEmpty then m else m.setLuaCode s.luaCode
    let m := s.socketIdentifiers.foldl addSocketIdentifier m
    let m := s.envelopeFilterNamespaces.foldl addEnvelopeFilterNamespace m
    .ok (s.envelopeFilterEnumerations.foldl addEnvelopeFilterEnumeration m)

/-- `SubscriptionInfo(SubscriptionRecord)`. A type that is not known is not set. -/
def ofMessage (m : SubscriptionRecordMessage) : Except Exn SubscriptionInfo :=
  let type := match m.type with
    | none => .unknown
    | some .envelope => .envelope
    | some .storeChange => .storeChange
  if m.envelopeFilterEnumerationNamespace.length ≠ m.envelopeFilterEnumerationType.length then
    .error (.generic
      "length of envelope_filter_enumeration and envelope_filter_type do not agree")
  else .ok {
    type := type
    id := m.id.getD []
    paths := m.path
    luaCode := m.luaCode.getD []
    socketIdentifiers := m.socketIdentifier
    envelopeFilterNamespaces := m.envelopeFilterNamespace
    envelopeFilterEnumerations :=
      m.envelopeFilterEnumerationNamespace.zip m.envelopeFilterEnumerationType }

/-- The record that is written for a subscription of a type. -/
def written (s : SubscriptionInfo) (type : SubscriptionRecordType) : SubscriptionRecordMessage where
  type := some type
  path := s.paths
  luaCode := if s.luaCode.isEmpty then none else some s.luaCode
  socketIdentifier := s.socketIdentifiers
  envelopeFilterNamespace := s.envelopeFilterNamespaces
  envelopeFilterEnumerationNamespace := s.envelopeFilterEnumerations.map Prod.fst
  envelopeFilterEnumerationType := s.envelopeFilterEnumerations.map Prod.snd

/-- What is written, whatever the record had before. -/
theorem writeTo_spec (s : SubscriptionInfo) (m : SubscriptionRecordMessage) :
    s.writeTo m = match s.type with
      | .envelope => .ok (s.written .envelope)
      | .storeChange => .ok (s.written .storeChange)
      | .unknown => .error (.generic "unhandled subscription type") := by
  rw [writeTo]
  simp only [foldl_addPath, foldl_addSocketIdentifier, foldl_addEnvelopeFilterNamespace,
    foldl_addEnvelopeFilterEnumeration, clear, setType, setLuaCode]
  cases s.type with
  | unknown => rfl
  | envelope =>
    dsimp only [written]
    split <;> simp
  | storeChange =>
    dsimp only [written]
    split <;> simp

/-- The two lists of a written record give the pairs back. -/
theorem ofMessage_setId_written (s : SubscriptionInfo) (type : SubscriptionRecordType)
    (id : Bytes) :
    ofMessage ((s.written type).setId id) = .ok { s with
      type := match type with
        | .envelope => .envelope
        | .storeChange => .storeChange
      id := id } := by
  have hcode : (if s.luaCode.isEmpty then none else some s.luaCode).getD [] = s.luaCode := by
    cases s.luaCode <;> rfl
  have hpairs : (s.envelopeFilterEnumerations.map Prod.fst).zip
      (s.envelopeFilterEnumerations.map Prod.snd) = s.envelopeFilterEnumerations := by
    rw [← List.unzip_fst, ← List.unzip_snd, List.zip_unzip]
  rw [ofMessage, if_neg (by simp [setId, written])]
  dsimp only [setId, written]
  rw [hcode, hpairs]
  cases type <;> rfl

/-- **Subscriptions survive their records**: whatever the record had before, nothing of it is left,
and the subscription is read back with the id that was set, its paths and filters in their order. A
record whose enumerations and namespaces are lists of different lengths is refused. -/
theorem record_codec :
    (∀ s : SubscriptionInfo, s.type ≠ .unknown → ∃ m, (∀ previous, s.writeTo previous = .ok m) ∧
      ∀ id, ofMessage (m.setId id) = .ok { s with id := id }) ∧
    ∀ m : SubscriptionRecordMessage,
      m.envelopeFilterEnumerationNamespace.length ≠ m.envelopeFilterEnumerationType.length →
      ∃ exn, ofMessage m = .error exn := by
  constructor
  · intro s hs
    cases htype : s.type with
    | unknown => exact absurd htype hs
    | envelope =>
      refine ⟨s.written .envelope, fun previous => by rw [writeTo_spec, htype], fun id => ?_⟩
      rw [ofMessage_setId_written, ← htype]
    | storeChange =>
      refine ⟨s.written .storeChange, fun previous => by rw [writeTo_spec, htype], fun id => ?_⟩
      rw [ofMessage_setId_written, ← htype]
  · intro m hm
    exact ⟨_, if_pos hm⟩

/-! ## Complete records -/

/-- What is written, with an id, is the record that the worker sends. -/
theorem writeTo_eq (s : SubscriptionInfo) (previous : SubscriptionRecordMessage) (id : Bytes) :
    (s.writeTo previous).map (·.setId id) =
      s.toProtocolBuffer.map fun record => SubscriptionRecordMessage.ofRecord (record id) := by
  rw [writeTo_spec, toProtocolBuffer]
  cases s.type <;> rfl

theorem ofMessage_eq (record : SubscriptionRecord) :
    ofMessage (SubscriptionRecordMessage.ofRecord record) = ofRecord record := by
  obtain ⟨id, type, path, code, identifiers, nss, enumerationNss, enumerationTypes⟩ := record
  cases type <;> rfl

end SubscriptionInfo

end Zippylog
