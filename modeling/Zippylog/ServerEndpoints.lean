import Mathlib.Data.List.Nodup
import Zippylog.Protocol.Messages

/-!
# The endpoints of a server

`FormatUUID`, and the endpoints inside the process that the constructor of `Server` makes of it. A
server talks to its workers, its devices and its plugins over sockets with endpoints of their own,
and all servers of a process share one context, so no two may bind the same endpoint.

- A UUID is any 16 bytes, printed as hexadecimal digits in groups;
- `formatUUID_injective`: a UUID can be told from its text;
- `endpoint_eq_iff`: no endpoint is made twice, neither by one server nor by two. The names behind
  the UUID are different, and all texts in front of it have one length.
-/

namespace Zippylog

open Wire

namespace Platform

/-- `UUID`. -/
abbrev UUID := { data : Bytes // data.length = 16 }

/-- A digit of `%x`. -/
def hexDigit (n : Nat) : UInt8 := .ofNat (if n < 10 then 48 + n else 87 + n)

/-- `%02x`. -/
def hexByte (b : UInt8) : Bytes := [hexDigit (b.toNat / 16), hexDigit (b.toNat % 16)]

def hexBytes (bs : Bytes) : Bytes := bs.flatMap hexByte

/-- The character `-`. -/
def uuidDash : UInt8 := 45

/-- `FormatUUID`. -/
def formatUUID (u : UUID) : Bytes :=
  hexBytes (u.val.take 4) ++ uuidDash :: hexBytes ((u.val.drop 4).take 2) ++
    uuidDash :: hexBytes ((u.val.drop 6).take 2) ++
    uuidDash :: hexBytes ((u.val.drop 8).take 2) ++ uuidDash :: hexBytes (u.val.drop 10)

/-! ## Texts of bytes -/

theorem hexDigit_injective : ∀ n < 16, ∀ m < 16, hexDigit n = hexDigit m → n = m := by
  decide

theorem hexDigit_ne_dash : ∀ n < 16, hexDigit n ≠ uuidDash := by
  decide

theorem hexByte_injective {b b' : UInt8} (h : hexByte b = hexByte b') : b = b' := by
  have hb := b.toNat_lt
  have hb' := b'.toNat_lt
  obtain ⟨hhigh, hrest⟩ := List.cons.inj h
  obtain ⟨hlow, -⟩ := List.cons.inj hrest
  have hdiv := hexDigit_injective _ (by omega) _ (by omega) hhigh
  have hmod := hexDigit_injective _ (by omega) _ (by omega) hlow
  exact UInt8.toNat.inj (by omega)

theorem hexBytes_injective (bs : Bytes) : ∀ bs' : Bytes, hexBytes bs = hexBytes bs' → bs = bs' := by
  induction bs with
  | nil =>
    intro bs' h
    cases bs' with
    | nil => rfl
    | cons b' bs' => cases h
  | cons b bs ih =>
    intro bs' h
    cases bs' with
    | nil => cases h
    | cons b' bs' =>
      obtain ⟨hbyte, hbytes⟩ :=
        List.append_inj (show hexByte b ++ hexBytes bs = hexByte b' ++ hexBytes bs' from h) rfl
      rw [hexByte_injective hbyte, ih bs' hbytes]

theorem dash_notMem_hexBytes (bs : Bytes) : uuidDash ∉ hexBytes bs := by
  intro h
  obtain ⟨b, -, hb⟩ := List.mem_flatMap.mp h
  have hlt := b.toNat_lt
  rcases List.mem_cons.mp hb with hb | hb
  · exact hexDigit_ne_dash _ (by omega) hb.symm
  · exact hexDigit_ne_dash _ (by omega) (List.mem_singleton.mp hb).symm

theorem length_hexBytes (bs : Bytes) : (hexBytes bs).length = 2 * bs.length := by
  induction bs with
  | nil => rfl
  | cons b bs ih =>
    rw [hexBytes, List.flatMap_cons, List.length_append, List.length_cons, Nat.mul_succ,
      Nat.add_comm]
    exact congrArg (· + 2) ih

/-! ## Texts of UUIDs -/

/-- The bytes of a UUID in the groups of its text. -/
theorem groups_eq (u : Bytes) : u.take 4 ++ (u.drop 4).take 2 ++ (u.drop 6).take 2 ++
    (u.drop 8).take 2 ++ u.drop 10 = u := by
  have hgroup : ∀ n : Nat, u.take n ++ (u.drop n).take 2 = u.take (n + 2) := fun n =>
    List.take_add.symm
  rw [hgroup, hgroup, hgroup, List.take_append_drop]

/-- The text without its dashes. -/
theorem filter_formatUUID (u : UUID) :
    (formatUUID u).filter (· ≠ uuidDash) = hexBytes u.val := by
  have hkeep : ∀ bs : Bytes, (hexBytes bs).filter (· ≠ uuidDash) = hexBytes bs := fun bs =>
    List.filter_eq_self.mpr fun c hc =>
      decide_eq_true fun heq => dash_notMem_hexBytes bs (heq ▸ hc)
  have hdash : ∀ bs : Bytes, (uuidDash :: hexBytes bs).filter (· ≠ uuidDash) = hexBytes bs :=
    fun bs => (List.filter_cons_of_neg (by decide)).trans (hkeep bs)
  rw [formatUUID, List.filter_append, List.filter_append, List.filter_append, List.filter_append,
    hkeep, hdash, hdash, hdash, hdash]
  conv_rhs => rw [← groups_eq u.val]
  simp only [hexBytes, List.flatMap_append]

/-- **A UUID can be told from its text**. -/
theorem formatUUID_injective {u u' : UUID} (h : formatUUID u = formatUUID u') : u = u' := by
  have hfilter := congrArg (List.filter (· ≠ uuidDash)) h
  rw [filter_formatUUID, filter_formatUUID] at hfilter
  exact Subtype.ext (hexBytes_injective _ _ hfilter)

/-- `s.assign(&buf[0], 36)` is all of it. -/
theorem length_formatUUID (u : UUID) : (formatUUID u).length = 36 := by
  have hlength := u.property
  simp only [formatUUID, List.length_append, List.length_cons, length_hexBytes, List.length_take,
    List.length_drop, hlength]
  rfl

end Platform

namespace Server

open Platform

/-! ## The endpoints -/

/-- The endpoints that the constructor of `Server` sets. -/
inductive Endpoint where
  | worker
  | streaming
  | logger
  | workerSubscriptions
  | streamingSubscriptions
  | workerStreamingNotify
  | streamingStreamingNotify
  | storeWriterEnvelopePull
  | storeWriterEnvelopeRep
  | storeChangesInput
  | storeChangesOutput
  deriving DecidableEq

/-- What is behind the UUID. -/
def Endpoint.name : Endpoint → String
  | worker => "workers"
  | streaming => "streaming"
  | logger => "logger"
  | workerSubscriptions => "worker_subscriptions"
  | streamingSubscriptions => "streaming_subscriptions"
  | workerStreamingNotify => "worker_streaming_notify"
  | streamingStreamingNotify => "streaming_notify"
  | storeWriterEnvelopePull => "store_writer_envelope_pull"
  | storeWriterEnvelopeRep => "store_writer_envelope_rep"
  | storeChangesInput => "store_changes_input"
  | storeChangesOutput => "store_changes_output"

/-- An endpoint of the server with the UUID. -/
def endpoint (u : UUID) (e : Endpoint) : Bytes :=
  str "inproc://" ++ formatUUID u ++ str e.name

/-- In the order of the constructor. -/
def Endpoint.all : List Endpoint :=
  [.worker, .streaming, .logger, .workerSubscriptions, .streamingSubscriptions,
    .workerStreamingNotify, .streamingStreamingNotify, .storeWriterEnvelopePull,
    .storeWriterEnvelopeRep, .storeChangesInput, .storeChangesOutput]

theorem Endpoint.mem_all (e : Endpoint) : e ∈ all := by
  cases e <;> decide

theorem nodup_names : (Endpoint.all.map fun e => str e.name).Nodup := by
  decide +kernel

theorem str_name_injective {e e' : Endpoint} (h : str e.name = str e'.name) : e = e' :=
  List.inj_on_of_nodup_map nodup_names e.mem_all e'.mem_all h

/-- **No endpoint is made twice**: for any two UUIDs and any two of the eleven endpoints the texts
are equal only if both are. So servers of different UUIDs have no endpoint in common, and one server
has eleven. -/
theorem endpoint_eq_iff (u u' : UUID) (e e' : Endpoint) :
    endpoint u e = endpoint u' e' ↔ u = u' ∧ e = e' := by
  constructor
  · intro h
    rw [endpoint, endpoint, List.append_assoc, List.append_assoc] at h
    have hbehind := List.append_cancel_left h
    obtain ⟨huuid, hname⟩ := List.append_inj hbehind
      ((length_formatUUID u).trans (length_formatUUID u').symm)
    exact ⟨formatUUID_injective huuid, str_name_injective hname⟩
  · rintro ⟨rfl, rfl⟩
    rfl

end Server

end Zippylog
