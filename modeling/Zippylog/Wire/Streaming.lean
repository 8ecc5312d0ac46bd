import Mathlib.Data.List.Forall2
import Mathlib.Data.List.TakeDrop

/-!
# Streaming parsers

A parser takes a value off the front of its input and returns it with what is
left. The parsers of wire formats are *streaming*: what they consumed alone
determined the value, so any other continuation would have given the same
result. Two consequences carry the rest of the development:

- a streaming parser never accepts a proper prefix of an item it accepts
  (`Streaming.item_prefix`), so truncated input is noticed;
- an input that is a concatenation of items and is cut between two of them
  reads as the items before the cut (`Items.parseAll_boundary`), and cut inside
  one of them it is refused, unless the format lets its last item be cut short
  (`Items.parseAll_inside`).

`parseAll` reads a whole input. Its second argument is what such a format makes
of an input that ends inside an item; for most formats it is `fun _ => none`.
-/

namespace Wire

universe u v w

variable {β : Type u} {α : Type v} {γ : Type w}

/-- A parser: the value at the front of the input, and the input after it. -/
abbrev Parser (β : Type u) (α : Type v) := List β → Option (α × List β)

/-- `us` is an encoding of `a`: `p` reads exactly `us`, whatever follows. -/
def Item (p : Parser β α) (us : List β) (a : α) : Prop :=
  ∀ t, p (us ++ t) = some (a, t)

/-- A successful read is decided by the part of the input it consumed. -/
def Streaming (p : Parser β α) : Prop :=
  ∀ ⦃xs a r⦄, p xs = some (a, r) → ∃ us, xs = us ++ r ∧ Item p us a

/-- A parser that cannot succeed without consuming input. -/
def Progress (p : Parser β α) : Prop :=
  p [] = none

namespace Parser

/-- Run `p`, then `f` on its value. -/
def bind (p : Parser β α) (f : α → Parser β γ) : Parser β γ :=
  fun xs => (p xs).bind fun ar => f ar.1 ar.2

/-- Keep the values that `f` accepts. -/
def filterMap (f : α → Option γ) (p : Parser β α) : Parser β γ :=
  fun xs => (p xs).bind fun ar => (f ar.1).map fun c => (c, ar.2)

/-- The next `n` symbols. -/
def take (n : Nat) : Parser β (List β) :=
  fun xs => if n ≤ xs.length then some (xs.take n, xs.drop n) else none

/-- Accept only values encoded in at most `k` symbols. -/
def within (k : Nat) (p : Parser β α) : Parser β α :=
  fun xs => (p xs).bind fun ar =>
    if xs.length - ar.2.length ≤ k then some ar else none

/-- Read a value together with the number of symbols it took. -/
def counted (p : Parser β α) : Parser β (Nat × α) :=
  fun xs => (p xs).map fun ar => ((xs.length - ar.2.length, ar.1), ar.2)

/-- A recursive parser that may use as much fuel as there is input. -/
def fueled (p : Nat → Parser β α) : Parser β α := fun xs => p xs.length xs

/-- `parseAll` with a bound on the number of items. -/
def parseAllAux (p : Parser β α) (last : List β → Option α) : Nat → List β → Option (List α)
  | _, [] => some []
  | 0, _ :: _ => none
  | n + 1, x :: xs =>
    match p (x :: xs) with
    | some ar => (parseAllAux p last n ar.2).map (ar.1 :: ·)
    | none => (last (x :: xs)).map fun a => [a]

/-- Items up to the end of the input. Where the input goes on with no item, `last`
decides what the rest of it is, if it is anything. -/
def parseAll (p : Parser β α) (last : List β → Option α) (xs : List β) : Option (List α) :=
  parseAllAux p last xs.length xs

theorem bind_eq_some_iff {p : Parser β α} {f : α → Parser β γ} {xs r : List β} {c : γ} :
    p.bind f xs = some (c, r) ↔ ∃ a s, p xs = some (a, s) ∧ f a s = some (c, r) := by
  rw [bind, Option.bind_eq_some_iff, Prod.exists]

theorem filterMap_eq_some_iff {p : Parser β α} {f : α → Option γ} {xs r : List β} {c : γ} :
    p.filterMap f xs = some (c, r) ↔ ∃ a, p xs = some (a, r) ∧ f a = some c := by
  simp only [filterMap, Option.bind_eq_some_iff, Option.map_eq_some_iff, Prod.exists,
    Prod.mk.injEq]
  constructor
  · rintro ⟨a, s, hp, c', hf, rfl, rfl⟩
    exact ⟨a, hp, hf⟩
  · rintro ⟨a, hp, hf⟩
    exact ⟨a, r, hp, c, hf, rfl, rfl⟩

theorem within_eq_some_iff {p : Parser β α} {k : Nat} {xs r : List β} {a : α} :
    p.within k xs = some (a, r) ↔ p xs = some (a, r) ∧ xs.length - r.length ≤ k := by
  unfold within
  cases p xs with
  | none => simp
  | some bs =>
    rw [Option.bind_some, Option.ite_none_right_eq_some, and_comm]
    refine and_congr_right fun h => ?_
    rw [Option.some.inj h]

/-- What a parser took is what is missing of the text behind it. -/
theorem counted_eq_some_iff {p : Parser β α} {n : Nat} {xs r : List β} {a : α} :
    p.counted xs = some ((n, a), r) ↔ p xs = some (a, r) ∧ n = xs.length - r.length := by
  unfold counted
  rw [Option.map_eq_some_iff]
  constructor
  · rintro ⟨bs, hbs, he⟩
    cases he
    exact ⟨hbs, rfl⟩
  · rintro ⟨hp, rfl⟩
    exact ⟨(a, r), hp, rfl⟩

end Parser

/-! ## Items -/

theorem Item.apply {p : Parser β α} {us : List β} {a : α} (h : Item p us a) :
    p us = some (a, []) := by
  simpa using h []

theorem Item.ne_nil {p : Parser β α} (hp : Progress p) {us : List β} {a : α}
    (h : Item p us a) : us ≠ [] := by
  rintro rfl
  have := h.apply
  rw [hp] at this
  cases this

theorem Item.length_pos {p : Parser β α} (hp : Progress p) {us : List β} {a : α}
    (h : Item p us a) : 0 < us.length :=
  List.length_pos_iff.mpr (h.ne_nil hp)

/-- Two items at the front of one input are the same item. -/
theorem Item.unique {p : Parser β α} {us vs s t : List β} {a b : α}
    (hu : Item p us a) (hv : Item p vs b) (h : us ++ s = vs ++ t) :
    us = vs ∧ a = b ∧ s = t := by
  have h1 := hu s
  rw [h, hv t] at h1
  simp only [Option.some.injEq, Prod.mk.injEq] at h1
  obtain ⟨rfl, rfl⟩ := h1
  exact ⟨List.append_cancel_right h, rfl, rfl⟩

theorem Streaming.length_le {p : Parser β α} (hs : Streaming p) {xs : List β} {a : α}
    {r : List β} (h : p xs = some (a, r)) : r.length ≤ xs.length := by
  obtain ⟨us, rfl, -⟩ := hs h
  rw [List.length_append]
  exact Nat.le_add_left _ _

theorem Streaming.length_lt {p : Parser β α} (hs : Streaming p) (hp : Progress p) {xs : List β}
    {a : α} {r : List β} (h : p xs = some (a, r)) : r.length < xs.length := by
  obtain ⟨us, rfl, hi⟩ := hs h
  have := hi.length_pos hp
  rw [List.length_append]
  omega

/-- A proper prefix of an item is refused. -/
theorem Streaming.item_prefix {p : Parser β α} (hs : Streaming p) {vs ws : List β} {a : α}
    (h : Item p (vs ++ ws) a) (hw : ws ≠ []) : p vs = none := by
  cases hp : p vs with
  | none => rfl
  | some br =>
    obtain ⟨b, r⟩ := br
    obtain ⟨us, hvs, hi⟩ := hs hp
    have h1 := (Item.unique hi h (s := r ++ ws) (t := []) (by simp [hvs])).2.2
    exact absurd (List.append_eq_nil_iff.mp h1).2 hw

theorem Streaming.item_take {p : Parser β α} (hs : Streaming p) {us : List β} {a : α}
    (h : Item p us a) {k : Nat} (hk : k < us.length) : p (us.take k) = none := by
  have hsplit : Item p (us.take k ++ us.drop k) a := by rwa [List.take_append_drop]
  refine hs.item_prefix hsplit fun hd => ?_
  have := List.drop_eq_nil_iff.mp hd
  omega

/-- What fails on an input fails on its prefixes. -/
theorem Streaming.take_eq_none {p : Parser β α} (hs : Streaming p) {xs : List β}
    (h : p xs = none) (k : Nat) : p (xs.take k) = none := by
  cases hp : p (xs.take k) with
  | none => rfl
  | some ar =>
    obtain ⟨us, hus, hi⟩ := hs hp
    rw [← List.take_append_drop k xs, hus, List.append_assoc, hi] at h
    cases h

/-! ## Closure properties -/

/-- Taking bytes does not look behind them. -/
theorem streaming_take (n : Nat) : Streaming (Parser.take (β := β) n) := by
  intro xs a r h
  unfold Parser.take at h
  split at h
  · rename_i hn
    simp only [Option.some.injEq, Prod.mk.injEq] at h
    obtain ⟨rfl, rfl⟩ := h
    refine ⟨xs.take n, (List.take_append_drop n xs).symm, fun t => ?_⟩
    have hl : (xs.take n).length = n := List.length_take_of_le hn
    rw [Parser.take, if_pos (by rw [List.length_append]; omega)]
    rw [List.take_left' hl, List.drop_left' hl]
  · cases h

theorem streaming_none : Streaming (fun _ => none : Parser β α) := by
  intro xs a r h
  cases h

theorem Streaming.bind {p : Parser β α} {f : α → Parser β γ} (hp : Streaming p)
    (hf : ∀ a, Streaming (f a)) : Streaming (p.bind f) := by
  intro xs c r h
  obtain ⟨a, s, hps, hfs⟩ := Parser.bind_eq_some_iff.mp h
  obtain ⟨us, rfl, hu⟩ := hp hps
  obtain ⟨vs, rfl, hv⟩ := hf a hfs
  refine ⟨us ++ vs, (List.append_assoc ..).symm, fun t => ?_⟩
  rw [List.append_assoc, Parser.bind, hu (vs ++ t)]
  exact hv t

theorem Streaming.filterMap {p : Parser β α} (hp : Streaming p) (f : α → Option γ) :
    Streaming (p.filterMap f) := by
  intro xs c r h
  obtain ⟨a, hps, hfa⟩ := Parser.filterMap_eq_some_iff.mp h
  obtain ⟨us, rfl, hu⟩ := hp hps
  exact ⟨us, rfl, fun t => Parser.filterMap_eq_some_iff.mpr ⟨a, hu t, hfa⟩⟩

theorem Streaming.counted {p : Parser β α} (hp : Streaming p) : Streaming p.counted := by
  intro xs c r h
  obtain ⟨hps, hn⟩ := Parser.counted_eq_some_iff.mp h
  obtain ⟨us, rfl, hu⟩ := hp hps
  refine ⟨us, rfl, fun t => Parser.counted_eq_some_iff.mpr ⟨hu t, ?_⟩⟩
  rw [List.length_append] at hn ⊢
  omega

/-- What a recursive parser reads does not depend on the fuel, as long as there is
one unit for each symbol of the item. -/
theorem Streaming.fueled {p : Nat → Parser β α} (hp : ∀ n, Streaming (p n))
    (hfuel : ∀ {n us a}, Item (p n) us a → ∀ m, us.length ≤ m → Item (p m) us a) :
    Streaming (Parser.fueled p) := by
  intro xs a r h
  obtain ⟨us, rfl, hu⟩ := hp _ h
  refine ⟨us, rfl, fun t => ?_⟩
  exact hfuel hu (us ++ t).length (by simp) t

/-- Nor does a parser that is given a limit. -/
theorem Streaming.within {p : Parser β α} (hp : Streaming p) (k : Nat) :
    Streaming (p.within k) := by
  intro xs a r h
  unfold Parser.within at h
  obtain ⟨⟨b, s⟩, hps, hk⟩ := Option.bind_eq_some_iff.mp h
  obtain ⟨us, rfl, hu⟩ := hp hps
  split at hk
  · rename_i hle
    simp only [Option.some.injEq, Prod.mk.injEq] at hk
    obtain ⟨rfl, rfl⟩ := hk
    refine ⟨us, rfl, fun t => ?_⟩
    rw [Parser.within, hu t]
    show (if (us ++ t).length - t.length ≤ k then _ else _) = _
    rw [if_pos (by simp only [List.length_append] at hle ⊢; omega)]
  · cases hk

theorem item_take_self (us : List β) : Item (Parser.take us.length) us us := by
  intro t
  rw [Parser.take, if_pos (by simp), List.take_left, List.drop_left]

theorem Item.bind {p : Parser β α} {f : α → Parser β γ} {us vs : List β} {a : α} {c : γ}
    (hu : Item p us a) (hv : Item (f a) vs c) : Item (p.bind f) (us ++ vs) c := by
  intro t
  rw [List.append_assoc, Parser.bind, hu (vs ++ t)]
  exact hv t

theorem Item.filterMap {p : Parser β α} {f : α → Option γ} {us : List β} {a : α} {c : γ}
    (hu : Item p us a) (hc : f a = some c) : Item (p.filterMap f) us c :=
  fun t => Parser.filterMap_eq_some_iff.mpr ⟨a, hu t, hc⟩

theorem Item.counted {p : Parser β α} {us : List β} {a : α} (hu : Item p us a) :
    Item p.counted us (us.length, a) := by
  intro t
  refine Parser.counted_eq_some_iff.mpr ⟨hu t, ?_⟩
  rw [List.length_append]
  omega

theorem Item.fueled {p : Nat → Parser β α} {us : List β} {a : α}
    (hu : ∀ n, us.length ≤ n → Item (p n) us a) : Item (Parser.fueled p) us a :=
  fun t => hu (us ++ t).length (by simp) t

theorem Item.within {p : Parser β α} {us : List β} {a : α} {k : Nat}
    (hu : Item p us a) (hk : us.length ≤ k) : Item (p.within k) us a := by
  intro t
  refine Parser.within_eq_some_iff.mpr ⟨hu t, ?_⟩
  rw [List.length_append]
  omega

/-! ## Sequences of items -/

/-- The pieces `uss` encode the values `as`, one by one. -/
abbrev Items (p : Parser β α) (uss : List (List β)) (as : List α) : Prop :=
  List.Forall₂ (Item p) uss as

/-- `k` falls between two of the pieces `uss`, or at an end. -/
def Boundary (uss : List (List β)) (k : Nat) : Prop :=
  ∃ j, k = (uss.take j).flatten.length

theorem boundary_zero (uss : List (List β)) : Boundary uss 0 := ⟨0, rfl⟩

/-- `k` falls `m` symbols into the piece `us`, which is number `j` of `uss`. -/
structure Inside (uss : List (List β)) (k j : Nat) (us : List β) (m : Nat) : Prop where
  piece : uss[j]? = some us
  pos : 0 < m
  lt : m < us.length
  eq : k = (uss.take j).flatten.length + m

/-- A cut falls between two pieces or inside one. -/
theorem boundary_or_inside : ∀ {uss : List (List β)} {k : Nat}, k ≤ uss.flatten.length →
    Boundary uss k ∨ ∃ j us m, Inside uss k j us m
  | [], k, hk => by
    rw [List.flatten_nil, List.length_nil, Nat.le_zero] at hk
    subst hk
    exact .inl (boundary_zero _)
  | us :: uss, k, hk => by
    rcases Nat.eq_zero_or_pos k with rfl | hk0
    · exact .inl (boundary_zero _)
    by_cases hlt : k < us.length
    · exact .inr ⟨0, us, k, rfl, hk0, hlt, by simp⟩
    · rw [List.flatten_cons, List.length_append] at hk
      have hle : k - us.length ≤ uss.flatten.length := by omega
      rcases boundary_or_inside hle with ⟨j, hj⟩ | ⟨j, vs, m, hi⟩
      · refine .inl ⟨j + 1, ?_⟩
        rw [List.take_succ_cons, List.flatten_cons, List.length_append]
        omega
      · refine .inr ⟨j + 1, vs, m, hi.piece, hi.pos, hi.lt, ?_⟩
        have := hi.eq
        rw [List.take_succ_cons, List.flatten_cons, List.length_append]
        omega

/-- A cut inside a piece leaves the pieces before it and the front of that piece. -/
theorem Inside.take_flatten {uss : List (List β)} {k j m : Nat} {us : List β}
    (h : Inside uss k j us m) : uss.flatten.take k = (uss.take j).flatten ++ us.take m := by
  obtain ⟨hj, hus⟩ := List.getElem?_eq_some_iff.mp h.piece
  have hsplit : uss.flatten = (uss.take j).flatten ++ (us ++ (uss.drop (j + 1)).flatten) := by
    conv_lhs => rw [← List.take_append_drop j uss, List.drop_eq_getElem_cons hj, hus]
    rw [List.flatten_append, List.flatten_cons]
  rw [hsplit, h.eq, List.take_length_add_append, List.take_append_of_le_length (Nat.le_of_lt h.lt)]

theorem length_flatten_take_le (uss : List (List β)) {i j : Nat} (h : i ≤ j) :
    (uss.take i).flatten.length ≤ (uss.take j).flatten.length := by
  obtain ⟨t, ht⟩ : uss.take i <+: uss.take j := List.take_prefix_take_left h
  rw [← ht, List.flatten_append, List.length_append]
  exact Nat.le_add_right _ _

theorem Inside.length_flatten_succ {uss : List (List β)} {k j m : Nat} {us : List β}
    (h : Inside uss k j us m) :
    (uss.take (j + 1)).flatten.length = (uss.take j).flatten.length + us.length := by
  rw [List.take_add_one, h.piece, List.flatten_append, List.length_append]
  simp

/-- A cut inside a piece is not between two. -/
theorem Inside.not_boundary {uss : List (List β)} {k j m : Nat} {us : List β}
    (h : Inside uss k j us m) : ¬ Boundary uss k := by
  rintro ⟨i, hi⟩
  have hsucc := h.length_flatten_succ
  have heq := h.eq
  have hpos := h.pos
  have hlt := h.lt
  rcases Nat.lt_or_ge j i with hji | hij
  · have hle : (uss.take (j + 1)).flatten.length ≤ _ := length_flatten_take_le uss hji
    omega
  · have hle := length_flatten_take_le uss hij
    omega

/-- A cut is inside one piece only. -/
theorem Inside.unique {uss : List (List β)} {k i j m n : Nat} {us vs : List β}
    (h : Inside uss k i us m) (h' : Inside uss k j vs n) : us = vs ∧ m = n := by
  have hsucc := h.length_flatten_succ
  have hsucc' := h'.length_flatten_succ
  have heq := h.eq
  have heq' := h'.eq
  have hlt := h.lt
  have hlt' := h'.lt
  obtain hij | rfl | hji := Nat.lt_trichotomy i j
  · have hle : (uss.take (i + 1)).flatten.length ≤ _ := length_flatten_take_le uss hij
    omega
  · obtain rfl : us = vs := Option.some.inj (h.piece.symm.trans h'.piece)
    exact ⟨rfl, by omega⟩
  · have hle : (uss.take (j + 1)).flatten.length ≤ _ := length_flatten_take_le uss hji
    omega

/-! ## Whole inputs -/

section ParseAll

variable {p : Parser β α} {last : List β → Option α}

@[simp] theorem parseAll_nil : Parser.parseAll p last [] = some [] := rfl

/-- The bound on the number of items does not matter once it is large enough. -/
theorem Streaming.parseAllAux_eq (hs : Streaming p) (hp : Progress p) :
    ∀ {n m : Nat} {xs : List β}, xs.length ≤ n → xs.length ≤ m →
      Parser.parseAllAux p last n xs = Parser.parseAllAux p last m xs
  | _, _, [], _, _ => by rw [Parser.parseAllAux, Parser.parseAllAux]
  | n + 1, m + 1, x :: xs, hn, hm => by
    rw [Parser.parseAllAux, Parser.parseAllAux]
    cases hx : p (x :: xs) with
    | none => rfl
    | some ar =>
      have hlt := hs.length_lt hp hx
      rw [List.length_cons] at hlt hn hm
      show (Parser.parseAllAux p last n ar.2).map _ = (Parser.parseAllAux p last m ar.2).map _
      rw [hs.parseAllAux_eq hp (n := n) (m := m) (by omega) (by omega)]

/-- One step over a leading item. -/
theorem Item.parseAll_append (hs : Streaming p) (hp : Progress p) {us : List β} {a : α}
    (h : Item p us a) (t : List β) :
    Parser.parseAll p last (us ++ t) = (Parser.parseAll p last t).map (a :: ·) := by
  have hlen := h.length_pos hp
  unfold Parser.parseAll
  cases hc : us ++ t with
  | nil => exact absurd (List.append_eq_nil_iff.mp hc).1 (h.ne_nil hp)
  | cons x xs =>
    have hxs : t.length ≤ xs.length := by
      have := congrArg List.length hc
      rw [List.length_append, List.length_cons] at this
      omega
    rw [List.length_cons, Parser.parseAllAux, ← hc, h t]
    show (Parser.parseAllAux p last xs.length t).map _ = _
    rw [hs.parseAllAux_eq hp hxs (Nat.le_refl _)]

/-- An input that goes on with no item is what `last` makes of it. -/
theorem parseAll_of_none {xs : List β} (h : p xs = none) (hne : xs ≠ []) :
    Parser.parseAll p last xs = (last xs).map fun a => [a] := by
  cases xs with
  | nil => exact absurd rfl hne
  | cons x xs =>
    unfold Parser.parseAll
    rw [List.length_cons, Parser.parseAllAux, h]

theorem Items.parseAll_append (hs : Streaming p) (hp : Progress p) {uss : List (List β)}
    {as : List α} (h : Items p uss as) (t : List β) :
    Parser.parseAll p last (uss.flatten ++ t) = (Parser.parseAll p last t).map (as ++ ·) := by
  induction h with
  | nil => simp
  | @cons us a uss as hi _ ih =>
    rw [List.flatten_cons, List.append_assoc, hi.parseAll_append hs hp, ih, Option.map_map]
    rfl

/-- A concatenation of items reads as their values. -/
theorem Items.parseAll (hs : Streaming p) (hp : Progress p) {uss : List (List β)} {as : List α}
    (h : Items p uss as) : Parser.parseAll p last uss.flatten = some as := by
  simpa using h.parseAll_append hs hp []

/-- Cut between two items, the input reads as the values before the cut. -/
theorem Items.parseAll_boundary (hs : Streaming p) (hp : Progress p) {uss : List (List β)}
    {as : List α} (h : Items p uss as) (j : Nat) :
    Parser.parseAll p last (uss.take j).flatten = some (as.take j) :=
  Items.parseAll hs hp (List.forall₂_take j h)

/-- Cut inside an item, it reads as the values before that item and what `last`
makes of the front of it. -/
theorem Items.parseAll_inside (hs : Streaming p) (hp : Progress p) {uss : List (List β)}
    {as : List α} (h : Items p uss as) {k j m : Nat} {us : List β} (hk : Inside uss k j us m) :
    Parser.parseAll p last (uss.flatten.take k) =
      (last (us.take m)).map fun a => as.take j ++ [a] := by
  obtain ⟨a, hi⟩ : ∃ a, Item p us a := by
    obtain ⟨hj, hus⟩ := List.getElem?_eq_some_iff.mp hk.piece
    have hja : j < as.length := h.length_eq ▸ hj
    have hi := (List.forall₂_iff_get.mp h).2 j hj hja
    rw [List.get_eq_getElem, hus] at hi
    exact ⟨_, hi⟩
  have hnone : p (us.take m) = none := hs.item_take hi hk.lt
  have hne : us.take m ≠ [] := by
    intro hnil
    have hlen := congrArg List.length hnil
    rw [List.length_take, List.length_nil] at hlen
    have hpos := hk.pos
    have hlt := hk.lt
    omega
  rw [hk.take_flatten, Items.parseAll_append hs hp (List.forall₂_take j h),
    parseAll_of_none hnone hne, Option.map_map]
  rfl

/-- What `parseAll` accepts is a concatenation of items, and perhaps a last piece
that is none. -/
theorem Streaming.items_of_parseAll (hs : Streaming p) (hp : Progress p) :
    ∀ {n : Nat} {xs : List β} {as : List α}, xs.length ≤ n →
      Parser.parseAll p last xs = some as →
      ∃ uss bs, Items p uss bs ∧ (xs = uss.flatten ∧ as = bs ∨
        ∃ rest a, rest ≠ [] ∧ p rest = none ∧ last rest = some a ∧
          xs = uss.flatten ++ rest ∧ as = bs ++ [a])
  | _, [], as, _, h => by
    cases h
    exact ⟨[], [], .nil, .inl ⟨rfl, rfl⟩⟩
  | n + 1, x :: xs, as, hn, h => by
    cases hx : p (x :: xs) with
    | none =>
      rw [parseAll_of_none hx (List.cons_ne_nil x xs)] at h
      obtain ⟨a, ha, rfl⟩ := Option.map_eq_some_iff.mp h
      exact ⟨[], [], .nil, .inr ⟨x :: xs, a, List.cons_ne_nil x xs, hx, ha, rfl, rfl⟩⟩
    | some ar =>
      obtain ⟨a, r⟩ := ar
      have hlt := hs.length_lt hp hx
      obtain ⟨us, hus, hi⟩ := hs hx
      rw [hus, hi.parseAll_append hs hp] at h
      obtain ⟨as, has, rfl⟩ := Option.map_eq_some_iff.mp h
      obtain ⟨uss, bs, hits, hrest⟩ := hs.items_of_parseAll hp (n := n) (by omega) has
      refine ⟨us :: uss, a :: bs, .cons hi hits, ?_⟩
      rcases hrest with ⟨rfl, rfl⟩ | ⟨rest, c, hne, hnone, hlast, rfl, rfl⟩
      · exact .inl ⟨hus, rfl⟩
      · exact .inr ⟨rest, c, hne, hnone, hlast, by rw [hus, List.flatten_cons, List.append_assoc],
          rfl⟩

end ParseAll

end Wire
