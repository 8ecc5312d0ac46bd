import Mathlib.Data.List.Basic

/-!
# Words behind separators

A list of words is spelled with a separator in front of each, and no word has a separator in it. Two
texts that start with spellings can be equal without the words being so, as the last word of either
may go on in what is behind it. Where one spelling goes on like another, the words of the one start
with those of the other, or a word is cut somewhere:

- `spell_append`: words that are added are spelled behind the others;
- `Cut`: a word of the second list is one of the first, and then the beginning of what is behind the
  first;
- `prefix_or_cut`: what else there can be when two texts that start with spellings are equal.
-/

namespace Wire

universe u

variable {α : Type u} {separator : α} {words words' : List (List α)} {rest rest' : List α}

/-- A text splits in one way at the first element that is a separator. -/
theorem first_unique (p : α → Bool) {q q' r r' : List α} {c c' : α} (hq : ∀ x ∈ q, p x = false)
    (hq' : ∀ x ∈ q', p x = false) (hc : p c = true) (hc' : p c' = true)
    (h : q ++ c :: r = q' ++ c' :: r') : q = q' ∧ c = c' ∧ r = r' := by
  induction q generalizing q' with
  | nil =>
    cases q' with
    | nil => exact ⟨rfl, List.cons.inj h⟩
    | cons x q' =>
      obtain ⟨rfl, -⟩ := List.cons.inj h
      exact absurd hc (by simp [hq' c])
  | cons x q ih =>
    cases q' with
    | nil =>
      obtain ⟨rfl, -⟩ := List.cons.inj h
      exact absurd hc' (by simp [hq x])
    | cons y q' =>
      obtain ⟨rfl, hrest⟩ := List.cons.inj h
      obtain ⟨rfl, hc, hr⟩ := ih (fun x hx => hq x (List.mem_cons_of_mem _ hx))
        (fun x hx => hq' x (List.mem_cons_of_mem _ hx)) hrest
      exact ⟨rfl, hc, hr⟩

/-- The words, each behind a separator. -/
def spell (separator : α) (words : List (List α)) : List α :=
  words.flatMap (separator :: ·)

@[simp] theorem spell_nil (separator : α) : spell separator [] = [] := rfl

@[simp] theorem spell_cons (separator : α) (w : List α) (ws : List (List α)) :
    spell separator (w :: ws) = separator :: (w ++ spell separator ws) := rfl

theorem spell_append (separator : α) (ws ws' : List (List α)) :
    spell separator (ws ++ ws') = spell separator ws ++ spell separator ws' :=
  List.flatMap_append

/-- The text begins with what a word of the second list has behind one of the first. -/
def Cut (words words' : List (List α)) (text : List α) : Prop :=
  ∃ w ∈ words, ∃ m, m ≠ [] ∧ w ++ m ∈ words' ∧ m <+: text

theorem Cut.mono {ws ws' : List (List α)} (h : Cut words words' rest) (hws : words ⊆ ws)
    (hws' : words' ⊆ ws') : Cut ws ws' rest := by
  obtain ⟨w, hw, m, hm, hmem, hprefix⟩ := h
  exact ⟨w, hws hw, m, hm, hws' hmem, hprefix⟩

theorem Cut.cons_cons (h : Cut words words' rest) (w w' : List α) :
    Cut (w :: words) (w' :: words') rest :=
  h.mono (List.subset_cons_self _ _) (List.subset_cons_self _ _)

/-- The cut is in the words in front. -/
theorem Cut.head {w w' : List α} (h : Cut [w] [w'] rest) (ws ws' : List (List α)) :
    Cut (w :: ws) (w' :: ws') rest :=
  h.mono (by simp) (by simp)

/-- A word is longer than the one it begins with: the text behind the shorter one goes on with
the rest of it, as no separator is in a word. -/
theorem cut_of_append_eq {w m : List α} (hm : m ≠ []) (hsep : separator ∉ w ++ m)
    (h : m ++ rest' = spell separator words ++ rest) : Cut [w] [w ++ m] rest := by
  cases words with
  | nil => exact ⟨w, List.mem_singleton_self _, m, hm, List.mem_singleton_self _, rest', h⟩
  | cons v vs =>
    obtain ⟨c, m, rfl⟩ := List.exists_cons_of_ne_nil hm
    rw [spell_cons, List.cons_append, List.cons_append] at h
    exact absurd (List.mem_append_right _ ((List.cons.inj h).1 ▸ List.mem_cons_self)) hsep

/-- **Two spellings**: the words of the first are the first words of the second, or a word is
cut in one of them, or the second goes on with words of the first. -/
theorem prefix_or_cut (hwords : ∀ w ∈ words, separator ∉ w) (hwords' : ∀ w ∈ words', separator ∉ w)
    (h : spell separator words ++ rest = spell separator words' ++ rest') :
    words <+: words' ∨ Cut words words' rest ∨ Cut words' words rest' ∨
      ∃ w ∈ words, separator :: w <+: rest' := by
  induction words generalizing words' with
  | nil => exact .inl List.nil_prefix
  | cons w ws ih =>
    cases words' with
    | nil =>
      refine .inr (.inr (.inr ⟨w, List.mem_cons_self, spell separator ws ++ rest, ?_⟩))
      rw [← List.nil_append rest', ← spell_nil separator, ← h]
      simp
    | cons w' ws' =>
      obtain ⟨hw, hws⟩ := List.forall_mem_cons.mp hwords
      obtain ⟨hw', hws'⟩ := List.forall_mem_cons.mp hwords'
      simp only [spell_cons, List.cons_append, List.append_assoc, List.cons.injEq, true_and] at h
      by_cases heq : w = w'
      · subst heq
        rcases ih hws hws' (List.append_cancel_left h) with hprefix | hcut | hcut | ⟨v, hv, hmore⟩
        · exact .inl ((List.prefix_cons_inj w).mpr hprefix)
        · exact .inr (.inl (hcut.cons_cons _ _))
        · exact .inr (.inr (.inl (hcut.cons_cons _ _)))
        · exact .inr (.inr (.inr ⟨v, List.mem_cons_of_mem _ hv, hmore⟩))
      · rcases List.append_eq_append_iff.mp h with ⟨m, rfl, hrest⟩ | ⟨m, rfl, hrest⟩
        · have hm : m ≠ [] := fun hnil => heq (by rw [hnil, List.append_nil])
          exact .inr (.inl ((cut_of_append_eq hm hw' hrest.symm).head _ _))
        · have hm : m ≠ [] := fun hnil => heq (by rw [hnil, List.append_nil])
          exact .inr (.inr (.inl ((cut_of_append_eq hm hw hrest.symm).head _ _)))

end Wire
