import Zippylog.Store.PathParser
import Zippylog.Wire.Words

/-!
# The components of a path

Paths are compared in two ways: as texts, where one begins with the other, and as lists of
components. Here is how the two are related for paths that are valid.

- `components`: what `ParsePath` finds, as a list;
- `exists_spelled`: a valid path spells its components, and ends with nothing more, a slash or
  the file extension;
- `components_prefix_iff`: components start with others exactly when the path starts with the
  other and no name is cut, or is the other without what it ends with.
-/

namespace Zippylog

open Wire

namespace Store

/-- What `ParsePath` finds, without the components that the path does not have. -/
def components (path : Bytes) : List Bytes :=
  match parsePath path with
  | none => []
  | some (bucket, set, stream) => [bucket, set, stream].filter (· ≠ [])

/-- The path goes on inside a name. -/
def EndsInside (p path : Bytes) : Prop :=
  p.getLast? ≠ some slash ∧ ∃ c rest, path = p ++ c :: rest ∧ isNameChar c = true

/-- The path with a slash or a file extension behind it. -/
def Longer (p path : Bytes) : Prop :=
  p = path ++ [slash] ∨ p = path ++ extension ∧ path.getLast? ≠ some slash

/-! ## Spelling -/

/-- A component: a name, or the file extension of a stream without a name. -/
def PathComponent (name : Bytes) : Prop := ValidName name ∨ name = extension

/-- What a path can end with behind its components. -/
inductive Tail (names : List Bytes) : Bytes → Prop where
  | nothing (h0 : names ≠ []) (h : names.length ≤ 3) : Tail names []
  | slash (h : names.length ≤ 2) : Tail names [slash]
  | extension (h : names.length = 3) : Tail names extension

/-- A path as its components and its end. -/
structure Spelled (path : Bytes) (names : List Bytes) (tail : Bytes) : Prop where
  text : path = spell slash names ++ tail
  component : ∀ name ∈ names, PathComponent name
  ends : Tail names tail

theorem PathComponent.ne_nil {name : Bytes} (h : PathComponent name) : name ≠ [] := by
  rcases h with h | rfl
  · exact h.ne_nil
  · exact List.cons_ne_nil _ _

theorem PathComponent.slash_not_mem {name : Bytes} (h : PathComponent name) : slash ∉ name := by
  rcases h with h | rfl
  · exact fun hmem => ne_slash_of_isNameChar (h.chars _ hmem) rfl
  · decide

theorem parsePath_text (q : StorePath) :
    parsePath q.text = some (q.components.bucket, q.components.set, q.components.stream) := by
  rw [PathParser.parsePath_eq _ ⟨[], [], []⟩, PathParser.parsePath_text]

theorem parsePath_extension (b s : Name) :
    parsePath (streamPath b s extension) = some (b.val, s.val, extension) := by
  rw [PathParser.parsePath_eq _ ⟨[], [], []⟩, PathParser.parsePath_extension]

theorem component_name (name : Name) : PathComponent name.val := .inl name.2

theorem spelled_text (q : StorePath) :
    ∃ tail, Spelled q.text ([q.components.bucket, q.components.set, q.components.stream].filter
      (· ≠ [])) tail := by
  cases q with
  | bucket b trailing =>
    have hnames : [b.val, [], []].filter (· ≠ []) = [b.val] := by simp [b.2.ne_nil]
    simp only [StorePath.components, hnames]
    cases trailing with
    | false =>
      exact ⟨[], by simp [StorePath.text, bucketPath], by simp [component_name],
        .nothing (by simp) (by simp)⟩
    | true =>
      exact ⟨[slash], by simp [StorePath.text, bucketPath], by simp [component_name],
        .slash (by simp)⟩
  | streamSet b s trailing =>
    have hnames : [b.val, s.val, []].filter (· ≠ []) = [b.val, s.val] := by
      simp [b.2.ne_nil, s.2.ne_nil]
    simp only [StorePath.components, hnames]
    cases trailing with
    | false =>
      exact ⟨[], by simp [StorePath.text, streamsetPath_eq], by simp [component_name],
        .nothing (by simp) (by simp)⟩
    | true =>
      exact ⟨[slash], by simp [StorePath.text, streamsetPath_eq], by simp [component_name],
        .slash (by simp)⟩
  | stream b s n suffix =>
    have hnames : [b.val, s.val, n.val].filter (· ≠ []) = [b.val, s.val, n.val] := by
      simp [b.2.ne_nil, s.2.ne_nil, n.2.ne_nil]
    simp only [StorePath.components, hnames]
    cases suffix with
    | false =>
      exact ⟨[], by simp [StorePath.text, streamPath_eq], by simp [component_name],
        .nothing (by simp) (by simp)⟩
    | true =>
      exact ⟨extension, by simp [StorePath.text, streamPath_eq], by simp [component_name],
        .extension (by simp)⟩

theorem spelled_extension (b s : Name) :
    Spelled (streamPath b s extension) [b.val, s.val, extension] [] := by
  refine ⟨by simp [streamPath_eq], ?_, .nothing (List.cons_ne_nil _ _) (by simp)⟩
  intro name hname
  simp only [List.mem_cons, List.not_mem_nil, or_false] at hname
  rcases hname with rfl | rfl | rfl
  · exact component_name b
  · exact component_name s
  · exact .inr rfl

/-- **A valid path spells its components.** -/
theorem exists_spelled {path : Bytes} (h : validatePath path = true) :
    ∃ tail, Spelled path (components path) tail := by
  rcases (validatePath_iff path).mp h with rfl | ⟨q, rfl⟩ | ⟨b, s, rfl⟩
  · exact ⟨[slash], rfl, fun _ hname => absurd hname List.not_mem_nil, .slash (by decide)⟩
  · rw [components, parsePath_text]
    exact spelled_text q
  · have hnames : components (streamPath b s extension) = [b.val, s.val, extension] := by
      rw [components, parsePath_extension]
      simp [b.2.ne_nil, s.2.ne_nil, PathComponent.ne_nil (.inr rfl)]
    rw [hnames]
    exact ⟨[], spelled_extension b s⟩

/-! ## Prefixes -/

/-- Where a component is longer than another that it begins with, it goes on with a character
of a name: the dot of a file extension is in front of it only. -/
theorem isNameChar_of_append {w m : Bytes} (hw : PathComponent w) (hwm : PathComponent (w ++ m))
    (hm : m ≠ []) : ∃ c rest, m = c :: rest ∧ isNameChar c = true := by
  obtain ⟨c, rest, rfl⟩ := List.exists_cons_of_ne_nil hm
  refine ⟨c, rest, rfl, ?_⟩
  rcases hwm with hvalid | hext
  · exact hvalid.chars c (List.mem_append_right _ List.mem_cons_self)
  · rcases hw with hw | rfl
    · obtain ⟨d, w, rfl⟩ := List.exists_cons_of_ne_nil hw.ne_nil
      obtain rfl : d = 46 := (List.cons.inj hext).1
      exact absurd (hw.chars 46 List.mem_cons_self) (by decide)
    · exact absurd (List.append_right_eq_self.mp hext) hm

section Spelled

variable {p path u : Bytes} {names names' : List Bytes} {tail tail' : Bytes}

theorem isNameChar_of_cut (hnames : ∀ n ∈ names, PathComponent n)
    (hnames' : ∀ n ∈ names', PathComponent n) (h : Cut names names' u) :
    ∃ c rest, u = c :: rest ∧ isNameChar c = true := by
  obtain ⟨w, hw, m, hm, hwm, rest, rfl⟩ := h
  obtain ⟨c, rest', rfl, hc⟩ := isNameChar_of_append (hnames w hw) (hnames' _ hwm) hm
  exact ⟨c, rest' ++ rest, rfl, hc⟩

theorem Tail.not_isNameChar (h : Tail names tail) {c : UInt8} {rest : Bytes}
    (htail : tail = c :: rest) : ¬ isNameChar c = true := by
  cases h with
  | nothing => cases htail
  | slash =>
    rw [← (List.cons.inj htail).1]
    decide
  | extension =>
    rw [← (List.cons.inj htail).1]
    decide

/-- A text that begins with the components of one path and is another path: the components are
those the other begins with, or the text goes on inside a name. -/
theorem prefix_or_isNameChar (hnames : ∀ n ∈ names, PathComponent n)
    (hpath : Spelled path names' tail') (h : spell slash names ++ u = path) :
    names <+: names' ∨ ∃ c rest, u = c :: rest ∧ isNameChar c = true := by
  rw [hpath.text] at h
  rcases prefix_or_cut (fun w hw => (hnames w hw).slash_not_mem)
    (fun w hw => (hpath.component w hw).slash_not_mem) h with hprefix | hcut | hcut | ⟨w, hw, hmore⟩
  · exact .inl hprefix
  · exact .inr (isNameChar_of_cut hnames hpath.component hcut)
  · obtain ⟨c, rest, htail, hc⟩ := isNameChar_of_cut hpath.component hnames hcut
    exact absurd hc (hpath.ends.not_isNameChar htail)
  · -- what a path ends with begins with no slash, or is one
    obtain ⟨c, w', rfl⟩ := List.exists_cons_of_ne_nil (hnames w hw).ne_nil
    obtain ⟨rest, hrest⟩ := hmore
    cases hpath.ends with
    | nothing => cases hrest
    | slash => cases hrest
    | extension => exact absurd (List.cons.inj hrest).1 (by decide)

/-- The last character of the components is no slash. -/
theorem getLast?_spell_ne_slash (hnames : ∀ n ∈ names, PathComponent n) :
    (spell slash names).getLast? ≠ some slash ∨ names = [] := by
  rcases List.eq_nil_or_concat names with rfl | ⟨init, name, rfl⟩
  · exact .inr rfl
  · left
    have hname := hnames name (by simp)
    rw [List.concat_eq_append, spell_append, spell_cons, spell_nil, List.append_nil,
      List.getLast?_append_of_ne_nil _ (List.cons_ne_nil _ _), List.getLast?_cons,
      List.getLast?_eq_some_getLast hname.ne_nil]
    intro hlast
    have hslash : name.getLast hname.ne_nil = slash := Option.some.inj hlast
    exact hname.slash_not_mem (hslash ▸ List.getLast_mem _)

theorem Tail.length_le (h : Tail names tail) : names.length ≤ 3 := by
  cases h <;> omega

/-- What is behind the components that two paths share goes on with no name. -/
theorem not_endsInside (hpath : Spelled path (names ++ names') tail') :
    ¬ EndsInside (spell slash names) path := by
  rintro ⟨-, c, rest, hrest, hc⟩
  have htext := hpath.text
  rw [hrest, spell_append, List.append_assoc] at htext
  have hmore := List.append_cancel_left htext
  cases names' with
  | nil => exact hpath.ends.not_isNameChar hmore.symm hc
  | cons name names' =>
    rw [(List.cons.inj hmore).1] at hc
    exact absurd hc (by decide)

/-- A path of the first components of another is a part of it, or longer by its end. -/
theorem prefix_or_longer (hp : Spelled p names tail)
    (hpath : Spelled path (names ++ names') tail') :
    (p <+: path ∧ ¬ EndsInside p path) ∨ Longer p path := by
  have htext := hpath.text
  rw [spell_append, List.append_assoc] at htext
  have hlast : p.getLast? = some slash → ¬ EndsInside p path := fun hslash hinside =>
    hinside.1 hslash
  cases hp.ends with
  | nothing =>
    have hptext := hp.text
    rw [List.append_nil] at hptext
    rw [hptext]
    exact .inl ⟨htext ▸ List.prefix_append _ _, not_endsInside hpath⟩
  -- the first path ends with a slash: a name follows in the second, or its own ending
  | slash hlength =>
    have hslash : p.getLast? = some slash := by rw [hp.text, List.getLast?_append]; rfl
    cases names' with
    | cons name names' =>
      refine .inl ⟨⟨name ++ spell slash names' ++ tail', ?_⟩, hlast hslash⟩
      rw [hp.text, htext]
      simp
    | nil =>
      cases hends : hpath.ends with
      | nothing => exact .inr (.inl (by rw [hp.text, htext]; simp))
      | slash => exact .inl ⟨⟨[], by rw [hp.text, htext]; simp⟩, hlast hslash⟩
      | extension hthree =>
        rw [List.append_nil] at hthree
        omega
  -- the first path has three components, so the second has no more
  | extension hlength =>
    have hle := hpath.ends.length_le
    rw [List.length_append] at hle
    obtain rfl : names' = [] := List.length_eq_zero_iff.mp (by omega)
    cases hends : hpath.ends with
    | nothing =>
      refine .inr (.inr ⟨by rw [hp.text, htext]; simp, ?_⟩)
      rw [htext, spell_nil, List.append_nil, List.append_nil]
      refine (getLast?_spell_ne_slash hp.component).resolve_right fun hnil => ?_
      rw [hnil] at hlength
      cases hlength
    | slash htwo =>
      rw [List.append_nil] at htwo
      omega
    | extension =>
      refine .inl ⟨⟨[], by rw [hp.text, htext]; simp⟩, ?_⟩
      rintro ⟨-, c, rest, hrest, -⟩
      have hlength := congrArg List.length hrest
      rw [htext, hp.text] at hlength
      simp at hlength

/-- A part of a path that does not end inside a name has components of the path. -/
theorem prefix_of_prefix (hp : Spelled p names tail) (hpath : Spelled path names' tail')
    (h : p <+: path) (hinside : ¬ EndsInside p path) : names <+: names' := by
  obtain ⟨rest, hrest⟩ := h
  have htext := hrest
  rw [hp.text, List.append_assoc] at htext
  refine (prefix_or_isNameChar hp.component hpath htext).resolve_right ?_
  rintro ⟨c, rest', hmore, hc⟩
  cases hp.ends with
  | nothing hne =>
    have hptext := hp.text
    rw [List.append_nil] at hptext
    refine hinside ⟨?_, c, rest', ?_, hc⟩
    · rw [hptext]
      exact (getLast?_spell_ne_slash hp.component).resolve_right hne
    · rw [← hrest]
      exact congrArg (p ++ ·) hmore
  | slash =>
    rw [← (List.cons.inj hmore).1] at hc
    exact absurd hc (by decide)
  | extension =>
    rw [← (List.cons.inj hmore).1] at hc
    exact absurd hc (by decide)

/-- What a path ends with, and then a slash or a file extension. -/
theorem Tail.append_eq (h : Tail names tail) {e : Bytes}
    (he : e = [Zippylog.slash] ∨ e = Zippylog.extension ∧ tail ≠ [Zippylog.slash]) :
    (∃ n, tail ++ e = Zippylog.slash :: List.replicate n Zippylog.slash) ∨
      ∃ rest, tail ++ e = 46 :: rest := by
  cases h with
  | nothing =>
    rcases he with rfl | ⟨rfl, -⟩
    · exact .inl ⟨0, rfl⟩
    · exact .inr ⟨_, rfl⟩
  | slash =>
    rcases he with rfl | ⟨-, hne⟩
    · exact .inl ⟨1, rfl⟩
    · exact absurd rfl hne
  | extension => exact .inr ⟨_, rfl⟩

/-- It spells no component. -/
theorem PathComponent.append_ne {name rest : Bytes} (h : PathComponent name) (n : Nat) :
    name ++ rest ≠ List.replicate n slash := by
  intro heq
  obtain ⟨c, hc⟩ := List.exists_mem_of_ne_nil _ h.ne_nil
  have hslash : c = slash := List.eq_of_mem_replicate (heq ▸ List.mem_append_left rest hc)
  exact h.slash_not_mem (hslash ▸ hc)

/-- A path that is longer by its end has the same components. -/
theorem prefix_of_longer (hp : Spelled p names tail) (hpath : Spelled path names' tail')
    (h : Longer p path) : names <+: names' := by
  obtain ⟨e, hpe, he⟩ : ∃ e, p = path ++ e ∧
      (e = [slash] ∨ e = extension ∧ tail' ≠ [slash]) := by
    rcases h with hslash | ⟨hext, hlast⟩
    · exact ⟨_, hslash, .inl rfl⟩
    · refine ⟨_, hext, .inr ⟨rfl, fun htail => hlast ?_⟩⟩
      rw [hpath.text, htail, List.getLast?_append]
      rfl
  have hends := hpath.ends.append_eq he
  have htext : spell slash names' ++ (tail' ++ e) = p := by
    rw [hpe, hpath.text, List.append_assoc]
  rcases prefix_or_isNameChar hpath.component hp htext with ⟨more, hnames⟩ | ⟨c, rest, hc, hchar⟩
  · rw [hp.text, ← hnames, spell_append, List.append_assoc] at htext
    have hmore := List.append_cancel_left htext
    cases more with
    | nil => exact hnames ▸ (List.append_nil names').symm ▸ List.prefix_rfl
    | cons name more =>
      have hname := hp.component name (hnames ▸ by simp)
      rw [hmore, spell_cons, List.cons_append, List.append_assoc] at hends
      rcases hends with ⟨n, hslashes⟩ | ⟨rest, hdot⟩
      · exact absurd (List.cons.inj hslashes).2 (hname.append_ne n)
      · exact absurd (List.cons.inj hdot).1 (by decide)
  · rw [hc] at hends
    rcases hends with ⟨n, hslashes⟩ | ⟨rest, hdot⟩
    · rw [(List.cons.inj hslashes).1] at hchar
      exact absurd hchar (by decide)
    · rw [(List.cons.inj hdot).1] at hchar
      exact absurd hchar (by decide)

end Spelled

/-- **A path covers another** exactly when it is a part of it that ends at a component, or is
the other with a slash or the file extension behind it. -/
theorem components_prefix_iff {p path : Bytes} (hp : validatePath p = true)
    (hpath : validatePath path = true) :
    components p <+: components path ↔ (p <+: path ∧ ¬ EndsInside p path) ∨ Longer p path := by
  obtain ⟨tail, hp⟩ := exists_spelled hp
  obtain ⟨tail', hpath⟩ := exists_spelled hpath
  constructor
  · rintro ⟨names', hnames⟩
    rw [← hnames] at hpath
    exact prefix_or_longer hp hpath
  · rintro (⟨hstarts, hinside⟩ | hlonger)
    · exact prefix_of_prefix hp hpath hstarts hinside
    · exact prefix_of_longer hp hpath hlonger

end Store

end Zippylog
