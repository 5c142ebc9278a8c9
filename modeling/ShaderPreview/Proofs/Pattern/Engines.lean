import ShaderPreview.Proofs.Pattern.Expressions
import ShaderPreview.Proofs.Pattern.Settling

/-!
# What an engine may choose

An engine that replaces the matches of a regular expression chooses between matches that start at one
place: by the order of alternatives, and by taking a repetition as far as it gets or not.  It takes the
matches from left to right, so one choice may hide matches further on.  This module says when nothing of
this matters.

## 1.  Matches in a text

`Deterministic` says that there is nothing to choose.  An expression whose matches can be extended still
has one longest match at a place, which is what `Occurs` says, and `Unambiguous` that there is only one.
`Separate` says that no match hides another one.

## 2.  Divisions at matches

`Cuts e cs d` says that the division `d` is the text `cs`, cut at the longest matches from left to right,
with no match that starts inside a gap.  There is at most one such division: `Unambiguous.cuts_unique`.

## 3.  Engines

An engine is any reader that finds a longest match where there is a match: `ReadBy`.  The division at
what it finds is the one of section 2 (`ReadBy.cuts`), so every engine gives the same result when it
replaces: `ReadBy.replaces`.

## 4.  Expressions that describe a construct

If the matches of an expression are the occurrences of a construct that a reader finds (`Describes`), the
expression is deterministic, and the reader is an engine for it: `Describes.substitutes`.
-/

namespace ShaderPreview

open Text

variable {α ι : Type}

/-! ## 1.  Matches in a text -/

namespace Expression

/-- The text is a match, whatever the groups hold. -/
def Admits (e : Expression ι) (m : List Char) : Prop :=
  ∃ γ, e.Matches γ m

/-- At every place there is at most one match, and one way to fill the groups. -/
def Deterministic (e : Expression ι) : Prop :=
  ∀ ⦃m m' k k' : List Char⦄ ⦃γ γ' : ι → String⦄, e.Matches γ m → e.Matches γ' m' →
    m ++ k = m' ++ k' → m = m' ∧ γ = γ'

/-- Matches that start at different places of a text do not overlap. -/
def Separate (e : Expression ι) : Prop :=
  ∀ ⦃x m k x' m' k' : List Char⦄ ⦃γ γ' : ι → String⦄, e.Matches γ m → e.Matches γ' m' →
    x ++ (m ++ k) = x' ++ (m' ++ k') → x.length < x'.length → (x ++ m).length ≤ x'.length

/-- In front of the text `k`, the text `m` is a match that cannot be extended. -/
structure Occurs (e : Expression ι) (m k : List Char) (γ : ι → String) : Prop where
  isMatch : e.Matches γ m
  longest : ∀ b, b <+: k → e.Admits (m ++ b) → b = []

/-- Matches are not empty, and at every place at most one cannot be extended. -/
structure Unambiguous (e : Expression ι) : Prop where
  ne_nil : ¬ e.Admits []
  unique : ∀ {m m' k k' : List Char} {γ γ' : ι → String}, e.Occurs m k γ → e.Occurs m' k' γ' →
    m ++ k = m' ++ k' → m = m' ∧ γ = γ'

variable {e : Expression ι} {γ : ι → String} {x m k cs g : List Char}

/-- Where there is nothing to choose, no match can be extended. -/
theorem Deterministic.occurs (h : e.Deterministic) (hm : e.Matches γ m) : e.Occurs m k γ := by
  refine ⟨hm, fun b _ ⟨γ', hb⟩ => ?_⟩
  obtain ⟨heq, -⟩ := h hm hb (List.append_nil (m ++ b)).symm
  simpa using heq

theorem Deterministic.unambiguous (h : e.Deterministic) (hne : ¬ e.Admits []) : e.Unambiguous :=
  ⟨hne, fun hm hm' => h hm.isMatch hm'.isMatch⟩

/-- Matches do not overlap if none starts inside another one. -/
theorem separate_of_inside
    (h : ∀ {u v k m : List Char} {γ γ' : ι → String}, e.Matches γ (u ++ v) → u ≠ [] → v ≠ [] →
      m <+: v ++ k → ¬ e.Matches γ' m) : e.Separate := by
  intro x m k x' m' k' γ γ' hm hm' heq hlt
  rcases List.append_eq_append_iff.1 heq with ⟨u, rfl, hu⟩ | ⟨u, rfl, -⟩
  · rcases List.append_eq_append_iff.1 hu with ⟨v, rfl, hv⟩ | ⟨v, rfl, hv⟩
    · simp
    · by_cases hne : v = []
      · simp [hne]
      · have hu : u ≠ [] := by
          rintro rfl
          simp at hlt
        exact absurd hm' (h hm hu hne ⟨k', hv⟩)
  · rw [List.length_append] at hlt
    omega

/-! ## 2.  Divisions at matches -/

/-- No match starts inside the text `g`, which stands in front of `k`. -/
def Absent (e : Expression ι) (g k : List Char) : Prop :=
  ∀ u v m, g = u ++ v → v ≠ [] → m <+: v ++ k → ¬ e.Admits m

/-- Every occurrence of the division is one in front of the rest, and no match starts inside a gap. -/
def Leftmost (e : Expression ι) : Division (ι → String) → Prop
  | .last g => e.Absent g []
  | .next g m γ d => e.Absent g (m ++ d.text) ∧ e.Occurs m d.text γ ∧ e.Leftmost d

/-- The division is the text, cut at the matches of the expression from left to right. -/
structure Cuts (e : Expression ι) (cs : List Char) (d : Division (ι → String)) : Prop where
  text_eq : d.text = cs
  leftmost : e.Leftmost d

theorem absent_nil : e.Absent [] k := by
  intro u v m heq hv
  exact absurd (List.append_eq_nil_iff.1 heq.symm).2 hv

theorem absent_cons {c : Char} (hc : ∀ m, m <+: c :: (g ++ k) → ¬ e.Admits m) (hg : e.Absent g k) :
    e.Absent (c :: g) k := by
  intro u v m heq hv hm
  cases u with
  | nil =>
    rw [List.nil_append] at heq
    rw [← heq] at hm
    exact hc m hm
  | cons c' u =>
    obtain ⟨-, rfl⟩ := List.cons.inj heq
    exact hg u v m rfl hv hm

theorem Leftmost.push {c : Char} {d : Division (ι → String)}
    (hc : ∀ m, m <+: c :: d.text → ¬ e.Admits m) (hd : e.Leftmost d) : e.Leftmost (d.push c) := by
  cases d with
  | last g => exact absent_cons (by rwa [List.append_nil]) hd
  | next g m γ d =>
    obtain ⟨hg, hm⟩ := hd
    exact ⟨absent_cons hc hg, hm⟩

/-- The longest matches in a text, as a construct. -/
def Unambiguous.occurrences (h : e.Unambiguous) (cs : List Char) : Construct (ι → String) where
  Is x m γ := ∃ k, cs = x ++ (m ++ k) ∧ e.Occurs m k γ
  ne_nil := by
    rintro x m γ ⟨k, -, hm⟩ rfl
    exact h.ne_nil ⟨γ, hm.isMatch⟩
  unique := by
    rintro x m m' k k' γ γ' ⟨r, hr, hm⟩ ⟨r', hr', hm'⟩ -
    exact h.unique hm hm' (List.append_cancel_left (hr.symm.trans hr'))

theorem Leftmost.occurrences (h : e.Unambiguous) {d : Division (ι → String)} (hd : e.Leftmost d)
    (hcs : cs = x ++ d.text) : d.Leftmost (h.occurrences cs) x := by
  induction d generalizing x with
  | last g =>
    rintro u v m γ heq hv hm ⟨k, -, hocc⟩
    exact hd u v m heq hv hm ⟨γ, hocc.isMatch⟩
  | next g m γ d ih =>
    obtain ⟨hg, hm, hd⟩ := hd
    have hsplit : cs = x ++ g ++ (m ++ d.text) := by rw [hcs, Division.text, List.append_assoc]
    refine ⟨?_, ⟨_, hsplit, hm⟩, ih hd ?_⟩
    · rintro u v m' γ' heq hv hm' ⟨k, -, hocc⟩
      exact hg u v m' heq hv hm' ⟨γ', hocc.isMatch⟩
    · simp only [hsplit, List.append_assoc]

/-- A text is cut in one way only. -/
theorem Unambiguous.cuts_unique (h : e.Unambiguous) {d d' : Division (ι → String)} (hd : e.Cuts cs d)
    (hd' : e.Cuts cs d') : d = d' :=
  (hd.leftmost.occurrences h hd.text_eq.symm (x := [])).eq_of_text_eq
    (hd'.leftmost.occurrences h hd'.text_eq.symm (x := [])) (hd.text_eq.trans hd'.text_eq.symm)

end Expression

/-! ## 3.  Engines -/

namespace Division

variable {β : Type} {f : α → β} {put : β → List Char} {d : Division α}

/-- The division with other values. -/
def map (f : α → β) : Division α → Division β
  | last g => last g
  | next g m a d => next g m (f a) (d.map f)

theorem text_map : (d.map f).text = d.text := by
  induction d with
  | last g => rfl
  | next g m a d ih => rw [map, text, ih, text]

theorem render_map : (d.map f).render put = d.render fun a => put (f a) := by
  induction d with
  | last g => rfl
  | next g m a d ih => rw [map, render, ih, render]

theorem text_settleFirst_map :
    ((d.map f).settleFirst put).text = (d.settleFirst fun a => put (f a)).text := by
  cases d with
  | last g => rfl
  | next g m a d => simp only [map, settleFirst, text_prepend, text_map]

theorem values_map : (d.map f).values = d.values.map f := by
  induction d with
  | last g => rfl
  | next g m a d ih => rw [map, values, ih, values, List.map_cons]

theorem map_push {c : Char} : (d.push c).map f = (d.map f).push c := by
  cases d with
  | last g => rfl
  | next g m a d => rfl

theorem pieces_push {c : Char} : (d.push c).pieces = .plain c :: d.pieces := by
  cases d with
  | last g => rfl
  | next g m a d => rfl

end Division

namespace Expression

variable {e : Expression ι} {p : Pattern α} {captures : α → ι → String} {cs : List Char}
variable {put : (ι → String) → List Char}

/-- The reader finds a longest match where there is a match, and nothing else. -/
structure ReadBy (e : Expression ι) (p : Pattern α) (captures : α → ι → String) : Prop where
  occurs : ∀ {m k : List Char} {a : α}, p.read? (m ++ k) = some (a, k) → e.Occurs m k (captures a)
  absent : ∀ {cs m : List Char}, p.read? cs = none → m <+: cs → ¬ e.Admits m

/-- What a reader finds cuts the text at its matches. -/
theorem ReadBy.exists_division (h : e.ReadBy p captures) (cs : List Char) :
    ∃ d : Division α, p.segments cs = d.pieces ∧ e.Cuts cs (d.map captures) := by
  induction cs using Pattern.occurrence_induction p with
  | nil => exact ⟨.last [], Pattern.segments_nil p, rfl, absent_nil⟩
  | found m a rest _ hread ih =>
    obtain ⟨d, hd, hcuts⟩ := ih
    refine ⟨.next [] m a d, ?_, ?_, absent_nil, ?_, hcuts.leftmost⟩
    · rw [Pattern.segments_append hread, hd]
      rfl
    · rw [Division.map, Division.text, hcuts.text_eq]
      rfl
    · rw [hcuts.text_eq]
      exact h.occurs hread
  | plain c cs hread ih =>
    obtain ⟨d, hd, hcuts⟩ := ih
    refine ⟨d.push c, ?_, ?_, ?_⟩
    · rw [Pattern.segments_of_read?_eq_none hread, hd, Division.pieces_push]
    · rw [Division.map_push, Division.text_push, hcuts.text_eq]
    · rw [Division.map_push]
      refine hcuts.leftmost.push fun m hm => h.absent hread ?_
      rwa [hcuts.text_eq] at hm

/-- The pass replaces the matches of every text, and so does every engine. -/
def Replaces (e : Expression ι) (put : (ι → String) → List Char) (pass : List Char → List Char) :
    Prop :=
  ∀ cs, ∃ d, (∀ d', e.Cuts cs d' ↔ d' = d) ∧ pass cs = d.render put ∧
    ∀ q : Pattern (ι → String), e.ReadBy q id → q.replace put cs = d.render put

/-- The pass replaces the first match of every text, and so does every engine. -/
def ReplacesFirst (e : Expression ι) (put : (ι → String) → List Char)
    (pass : List Char → List Char) : Prop :=
  ∀ cs, ∃ d, (∀ d', e.Cuts cs d' ↔ d' = d) ∧ pass cs = (d.settleFirst put).text ∧
    ∀ q : Pattern (ι → String), e.ReadBy q id → q.replaceFirst put cs = (d.settleFirst put).text

theorem Unambiguous.cuts_iff (h : e.Unambiguous) {d : Division (ι → String)} (hd : e.Cuts cs d)
    (d' : Division (ι → String)) : e.Cuts cs d' ↔ d' = d := by
  refine ⟨fun hd' => h.cuts_unique hd' hd, ?_⟩
  rintro rfl
  exact hd

/-- Whatever cuts a text as the expression does replaces its matches. -/
theorem replace_eq_render (hu : e.Unambiguous) (h : e.ReadBy p captures)
    {d : Division (ι → String)} (hd : e.Cuts cs d) :
    p.replace (fun a => put (captures a)) cs = d.render put := by
  obtain ⟨d', hd', hcuts⟩ := h.exists_division cs
  rw [hu.cuts_unique hd hcuts, Division.render_map, Pattern.replace, hd',
    Division.flatMap_render_pieces]

theorem replaceFirst_eq_text (hu : e.Unambiguous) (h : e.ReadBy p captures)
    {d : Division (ι → String)} (hd : e.Cuts cs d) :
    p.replaceFirst (fun a => put (captures a)) cs = (d.settleFirst put).text := by
  obtain ⟨d', hd', hcuts⟩ := h.exists_division cs
  rw [hu.cuts_unique hd hcuts, Division.text_settleFirst_map, Pattern.replaceFirst, hd',
    Division.renderFirst_pieces]

theorem ReadBy.replaces (h : e.ReadBy p captures) (hu : e.Unambiguous) :
    e.Replaces put (p.replace fun a => put (captures a)) := by
  intro cs
  obtain ⟨d, -, hd⟩ := h.exists_division cs
  exact ⟨_, hu.cuts_iff hd, replace_eq_render hu h hd, fun q hq => replace_eq_render hu hq hd⟩

theorem ReadBy.replacesFirst (h : e.ReadBy p captures) (hu : e.Unambiguous) :
    e.ReplacesFirst put (p.replaceFirst fun a => put (captures a)) := by
  intro cs
  obtain ⟨d, -, hd⟩ := h.exists_division cs
  exact ⟨_, hu.cuts_iff hd, replaceFirst_eq_text hu h hd, fun q hq => replaceFirst_eq_text hu hq hd⟩

/-! ## 4.  Expressions that describe a construct -/

/-- The matches are the occurrences of the construct, and `captures` says what the groups hold. -/
structure Describes (e : Expression ι) (C : Construct α) (captures : α → ι → String) : Prop where
  matches_iff : ∀ {γ : ι → String} {m : List Char},
    e.Matches γ m ↔ ∃ a, captures a = γ ∧ C.Is [] m a

section Describes

variable {C : Construct α} {d : Division α} {x : List Char}

theorem Describes.deterministic (h : e.Describes C captures) : e.Deterministic := by
  intro m m' k k' γ γ' hm hm' heq
  obtain ⟨a, rfl, ha⟩ := h.matches_iff.1 hm
  obtain ⟨a', rfl, ha'⟩ := h.matches_iff.1 hm'
  obtain ⟨rfl, rfl⟩ := C.unique ha ha' heq
  exact ⟨rfl, rfl⟩

theorem Describes.unambiguous (h : e.Describes C captures) : e.Unambiguous := by
  refine h.deterministic.unambiguous ?_
  rintro ⟨γ, hm⟩
  obtain ⟨a, -, ha⟩ := h.matches_iff.1 hm
  exact C.ne_nil ha rfl

theorem anywhere_of_finds (hp : p.Finds C) : C.Anywhere :=
  fun h => hp.1 ((hp (k := [])).2 h)

theorem Describes.separate (h : e.Describes C captures) (hp : p.Finds C) (hC : C.Separate) :
    e.Separate := by
  refine separate_of_inside fun {u v k m γ γ'} huv hu hv hm hm' => ?_
  obtain ⟨a, -, ha⟩ := h.matches_iff.1 huv
  obtain ⟨a', -, ha'⟩ := h.matches_iff.1 hm'
  exact hC ha hu hv hm (anywhere_of_finds hp ha')

theorem Describes.readBy (h : e.Describes C captures) (hp : p.Finds C) : e.ReadBy p captures where
  occurs hread := h.deterministic.occurs (h.matches_iff.2 ⟨_, rfl, hp.1 hread⟩)
  absent := by
    rintro cs m hread ⟨k, rfl⟩ ⟨γ, hm⟩
    obtain ⟨a, -, ha⟩ := h.matches_iff.1 hm
    rw [hp.2 ha] at hread
    exact Option.some_ne_none _ hread

theorem Describes.absent (h : e.Describes C captures) (hp : p.Finds C) {g k : List Char}
    (hg : C.Absent x g k) : e.Absent g k := by
  rintro u v m heq hv hm ⟨γ, hmatch⟩
  obtain ⟨a, -, ha⟩ := h.matches_iff.1 hmatch
  exact hg u v m a heq hv hm (anywhere_of_finds hp ha)

theorem Describes.leftmost_map (h : e.Describes C captures) (hp : p.Finds C)
    (hd : d.Leftmost C x) : e.Leftmost (d.map captures) := by
  induction d generalizing x with
  | last g => exact h.absent hp hd
  | next g m a d ih =>
    obtain ⟨hg, hm, hd⟩ := hd
    refine ⟨?_, h.deterministic.occurs (h.matches_iff.2 ⟨a, rfl, anywhere_of_finds hp hm⟩), ih hd⟩
    rw [Division.text_map]
    exact h.absent hp hg

/-- The division at the occurrences is the one at the matches. -/
theorem Describes.cuts_map (h : e.Describes C captures) (hp : p.Finds C) (hd : C.Cuts cs d) :
    e.Cuts cs (d.map captures) :=
  ⟨Division.text_map.trans hd.text_eq, h.leftmost_map hp hd.leftmost⟩

/-- There is nothing to choose at one place, matches do not overlap, and the pass replaces them all. -/
structure Substitutes (e : Expression ι) (put : (ι → String) → List Char)
    (pass : List Char → List Char) : Prop where
  deterministic : e.Deterministic
  separate : e.Separate
  replaces : e.Replaces put pass

theorem Describes.substitutes (h : e.Describes C captures) (hp : p.Finds C) (hC : C.Separate) :
    e.Substitutes put (p.replace fun a => put (captures a)) :=
  ⟨h.deterministic, h.separate hp hC, (h.readBy hp).replaces h.unambiguous⟩

/-- An expression that is written in parts describes what these parts spell. -/
theorem describes_of_spelledBy {s : p.Spelling}
    (h : ∀ γ, e.SpelledBy γ fun ps => ∃ a, captures a = γ ∧ s.Forms a ps) :
    e.Describes s.construct captures := by
  refine ⟨fun {γ m} => ?_⟩
  rw [h γ m]
  constructor
  · rintro ⟨ps, ⟨a, ha, hps⟩, hm⟩
    exact ⟨a, ha, ps, hps, hm⟩
  · rintro ⟨a, ha, ps, hps, hm⟩
    exact ⟨ps, ⟨a, ha, hps⟩, hm⟩

end Describes

end Expression
end ShaderPreview
