import ShaderPreview.Proofs.Pattern.Lines

/-!
# Texts that replacing leaves alone

Replacing the occurrences of a pattern keeps a text that stands elsewhere, as long as no occurrence
overlaps it.  For the statement `uniform <type> <name>;` this holds for every construct that is
replaced in a shader, whatever stands around the statement.

## 1.  Searching past a text

`Spares p t` says that an occurrence of `p` that starts in front of `t` also ends there, and that
none starts inside `t`.  A search from the left then arrives at `t` itself (`arrival_induction`), so
`t` is kept by `replace` and `replaceFirst`, or found if it is an occurrence.

## 2.  Constructs that end in front of a statement

A construct that ran into a statement would have to contain `uniform` as the end of one of its words,
then blanks, then another word.  `Guarded` is a condition on the parts of a construct that excludes
this: `suffix_of_guarded`.

## 3.  Constructs that do not start inside a statement

In a statement the first sign that is neither blank nor part of a word is the semicolon.  In every
other construct it is another sign, which is `Foreign`: `not_reads_of_foreign`.

Section 4 puts these together: for statements of some types (`spares_filter`), and for the other four
constructs, which are `Apart` from every statement.
-/

namespace ShaderPreview

open Text

/-! ## 1.  Searching past a text -/

namespace Pattern

variable {α : Type} {p : Pattern α} {put : α → List Char} {a : α} {t k cs : List Char}

/-- No occurrence of the pattern overlaps the text, except one that starts where the text starts. -/
structure Spares (p : Pattern α) (t : List Char) : Prop where
  /-- An occurrence that starts in front of the text ends there. -/
  before : ∀ {x k rest : List Char} {a : α}, x ≠ [] →
    p.read? (x ++ (t ++ k)) = some (a, rest) → t ++ k <:+ rest
  /-- No occurrence starts inside the text. -/
  inside : ∀ {u v k : List Char}, t = u ++ v → u ≠ [] → v ≠ [] → p.read? (v ++ k) = none

/-- A search from the left arrives at a spared text. -/
theorem arrival_induction (hs : p.Spares t) {P : List Char → Prop} (x : List Char)
    (here : P (t ++ k))
    (found : ∀ m a rest, p.read? (m ++ rest) = some (a, rest) → P rest → P (m ++ rest))
    (plain : ∀ c cs, p.read? (c :: cs) = none → P cs → P (c :: cs)) : P (x ++ (t ++ k)) := by
  induction hn : x.length using Nat.strongRecOn generalizing x with
  | ind n ih =>
    cases x with
    | nil => exact here
    | cons c x =>
      cases hread : p.read? (c :: x ++ (t ++ k)) with
      | none => exact plain _ _ hread (ih x.length (by rw [← hn]; simp) x rfl)
      | some r =>
        obtain ⟨a, rest⟩ := r
        obtain ⟨m, hm, heq⟩ := exists_append_of_read? hread
        obtain ⟨x', rfl⟩ := hs.before (List.cons_ne_nil _ _) hread
        rw [← List.append_assoc m, List.append_left_inj] at heq
        have hlt : x'.length < n := by
          have hpos := List.length_pos_iff.2 hm
          rw [← hn, heq, List.length_append]
          omega
        rw [heq, List.append_assoc] at hread ⊢
        exact found m a _ hread (ih _ hlt x' rfl)

/-- Where no occurrence starts, every character is a piece of its own. -/
theorem segments_append_of_none
    (h : ∀ u v, t = u ++ v → v ≠ [] → p.read? (v ++ k) = none) :
    p.segments (t ++ k) = t.map .plain ++ p.segments k := by
  induction t with
  | nil => rfl
  | cons c t ih =>
    have hnone := h [] (c :: t) rfl (List.cons_ne_nil _ _)
    rw [List.cons_append] at hnone ⊢
    rw [segments_of_read?_eq_none hnone, List.map_cons, List.cons_append,
      ih fun u v heq => h (c :: u) v (by rw [heq, List.cons_append])]

/-- Where no occurrence starts, the text is kept. -/
theorem replace_append_of_none
    (h : ∀ u v, t = u ++ v → v ≠ [] → p.read? (v ++ k) = none) :
    p.replace put (t ++ k) = t ++ p.replace put k := by
  rw [replace, segments_append_of_none h, List.flatMap_append, Piece.flatMap_render_plain, replace]

/-- As `replace_append_of_none`, for the first occurrence only. -/
theorem replaceFirst_append_of_none
    (h : ∀ u v, t = u ++ v → v ≠ [] → p.read? (v ++ k) = none) :
    p.replaceFirst put (t ++ k) = t ++ p.replaceFirst put k := by
  rw [replaceFirst, segments_append_of_none h, Piece.renderFirst_plain_append, replaceFirst]

/-- Nothing starts at a position of a spared text that is no occurrence itself. -/
theorem Spares.read?_eq_none (hs : p.Spares t) (ht : ∀ k, p.read? (t ++ k) = none) (k : List Char) :
    ∀ u v, t = u ++ v → v ≠ [] → p.read? (v ++ k) = none := by
  intro u v heq hv
  cases u with
  | nil =>
    rw [List.nil_append] at heq
    rw [← heq]
    exact ht k
  | cons c u => exact hs.inside heq (List.cons_ne_nil _ _) hv

/-- Replacing starts anew at a spared text. -/
theorem Spares.suffix_replace (hs : p.Spares t) (x k : List Char) :
    p.replace put (t ++ k) <:+ p.replace put (x ++ (t ++ k)) := by
  refine arrival_induction hs (P := fun cs => p.replace put (t ++ k) <:+ p.replace put cs) x
    List.suffix_rfl ?_ ?_
  · intro m a rest hread ih
    rw [replace_of_read? put hread]
    exact List.suffix_append_of_suffix ih
  · intro c cs hread ih
    rw [replace_of_read?_eq_none put hread]
    exact ih.trans (List.suffix_cons c _)

/-- A spared text that is no occurrence is kept by replacing. -/
theorem Spares.infix_replace (hs : p.Spares t) (ht : ∀ k, p.read? (t ++ k) = none)
    (h : t <:+: cs) : t <:+: p.replace put cs := by
  obtain ⟨x, k, rfl⟩ := h
  have hkept : t <+: p.replace put (t ++ k) := by
    rw [replace_append_of_none (hs.read?_eq_none ht k)]
    exact List.prefix_append _ _
  rw [List.append_assoc]
  exact hkept.isInfix.trans (hs.suffix_replace x k).isInfix

/-- A spared text that is no occurrence is kept by replacing the first occurrence. -/
theorem Spares.infix_replaceFirst (hs : p.Spares t) (ht : ∀ k, p.read? (t ++ k) = none)
    (h : t <:+: cs) : t <:+: p.replaceFirst put cs := by
  obtain ⟨x, k, rfl⟩ := h
  rw [List.append_assoc]
  -- what stands behind the first occurrence is not searched, so the text has to be in it before
  suffices hboth : t <:+: x ++ (t ++ k) ∧ t <:+: p.replaceFirst put (x ++ (t ++ k)) from hboth.2
  refine arrival_induction hs (P := fun cs => t <:+: cs ∧ t <:+: p.replaceFirst put cs) x ?_ ?_ ?_
  · rw [replaceFirst_append_of_none (hs.read?_eq_none ht k)]
    exact ⟨(List.prefix_append _ _).isInfix, (List.prefix_append _ _).isInfix⟩
  · rintro m a rest hread ⟨ih, -⟩
    rw [replaceFirst_append hread]
    exact ⟨List.infix_append_of_infix_right ih, List.infix_append_of_infix_right ih⟩
  · rintro c cs hread ⟨ih, ih'⟩
    rw [replaceFirst_cons hread]
    exact ⟨List.infix_cons ih, List.infix_cons ih'⟩

/-- A spared text that is an occurrence is found. -/
theorem Spares.mem_values (hs : p.Spares t) (ht : ∀ k, p.read? (t ++ k) = some (a, k))
    (h : t <:+: cs) : a ∈ p.values cs := by
  obtain ⟨x, k, rfl⟩ := h
  rw [List.append_assoc]
  refine arrival_induction hs (P := fun cs => a ∈ p.values cs) x ?_ ?_ ?_
  · rw [values_of_read? (ht k)]
    exact List.mem_cons_self ..
  · intro m b rest hread ih
    rw [values_of_read? hread]
    exact List.mem_cons_of_mem _ ih
  · intro c cs hread ih
    rw [values_of_read?_eq_none hread]
    exact ih

end Pattern

/-! ## 2.  Constructs that end in front of a statement -/

/-- The text starts with `uniform`, blanks and another word. -/
def Statement.Opens (cs : List Char) : Prop :=
  ∃ b c k, b ≠ [] ∧ Within isBlank b ∧ isWordChar c = true ∧ cs = "uniform".toList ++ (b ++ c :: k)

/-- No text that opens a statement starts inside these parts: a word that could end in `uniform` is
followed by a sign, or is known not to end so. -/
def Guarded : List Part → Prop
  | [] => True
  | .text w :: ps =>
    ('u' ∉ w.toList ∨ Within isWordChar w.toList ∧
      (fenced ps = true ∨ endsWord ps = true ∧ ¬ "uniform".toList <:+ w.toList)) ∧ Guarded ps
  | .blanks :: ps | .gap :: ps => Guarded ps

variable {ps : List Part} {w : String} {x T u v mid rest : List Char}

theorem Statement.Opens.exists_cons (h : Opens T) : ∃ k, T = 'u' :: k := by
  obtain ⟨b, c, k, -, -, -, rfl⟩ := h
  exact ⟨_, rfl⟩

/-- A statement does not open inside a guarded word. -/
theorem not_opens_of_word (hg : Guarded (.text w :: ps)) (hr : Reads ps mid rest)
    (hw : w.toList = u ++ v) (hv : v ≠ []) : ¬ Statement.Opens (v ++ mid) := by
  intro hopens
  obtain ⟨hnot | ⟨hword, hends⟩, -⟩ := hg
  · obtain ⟨k, hk⟩ := hopens.exists_cons
    obtain ⟨c, v, rfl⟩ := List.exists_cons_of_ne_nil hv
    obtain ⟨rfl, -⟩ := List.cons.inj hk
    exact hnot (by rw [hw]; simp)
  · obtain ⟨b, c, k, hb, hblank, hc, heq⟩ := hopens
    have hstops := hr.stops_isWordChar (hends.elim endsWord_of_fenced And.left)
    have hgap : Stops isWordChar (b ++ c :: k) :=
      (stops_append_of_ne_nil hb).2 (hblank.stops fun _ => isWordChar_of_isBlank)
    rw [hw, within_append] at hword
    obtain ⟨rfl, rfl⟩ := run_unique heq hword.2 hstops (by decide) hgap
    rcases hends with hf | ⟨-, hsuffix⟩
    · -- behind the blanks stands a sign, not a word
      obtain ⟨b', c', k', hb', hc', hc'', heq⟩ := hr.exists_of_fenced hf
      obtain ⟨-, hck⟩ := run_unique heq hblank (stops_cons.2 (isBlank_of_isWordChar hc)) hb'
        (stops_cons.2 hc'')
      rw [(List.cons.inj hck).1, hc'] at hc
      exact Bool.noConfusion hc
    · exact hsuffix ⟨u, hw.symm⟩

/-- A statement does not open inside blanks. -/
theorem not_opens_of_blanks (hb : Within isBlank (u ++ v)) (hv : v ≠ []) :
    ¬ Statement.Opens (v ++ mid) := by
  intro hopens
  obtain ⟨k, hk⟩ := hopens.exists_cons
  obtain ⟨c, v, rfl⟩ := List.exists_cons_of_ne_nil hv
  obtain ⟨rfl, -⟩ := List.cons.inj hk
  exact absurd (hb 'u' (by simp)) (by decide)

/-- What guarded parts read ends in front of a statement. -/
theorem Reads.suffix_of_guarded (hT : Statement.Opens T) (hg : Guarded ps)
    (h : Reads ps (x ++ T) rest) : T <:+ rest := by
  induction ps generalizing x with
  | nil =>
    rw [reads_nil] at h
    exact ⟨x, h⟩
  | cons q ps ih =>
    -- the first part ends in front of the statement, or the statement would open inside it
    obtain ⟨m, mid, heq, hnot, hguard, hr⟩ : ∃ m mid, x ++ T = m ++ mid ∧
        (∀ u v, m = u ++ v → v ≠ [] → ¬ Statement.Opens (v ++ mid)) ∧ Guarded ps ∧
        Reads ps mid rest := by
      cases q with
      | text w =>
        obtain ⟨mid, heq, hr⟩ := h
        exact ⟨_, mid, heq, fun u v hw => not_opens_of_word hg hr hw, hg.2, hr⟩
      | blanks =>
        obtain ⟨b, mid, hb, heq, hr⟩ := h
        exact ⟨b, mid, heq, fun u v hu => not_opens_of_blanks (hu ▸ hb), hg, hr⟩
      | gap =>
        obtain ⟨b, mid, -, hb, heq, hr⟩ := h
        exact ⟨b, mid, heq, fun u v hu => not_opens_of_blanks (hu ▸ hb), hg, hr⟩
    rcases List.append_eq_append_iff.1 heq with ⟨v, rfl, rfl⟩ | ⟨x', rfl, rfl⟩
    · cases v with
      | nil => exact ih (x := []) hguard hr
      | cons c v => exact absurd hT (hnot x _ rfl (List.cons_ne_nil _ _))
    · exact ih hguard hr

/-! ## 3.  Constructs that do not start inside a statement -/

/-- The first sign in these parts that is neither blank nor part of a word is no semicolon. -/
def Foreign : List Part → Prop
  | [] => False
  | .text w :: ps => Within isWordChar w.toList ∧ Foreign ps ∨
    ∃ c ∈ w.toList.head?, isWordChar c = false ∧ isBlank c = false ∧ c ≠ ';'
  | .blanks :: ps | .gap :: ps => Foreign ps

/-- The characters of a statement in front of its semicolon. -/
def isBodyChar (c : Char) : Bool :=
  isWordChar c || isBlank c

/-- A stretch within a class ends in front of a character outside it. -/
theorem exists_append_of_within {p : Char → Bool} {b m mid k : List Char} {c : Char}
    (h : b ++ c :: k = m ++ mid) (hm : Within p m) (hc : p c = false) :
    ∃ b', b = m ++ b' ∧ mid = b' ++ c :: k := by
  rcases List.append_eq_append_iff.1 h with ⟨m', rfl, hk⟩ | ⟨b', rfl, hmid⟩
  · cases m' with
    | nil => exact ⟨[], by simp, by simpa using hk.symm⟩
    | cons d m' =>
      obtain ⟨rfl, -⟩ := List.cons.inj hk
      exact absurd (by simp) (hm.not_mem hc)
  · exact ⟨b', rfl, hmid⟩

/-- Foreign parts do not read what is left of a statement. -/
theorem not_reads_of_foreign {b k : List Char} (hf : Foreign ps) (hb : Within isBodyChar b) :
    ¬ Reads ps (b ++ ';' :: k) rest := by
  intro h
  induction ps generalizing b with
  | nil => exact hf
  | cons q ps ih =>
    cases q with
    | text w =>
      obtain ⟨mid, heq, hr⟩ := h
      rcases hf with ⟨hw, hf⟩ | ⟨c, hc, hword, hblank, hne⟩
      · obtain ⟨b', rfl, rfl⟩ := exists_append_of_within heq hw (by decide)
        exact ih hf (within_append.1 hb).2 hr
      · obtain ⟨w', hw'⟩ : ∃ w', w.toList = c :: w' := List.head?_eq_some_iff.1 hc
        rw [hw', List.cons_append] at heq
        cases b with
        | nil => exact hne (List.cons.inj heq).1.symm
        | cons d b =>
          obtain ⟨rfl, -⟩ := List.cons.inj heq
          have hbody := (within_cons.1 hb).1
          rw [isBodyChar, hword, hblank] at hbody
          exact Bool.noConfusion hbody
    | blanks =>
      obtain ⟨m, mid, hm, heq, hr⟩ := h
      obtain ⟨b', rfl, rfl⟩ := exists_append_of_within heq hm (by decide)
      exact ih hf (within_append.1 hb).2 hr
    | gap =>
      obtain ⟨m, mid, -, hm, heq, hr⟩ := h
      obtain ⟨b', rfl, rfl⟩ := exists_append_of_within heq hm (by decide)
      exact ih hf (within_append.1 hb).2 hr

/-! ## 4.  The constructs of a shader -/

namespace Statement

variable {s s' : Statement} {t k : List Char}

/-- Behind `uniform` comes a gap in front of a word. -/
theorem opens_of_read? (h : read? T = some (s, rest)) : Opens T := by
  obtain ⟨hs, mid, rfl, b, _, hne, hb, rfl, _, rfl, -⟩ := reads_of_read? h
  obtain ⟨c, w, hw⟩ := List.exists_cons_of_ne_nil hs.type_isWord.toList_ne_nil
  have hc : isWordChar c = true := hs.type_isWord.within c (by rw [hw]; exact List.mem_cons_self ..)
  exact ⟨b, c, _, hne, hb, hc, by rw [hw, List.cons_append]⟩

/-- Statements do not overlap, if the type of the first does not end in `uniform`. -/
theorem suffix_of_read? (hT : Opens T) (htype : ¬ "uniform".toList <:+ s.type.toList) (hx : x ≠ [])
    (h : read? (x ++ T) = some (s, rest)) : T <:+ rest := by
  obtain ⟨hs, mid, heq, hr⟩ := reads_of_read? h
  have hguard : Guarded [.gap, .text s.type, .gap, .text s.name, .blanks, .text ";"] :=
    ⟨Or.inr ⟨hs.type_isWord.within, Or.inr ⟨rfl, htype⟩⟩, Or.inr ⟨hs.name_within, Or.inl rfl⟩,
      Or.inl (by decide), trivial⟩
  rcases List.append_eq_append_iff.1 heq with ⟨v, huv, rfl⟩ | ⟨x', rfl, rfl⟩
  · cases v with
    | nil => exact Reads.suffix_of_guarded (x := []) hT hguard hr
    | cons c v =>
      -- the statement would open inside the word `uniform`, behind its first letter
      obtain ⟨k, hk⟩ := hT.exists_cons
      obtain ⟨rfl, -⟩ := List.cons.inj hk
      obtain ⟨d, x, rfl⟩ := List.exists_cons_of_ne_nil hx
      have hmem : 'u' ∈ "uniform".toList.tail := by
        rw [huv, List.cons_append, List.tail_cons]
        simp
      exact absurd hmem (by decide)
  · exact Reads.suffix_of_guarded hT hguard hr

/-- A statement is body characters and a semicolon. -/
theorem exists_body (h : ∀ k, read? (t ++ k) = some (s, k)) :
    ∃ b, Within isBodyChar b ∧ t = b ++ [';'] := by
  have hword {w : List Char} (hw : Within isWordChar w) : Within isBodyChar w :=
    hw.mono fun c hc => by rw [isBodyChar, hc, Bool.true_or]
  have hblank {w : List Char} (hw : Within isBlank w) : Within isBodyChar w :=
    hw.mono fun c hc => by rw [isBodyChar, hc, Bool.or_true]
  have h := h []
  rw [List.append_nil] at h
  obtain ⟨hs, _, rfl, b₁, _, -, hb₁, rfl, _, rfl, b₂, _, -, hb₂, rfl, _, rfl, b₃, _, hb₃, rfl, _, rfl,
    rfl⟩ := reads_of_read? h
  refine ⟨"uniform".toList ++ (b₁ ++ (s.type.toList ++ (b₂ ++ (s.name.toList ++ b₃)))), ?_, ?_⟩
  · simp only [within_append]
    exact ⟨by decide, hblank hb₁, hword hs.type_isWord.within, hblank hb₂, hword hs.name_within,
      hblank hb₃⟩
  · simp only [List.append_assoc]
    rfl

/-- A statement that fails a test is no occurrence of those that pass it. -/
theorem read?_filter_eq_none {ok : Statement → Bool} (ht : ∀ k, read? (t ++ k) = some (s, k))
    (hok : ok s = false) (k : List Char) : (pattern.filter ok).read? (t ++ k) = none := by
  show (read? (t ++ k)).filter _ = none
  rw [ht k]
  simp [hok]

/-- Statements of some types spare every other statement. -/
theorem spares_filter {ok : Statement → Bool}
    (hok : ∀ s, ok s = true → ¬ "uniform".toList <:+ s.type.toList)
    (ht : ∀ k, read? (t ++ k) = some (s, k)) (htype : ¬ "uniform".toList <:+ s.type.toList) :
    (pattern.filter ok).Spares t where
  before := by
    intro x k rest s' hx h
    obtain ⟨h, hs'⟩ := Pattern.read?_filter_iff.1 h
    exact suffix_of_read? (opens_of_read? (ht k)) (hok s' hs') hx h
  inside := by
    intro u v k huv hu hv
    rw [Option.eq_none_iff_forall_ne_some]
    rintro ⟨s', rest⟩ h
    obtain ⟨h, -⟩ := Pattern.read?_filter_iff.1 h
    have hread := ht k
    rw [huv, List.append_assoc] at hread
    have hlen := (suffix_of_read? (opens_of_read? h) htype hu hread).length_le
    have hpos := List.length_pos_iff.2 hv
    rw [List.length_append] at hlen
    omega

end Statement

/-- The pattern is spelled in parts that neither run into a statement nor start inside one. -/
def Pattern.Apart {α : Type} (p : Pattern α) : Prop :=
  ∀ {cs rest : List Char} {a : α}, p.read? cs = some (a, rest) →
    ∃ ps, Guarded ps ∧ Foreign ps ∧ Reads ps cs rest

section Apart

variable {α : Type} {p : Pattern α} {s : Statement} {t : List Char}

theorem Pattern.Apart.read?_eq_none (hp : p.Apart) (ht : ∀ k, Statement.read? (t ++ k) = some (s, k))
    (huv : t = u ++ v) (hv : v ≠ []) (k : List Char) : p.read? (v ++ k) = none := by
  rw [Option.eq_none_iff_forall_ne_some]
  rintro ⟨a, rest⟩ h
  obtain ⟨ps, -, hforeign, hr⟩ := hp h
  obtain ⟨b, hb, rfl⟩ := Statement.exists_body ht
  -- what is left of the statement still ends in the semicolon
  obtain ⟨v', rfl⟩ : ∃ v', v = v' ++ [';'] := by
    rcases List.eq_nil_or_concat v with rfl | ⟨v', c, rfl⟩
    · exact absurd rfl hv
    · rw [List.concat_eq_append, ← List.append_assoc] at huv
      exact ⟨v', by rw [List.concat_eq_append, (List.append_inj' huv rfl).2]⟩
  rw [← List.append_assoc, List.append_left_inj] at huv
  rw [huv, within_append] at hb
  rw [List.append_assoc] at hr
  exact not_reads_of_foreign hforeign hb.2 hr

/-- Such a pattern spares every statement. -/
theorem Pattern.Apart.spares (hp : p.Apart) (ht : ∀ k, Statement.read? (t ++ k) = some (s, k)) :
    p.Spares t where
  before := by
    intro x k rest a _ h
    obtain ⟨ps, hguard, -, hr⟩ := hp h
    exact Reads.suffix_of_guarded (Statement.opens_of_read? (ht k)) hguard hr
  inside := fun huv _ hv => hp.read?_eq_none ht huv hv _

end Apart

theorem EvalCall.apart : EvalCall.pattern.Apart := by
  intro cs rest texture h
  obtain ⟨_, ⟨hw, rfl⟩, hr⟩ := EvalCall.spelling.read?_iff.1 h
  refine ⟨_, ?_, ?_, hr⟩
  · exact ⟨Or.inr ⟨hw.within, Or.inl rfl⟩, Or.inl (by decide), Or.inl (by decide), trivial⟩
  · exact Or.inl ⟨hw.within, Or.inr ⟨'.', rfl, by decide⟩⟩

theorem ColorLayout.apart : ColorLayout.pattern.Apart := by
  intro cs rest _ h
  obtain ⟨mid, hr, rfl⟩ := ColorLayout.read?_iff.1 h
  refine ⟨ColorLayout.parts ++ [.blanks], ?_, ?_, hr.trans (.of_blanks (reads_nil.2 rfl))⟩
  · exact ⟨Or.inr ⟨by decide, Or.inl rfl⟩, Or.inl (by decide), Or.inl (by decide),
      Or.inl (by decide), trivial⟩
  · exact Or.inl ⟨by decide, Or.inr ⟨'(', rfl, by decide⟩⟩

theorem FloatLoop.apart : FloatLoop.pattern.Apart := by
  intro cs rest l h
  obtain ⟨hl, hr⟩ := FloatLoop.reads_of_read? h
  have hcounter {ps : List Part} (hf : fenced ps = true) : 'u' ∉ l.counter.toList ∨
      Within isWordChar l.counter.toList ∧ (fenced ps = true ∨
        endsWord ps = true ∧ ¬ "uniform".toList <:+ l.counter.toList) :=
    Or.inr ⟨hl.counter.within, Or.inl hf⟩
  refine ⟨_, ?_, ?_, hr⟩
  · exact ⟨Or.inl (by decide), Or.inl (by decide), Or.inl (by decide), hcounter rfl,
      Or.inl (by decide), Or.inr ⟨hl.start.isWord.within, Or.inl rfl⟩, Or.inl (by decide),
      Or.inl (by decide), hcounter rfl, Or.inl (by decide),
      Or.inr ⟨hl.stop.isWord.within, Or.inl rfl⟩, Or.inl (by decide), Or.inl (by decide),
      hcounter rfl, Or.inl (by decide), Or.inl (by decide), trivial⟩
  · exact Or.inl ⟨by decide, Or.inr ⟨'(', rfl, by decide⟩⟩

theorem Entry.apart {name : String} (hname : IsWord name) : (Entry.pattern name).Apart := by
  intro cs rest parameter h
  obtain ⟨_, ⟨color, hcolor, qualifier, hq, coordinate, hc, hparam, rfl⟩, hr⟩ :=
    Entry.forms_of_read? h
  have hu : ∀ t ∈ colorTypes ++ coordinateTypes, 'u' ∉ t.toList := by decide
  refine ⟨_, ?_, ?_, hr⟩
  · have htail : Guarded [.text coordinate, .gap, .text parameter, .blanks, .text ")"] :=
      ⟨Or.inl (hu _ (List.mem_append_right _ hc)), Or.inr ⟨hparam.within, Or.inl rfl⟩,
        Or.inl (by decide), trivial⟩
    have hqualified : Guarded (qualifier ++
        [.text coordinate, .gap, .text parameter, .blanks, .text ")"]) := by
      simp only [qualifiers, List.mem_cons, List.not_mem_nil, or_false] at hq
      rcases hq with rfl | rfl
      · exact htail
      · exact ⟨Or.inl (by decide), htail⟩
    exact ⟨Or.inl (hu _ (List.mem_append_left _ hcolor)), Or.inr ⟨hname.within, Or.inl rfl⟩,
      Or.inl (by decide), hqualified⟩
  · exact Or.inl ⟨(isWord_of_mem_types (Or.inl hcolor)).within,
      Or.inl ⟨hname.within, Or.inr ⟨'(', rfl, by decide⟩⟩⟩

end ShaderPreview
