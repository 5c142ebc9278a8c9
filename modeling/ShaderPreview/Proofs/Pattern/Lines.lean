import ShaderPreview.Proofs.Pattern.Spellings
import ShaderPreview.Proofs.Text.Lines

/-!
# Replacing and lines

A line break can be lost in one way only: it stands inside an occurrence, and the occurrence is
replaced by text on one line.  This module counts these breaks, and shows that replacing is a matter
of single lines when there are none.

## 1.  Counting

`breaks` counts the breaks inside the occurrences of a pattern, `firstBreaks` those inside the first
one.  If what is put in their place has no break, `newlines_replace` and `newlines_replaceFirst` say
that exactly these are missing afterwards.

## 2.  Line by line

Whether a pattern occurs at a place depends on the text behind it, and a line does not see the next
one.  `Local` is what makes the two agree: an occurrence that ends within a text occurs in that text
alone, and a text that starts with an occurrence still does so when more text follows.  Patterns
with a spelling are local, and so is the colour annotation, although the blanks at its end may be
more when more text follows.

A search then starts anew on every line (`segments_line`), and `lines_replace` and
`lines_replaceFirst` say that the lines of the replaced text are the replaced lines.
-/

namespace ShaderPreview

open Text

variable {α : Type}

/-! ## 1.  Counting -/

/-- The breaks inside the occurrences among some pieces. -/
def Piece.breaks : List (Piece α) → Nat
  | [] => 0
  | plain _ :: ps => breaks ps
  | found t _ :: ps => newlines t + breaks ps

theorem Piece.breaks_append (ps qs : List (Piece α)) : breaks (ps ++ qs) = breaks ps + breaks qs := by
  induction ps with
  | nil => rw [List.nil_append, breaks, Nat.zero_add]
  | cons q ps ih =>
    cases q with
    | plain c => rw [List.cons_append, breaks, breaks, ih]
    | found t a => rw [List.cons_append, breaks, breaks, ih, Nat.add_assoc]

/-- The breaks inside the first occurrence among some pieces. -/
def Piece.firstBreaks : List (Piece α) → Nat
  | [] => 0
  | plain _ :: ps => firstBreaks ps
  | found t _ :: _ => newlines t

/-- Characters outside all occurrences are kept. -/
theorem Piece.flatMap_render_plain (put : α → List Char) (t : List Char) :
    (t.map plain).flatMap (render put) = t := by
  rw [List.flatMap_map]
  exact List.flatMap_singleton' t

/-- Characters in front of the first occurrence are kept. -/
theorem Piece.renderFirst_plain_append (put : α → List Char) (t : List Char) (ps : List (Piece α)) :
    renderFirst put (t.map plain ++ ps) = t ++ renderFirst put ps := by
  induction t with
  | nil => rfl
  | cons c t ih => rw [List.map_cons, List.cons_append, renderFirst, ih, List.cons_append]

namespace Pattern

/-- The breaks inside the occurrences of a pattern. -/
def breaks (p : Pattern α) (cs : List Char) : Nat :=
  Piece.breaks (p.segments cs)

/-- The breaks inside the first occurrence of a pattern. -/
def firstBreaks (p : Pattern α) (cs : List Char) : Nat :=
  Piece.firstBreaks (p.segments cs)

variable {p : Pattern α} {a : α} {c : Char} {m rest cs : List Char}

/-- An occurrence is a text in front of what is left. -/
theorem exists_append_of_read? (h : p.read? cs = some (a, rest)) : ∃ m, m ≠ [] ∧ cs = m ++ rest := by
  obtain ⟨⟨m, rfl⟩, hlt⟩ := p.proper h
  refine ⟨m, ?_, rfl⟩
  rintro rfl
  exact absurd hlt (Nat.lt_irrefl _)

/-- A text is built from its end by putting characters and occurrences in front, as the pattern finds
them. -/
theorem occurrence_induction (p : Pattern α) {P : List Char → Prop} (cs : List Char) (nil : P [])
    (found : ∀ m a rest, m ≠ [] → p.read? (m ++ rest) = some (a, rest) → P rest → P (m ++ rest))
    (plain : ∀ c cs, p.read? (c :: cs) = none → P cs → P (c :: cs)) : P cs := by
  fun_induction segments p cs with
  | case1 => exact nil
  | case2 c cs a rest h ih =>
    obtain ⟨m, hm, heq⟩ := exists_append_of_read? h
    rw [heq] at h ⊢
    exact found m a rest hm h ih
  | case3 c cs h ih => exact plain c cs h ih

theorem segments_append (h : p.read? (m ++ rest) = some (a, rest)) :
    p.segments (m ++ rest) = .found m a :: p.segments rest := by
  rw [segments_of_read? h, List.length_append, Nat.add_sub_cancel, List.take_left]

@[simp] theorem breaks_nil : p.breaks [] = 0 := by
  simp [breaks, Piece.breaks]

theorem breaks_append (h : p.read? (m ++ rest) = some (a, rest)) :
    p.breaks (m ++ rest) = newlines m + p.breaks rest := by
  rw [breaks, segments_append h, Piece.breaks, breaks]

theorem breaks_cons (h : p.read? (c :: cs) = none) : p.breaks (c :: cs) = p.breaks cs := by
  rw [breaks, segments_of_read?_eq_none h, Piece.breaks, breaks]

@[simp] theorem firstBreaks_nil : p.firstBreaks [] = 0 := by
  simp [firstBreaks, Piece.firstBreaks]

theorem firstBreaks_append (h : p.read? (m ++ rest) = some (a, rest)) :
    p.firstBreaks (m ++ rest) = newlines m := by
  rw [firstBreaks, segments_append h, Piece.firstBreaks]

theorem firstBreaks_cons (h : p.read? (c :: cs) = none) :
    p.firstBreaks (c :: cs) = p.firstBreaks cs := by
  rw [firstBreaks, segments_of_read?_eq_none h, Piece.firstBreaks, firstBreaks]

variable {put : α → List Char}

@[simp] theorem replaceFirst_nil : p.replaceFirst put [] = [] := by
  simp [replaceFirst, Piece.renderFirst]

theorem replaceFirst_append (h : p.read? (m ++ rest) = some (a, rest)) :
    p.replaceFirst put (m ++ rest) = put a ++ rest := by
  rw [replaceFirst, segments_append h, Piece.renderFirst, flatMap_text_segments]

theorem replaceFirst_cons (h : p.read? (c :: cs) = none) :
    p.replaceFirst put (c :: cs) = c :: p.replaceFirst put cs := by
  rw [replaceFirst, segments_of_read?_eq_none h, Piece.renderFirst, replaceFirst]

/-- Nothing that is put in place of an occurrence has a break. -/
def OneLine (p : Pattern α) (put : α → List Char) : Prop :=
  ∀ {cs : List Char} {a : α} {rest : List Char}, p.read? cs = some (a, rest) → '\n' ∉ put a

/-- The breaks that are missing after replacing are those inside occurrences. -/
theorem newlines_replace (hput : p.OneLine put) (cs : List Char) :
    newlines (p.replace put cs) + p.breaks cs = newlines cs := by
  induction cs using occurrence_induction p with
  | nil => simp
  | found m a rest hm h ih =>
    rw [replace_of_read? put h, breaks_append h, newlines_append, newlines_append,
      newlines_eq_zero.2 (hput h)]
    omega
  | plain c cs h ih =>
    rw [replace_of_read?_eq_none put h, breaks_cons h, newlines_cons c, newlines_cons c cs]
    omega

/-- The breaks that are missing after replacing the first occurrence are those inside it. -/
theorem newlines_replaceFirst (hput : p.OneLine put) (cs : List Char) :
    newlines (p.replaceFirst put cs) + p.firstBreaks cs = newlines cs := by
  induction cs using occurrence_induction p with
  | nil => simp
  | found m a rest hm h ih =>
    rw [replaceFirst_append h, firstBreaks_append h, newlines_append, newlines_append,
      newlines_eq_zero.2 (hput h)]
    omega
  | plain c cs h ih =>
    rw [replaceFirst_cons h, firstBreaks_cons h, newlines_cons c, newlines_cons c cs]
    omega

/-! ## 2.  Line by line -/

/-- Whether the pattern occurs at the front of a text is settled within the occurrence. -/
structure Local (p : Pattern α) : Prop where
  /-- An occurrence that ends within a text occurs in that text alone. -/
  restrict : ∀ {l l' k : List Char} {a : α},
    p.read? (l ++ k) = some (a, l' ++ k) → p.read? l = some (a, l')
  /-- Where nothing occurs with more text behind, nothing occurs without it. -/
  extend : ∀ {l k : List Char}, p.read? (l ++ k) = none → p.read? l = none

/-- Patterns with a spelling are local. -/
theorem Spelling.local (s : p.Spelling) : p.Local where
  restrict := by
    intro l l' k a h
    obtain ⟨m, heq, hm⟩ := s.exists_of_read? h
    rw [← List.append_assoc, List.append_left_inj] at heq
    rw [heq]
    exact hm l'
  extend := by
    intro l k h
    rw [Option.eq_none_iff_forall_ne_some] at h ⊢
    rintro ⟨a, l'⟩ hl
    obtain ⟨m, rfl, hm⟩ := s.exists_of_read? hl
    rw [List.append_assoc] at h
    exact h _ (hm (l' ++ k))

/-- An occurrence without breaks at the front of a line lies within that line. -/
theorem exists_of_read?_line {l tail : List Char}
    (h : p.read? (l ++ '\n' :: tail) = some (a, rest))
    (hbreak : ∀ m, l ++ '\n' :: tail = m ++ rest → newlines m = 0) :
    ∃ m l', m ≠ [] ∧ l = m ++ l' ∧ rest = l' ++ '\n' :: tail := by
  obtain ⟨m, hm, heq⟩ := exists_append_of_read? h
  have hnot := newlines_eq_zero.1 (hbreak m heq)
  rcases List.append_eq_append_iff.1 heq with ⟨m', rfl, hm'⟩ | ⟨l', rfl, hl'⟩
  · -- the occurrence would go on behind the end of the line
    cases m' with
    | nil => exact ⟨l, [], by simpa using hm, by simp, by simpa using hm'.symm⟩
    | cons c m' =>
      obtain ⟨rfl, -⟩ := List.cons.inj hm'
      exact absurd (by simp) hnot
  · exact ⟨m, l', hm, rfl, hl'⟩

/-- A search goes on anew behind the first line of a text, if no occurrence has a break. -/
theorem segments_line (hp : p.Local) {l tail : List Char} (h : p.breaks (l ++ '\n' :: tail) = 0) :
    p.segments (l ++ '\n' :: tail) = p.segments l ++ .plain '\n' :: p.segments tail := by
  induction hn : l.length using Nat.strongRecOn generalizing l with
  | ind n ih =>
    cases hread : p.read? (l ++ '\n' :: tail) with
    | none =>
      cases l with
      | nil =>
        rw [List.nil_append] at hread ⊢
        rw [segments_of_read?_eq_none hread, segments_nil, List.nil_append]
      | cons c l =>
        have hl := hp.extend hread
        rw [List.cons_append] at hread h ⊢
        rw [breaks_cons hread] at h
        have hrest := ih l.length (by rw [← hn]; simp) h rfl
        rw [segments_of_read?_eq_none hread, segments_of_read?_eq_none hl, hrest, List.cons_append]
    | some r =>
      obtain ⟨a, rest⟩ := r
      have hbreak : ∀ m, l ++ '\n' :: tail = m ++ rest → newlines m = 0 := by
        intro m heq
        rw [heq] at hread h
        rw [breaks_append hread] at h
        omega
      obtain ⟨m, l', hm, rfl, rfl⟩ := exists_of_read?_line hread hbreak
      have hl := hp.restrict hread
      rw [List.append_assoc] at hread h ⊢
      rw [breaks_append hread] at h
      have hlt : l'.length < n := by
        have := List.length_pos_iff.2 hm
        rw [← hn, List.length_append]
        omega
      have hrest := ih l'.length hlt (by omega) rfl
      rw [segments_append hread, segments_append hl, hrest, List.cons_append]

/-- Behind the first line of a text without occurrences over a break there is no such occurrence. -/
theorem breaks_line (hp : p.Local) {l tail : List Char} (h : p.breaks (l ++ '\n' :: tail) = 0) :
    p.breaks tail = 0 := by
  rw [breaks, segments_line hp h, Piece.breaks_append, Piece.breaks] at h
  exact (Nat.add_eq_zero_iff.1 h).2

/-- Replacing in a text goes on anew behind its first line, if no occurrence has a break. -/
theorem replace_line (hp : p.Local) (put : α → List Char) {l tail : List Char}
    (h : p.breaks (l ++ '\n' :: tail) = 0) :
    p.replace put (l ++ '\n' :: tail) = p.replace put l ++ '\n' :: p.replace put tail := by
  rw [replace, segments_line hp h, List.flatMap_append, List.flatMap_cons, Piece.render_plain]
  rfl

/-- The values of a text are those of its first line and of what follows, if no occurrence has a
break. -/
theorem values_line (hp : p.Local) {l tail : List Char} (h : p.breaks (l ++ '\n' :: tail) = 0) :
    p.values (l ++ '\n' :: tail) = p.values l ++ p.values tail := by
  rw [values, segments_line hp h, List.filterMap_append, List.filterMap_cons]
  rfl

/-- If no occurrence has a break, the lines of the replaced text are the replaced lines. -/
theorem lines_replace (hp : p.Local) (hput : p.OneLine put) {cs : List Char}
    (h : p.breaks cs = 0) : lines (p.replace put cs) = (lines cs).map (p.replace put) := by
  have hline {l : List Char} (hl : '\n' ∉ l) : '\n' ∉ p.replace put l := by
    have := newlines_replace hput l
    rw [newlines_eq_zero.2 hl] at this
    exact newlines_eq_zero.1 (by omega)
  induction cs using line_induction with
  | last l hl => rw [lines_of_not_mem hl, lines_of_not_mem (hline hl), List.map_singleton]
  | step l tail hl ih =>
    rw [replace_line hp put h, lines_append_newline, lines_append_newline, lines_of_not_mem hl,
      lines_of_not_mem (hline hl), ih (breaks_line hp h), List.map_append, List.map_singleton]

/-- Lines with the first occurrence replaced, on the first line that has one. -/
def replaceFirstLine (p : Pattern α) (put : α → List Char) : List (List Char) → List (List Char)
  | [] => []
  | l :: ls => if p.occursIn l then p.replaceFirst put l :: ls else l :: replaceFirstLine p put ls

theorem occursIn_of_read? (h : p.read? cs = some (a, rest)) : p.occursIn cs = true := by
  cases cs with
  | nil => simp at h
  | cons c cs => simp [occursIn, first?, h]

theorem occursIn_cons (h : p.read? (c :: cs) = none) : p.occursIn (c :: cs) = p.occursIn cs := by
  simp [occursIn, first?, h]

/-- Without an occurrence every character is a piece of its own. -/
theorem segments_of_occursIn_eq_false (h : p.occursIn cs = false) :
    p.segments cs = cs.map .plain := by
  induction cs with
  | nil => exact segments_nil p
  | cons c cs ih =>
    cases hread : p.read? (c :: cs) with
    | none =>
      rw [occursIn_cons hread] at h
      rw [segments_of_read?_eq_none hread, ih h, List.map_cons]
    | some r =>
      rw [occursIn_of_read? hread] at h
      exact Bool.noConfusion h

/-- Without an occurrence there is nothing to replace. -/
theorem replace_of_occursIn_eq_false (h : p.occursIn cs = false) : p.replace put cs = cs := by
  rw [replace, segments_of_occursIn_eq_false h, Piece.flatMap_render_plain]

theorem replaceFirst_of_occursIn_eq_false (h : p.occursIn cs = false) :
    p.replaceFirst put cs = cs := by
  have hplain := Piece.renderFirst_plain_append put cs []
  rw [List.append_nil, Piece.renderFirst, List.append_nil] at hplain
  rw [replaceFirst, segments_of_occursIn_eq_false h, hplain]

/-- Replacing the first occurrence ends on the first line, or goes on anew behind it. -/
theorem replaceFirst_line (hp : p.Local) (put : α → List Char) {l tail : List Char}
    (h : p.firstBreaks (l ++ '\n' :: tail) = 0) :
    (p.occursIn l = true ∧
      p.replaceFirst put (l ++ '\n' :: tail) = p.replaceFirst put l ++ '\n' :: tail) ∨
    (p.occursIn l = false ∧ p.firstBreaks tail = 0 ∧
      p.replaceFirst put (l ++ '\n' :: tail) = l ++ '\n' :: p.replaceFirst put tail) := by
  induction l with
  | nil =>
    rw [List.nil_append] at h ⊢
    cases hread : p.read? ('\n' :: tail) with
    | none =>
      rw [firstBreaks_cons hread] at h
      exact Or.inr ⟨rfl, h, replaceFirst_cons hread⟩
    | some r =>
      -- an occurrence here would start with the break
      obtain ⟨a, rest⟩ := r
      obtain ⟨m, hm, heq⟩ := exists_append_of_read? hread
      rw [heq] at hread h
      rw [firstBreaks_append hread] at h
      obtain ⟨c, m, rfl⟩ := List.exists_cons_of_ne_nil hm
      obtain ⟨rfl, -⟩ := List.cons.inj heq
      exact absurd (List.mem_cons_self ..) (newlines_eq_zero.1 h)
  | cons c l ih =>
    cases hread : p.read? (c :: l ++ '\n' :: tail) with
    | none =>
      have hl := hp.extend hread
      rw [List.cons_append] at hread h ⊢
      rw [firstBreaks_cons hread] at h
      rw [occursIn_cons hl, replaceFirst_cons hread, replaceFirst_cons hl]
      rcases ih h with ⟨hocc, hrep⟩ | ⟨hocc, hbr, hrep⟩
      · exact Or.inl ⟨hocc, by rw [hrep, List.cons_append]⟩
      · exact Or.inr ⟨hocc, hbr, by rw [hrep, List.cons_append]⟩
    | some r =>
      obtain ⟨a, rest⟩ := r
      have hbreak : ∀ m, c :: l ++ '\n' :: tail = m ++ rest → newlines m = 0 := by
        intro m heq
        rw [heq] at hread h
        rw [firstBreaks_append hread] at h
        exact h
      obtain ⟨m, l', hm, hl', rfl⟩ := exists_of_read?_line hread hbreak
      have hl := hp.restrict hread
      rw [hl'] at hl hread ⊢
      rw [List.append_assoc] at hread ⊢
      refine Or.inl ⟨occursIn_of_read? hl, ?_⟩
      rw [replaceFirst_append hread, replaceFirst_append hl, List.append_assoc]

/-- If the first occurrence has no break, it is replaced on the first line that has an occurrence. -/
theorem lines_replaceFirst (hp : p.Local) (hput : p.OneLine put) {cs : List Char}
    (h : p.firstBreaks cs = 0) :
    lines (p.replaceFirst put cs) = p.replaceFirstLine put (lines cs) := by
  have hline {l : List Char} (hl : '\n' ∉ l) : '\n' ∉ p.replaceFirst put l := by
    have := newlines_replaceFirst hput l
    rw [newlines_eq_zero.2 hl] at this
    exact newlines_eq_zero.1 (by omega)
  induction cs using line_induction with
  | last l hl =>
    rw [lines_of_not_mem hl, lines_of_not_mem (hline hl), replaceFirstLine, replaceFirstLine]
    cases hocc : p.occursIn l with
    | true => rfl
    | false => rw [replaceFirst_of_occursIn_eq_false hocc]; rfl
  | step l tail hl ih =>
    rw [lines_append_newline l tail, lines_of_not_mem hl, List.singleton_append, replaceFirstLine]
    rcases replaceFirst_line hp put h with ⟨hocc, hrep⟩ | ⟨hocc, hbr, hrep⟩
    · rw [hrep, lines_append_newline, lines_of_not_mem (hline hl), if_pos hocc,
        List.singleton_append]
    · rw [hrep, lines_append_newline, lines_of_not_mem hl, ih hbr, if_neg (by simp [hocc]),
        List.singleton_append]

end Pattern

/-- The colour annotation is local: more text behind it brings at most more blanks. -/
theorem ColorLayout.local : ColorLayout.pattern.Local where
  restrict := by
    intro l l' k u h
    obtain ⟨mid, hr, hmid⟩ := ColorLayout.read?_iff.1 h
    obtain ⟨m, heq, hm⟩ := reads_iff.1 hr
    obtain ⟨b, hb, hstops, rfl⟩ := Read.blanks_eq_iff.1 hmid
    rw [← List.append_assoc, ← List.append_assoc, List.append_left_inj, List.append_assoc] at heq
    rw [heq]
    refine ColorLayout.read?_iff.2 ⟨b ++ l', hm.append _, Read.blanks_eq_iff.2 ⟨b, hb, ?_, rfl⟩⟩
    cases l' with
    | nil => exact stops_nil
    | cons c l' => exact hstops
  extend := by
    intro l k h
    rw [Option.eq_none_iff_forall_ne_some] at h ⊢
    rintro ⟨u, l'⟩ hl
    obtain ⟨mid, hr, -⟩ := ColorLayout.read?_iff.1 hl
    exact h (u, _) (ColorLayout.read?_iff.2 ⟨mid ++ k, hr.append k, rfl⟩)

end ShaderPreview
