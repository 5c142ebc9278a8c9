import ShaderPreview.Proofs.LineFidelity
import ShaderPreview.Proofs.Removal

/-!
# What the comments for removed declarations swallow

A removed declaration gives way to a comment, and a comment goes on to the end of its line.  Text that
follows the declaration on its line is swallowed.  So is a slash right in front of it, which becomes
the first of the two slashes that start the comment.

## 1.  Comments

`withoutComments` deletes line comments.  It carries a state, inside a comment or outside, and
`withoutComments_note` says that from either state the comment for a declaration leads inside.

## 2.  Tidy shaders

`Tidy` says where declarations may stand: each ends its line or is followed by another one, and has
no slash right in front of it.  The equations `tidy_append` and `tidy_cons` follow the search.

## 3.  The two texts

For a shader without comments of its own, `Deletion` relates the text without comments to the shader
without the declarations, for both states at once: one is always a sublist of the other, and
`deletion` says when they are equal.  `withoutComments_eq_iff_tidy` is the result for the outside.
-/

namespace ShaderPreview

open Text

/-! ## 1.  Comments -/

/-- The text without its line comments, read from inside a comment or from outside.  A comment goes
from two slashes up to the end of the line, which is kept. -/
def withoutComments : Bool → List Char → List Char
  | _, [] => []
  | false, '/' :: '/' :: cs => withoutComments true cs
  | false, c :: cs => c :: withoutComments false cs
  | true, c :: cs => if c = '\n' then c :: withoutComments false cs else withoutComments true cs

section Comments

variable {c : Char} {w cs : List Char}

/-- Outside of comments a character is kept, unless it is the first of two slashes. -/
theorem withoutComments_cons (h : c = '/' → cs.head? ≠ some '/') :
    withoutComments false (c :: cs) = c :: withoutComments false cs := by
  rw [withoutComments]
  rintro cs' rfl rfl
  exact h rfl rfl

theorem withoutComments_newline (cs : List Char) :
    withoutComments true ('\n' :: cs) = '\n' :: withoutComments false cs := by
  rw [withoutComments, if_pos rfl]

theorem withoutComments_inside (h : c ≠ '\n') :
    withoutComments true (c :: cs) = withoutComments true cs := by
  rw [withoutComments, if_neg h]

theorem withoutComments_append (h : '\n' ∉ w) :
    withoutComments true (w ++ cs) = withoutComments true cs := by
  induction w with
  | nil => rfl
  | cons c w ih =>
    rw [List.mem_cons, not_or] at h
    rw [List.cons_append, withoutComments_inside (Ne.symm h.1), ih h.2]

end Comments

section Notes

variable {d : Dialect} {s : Statement}

/-- The comment for a removed declaration is two slashes and more on the same line. -/
theorem exists_note_eq (d : Dialect) (hs : s.Proper) :
    ∃ w, note d s = '/' :: '/' :: w ∧ '\n' ∉ w := by
  have hname := newline_not_mem_of_word hs.name_within
  unfold note
  split
  · refine ⟨' ' :: (s.name.toList ++ " removed".toList), by unfold Builtin.comment; rfl, ?_⟩
    simp only [List.mem_cons, List.mem_append, not_or]
    exact ⟨by decide, hname, by decide⟩
  · unfold Texture.comment
    split
    · exact ⟨" built-in mask".toList, by decide, by decide⟩
    · refine ⟨" moved ".toList ++ s.name.toList, rfl, ?_⟩
      rw [List.mem_append, not_or]
      exact ⟨by decide, hname⟩

/-- The comment for a removed declaration leads inside a comment. -/
theorem withoutComments_note (hs : s.Proper) (inside : Bool) (cs : List Char) :
    withoutComments inside (note d s ++ cs) = withoutComments true cs := by
  obtain ⟨w, hnote, hw⟩ := exists_note_eq d hs
  rw [hnote, List.cons_append, List.cons_append]
  cases inside with
  | false => rw [withoutComments, withoutComments_append hw]
  | true =>
    rw [withoutComments_inside (by decide), withoutComments_inside (by decide),
      withoutComments_append hw]

/-- A slash in front of the comment for a removed declaration is swallowed. -/
theorem withoutComments_slash_note (hs : s.Proper) (cs : List Char) :
    withoutComments false ('/' :: (note d s ++ cs)) = withoutComments true cs := by
  obtain ⟨w, hnote, hw⟩ := exists_note_eq d hs
  rw [hnote, List.cons_append, List.cons_append, withoutComments,
    withoutComments_inside (by decide), withoutComments_append hw]

end Notes

/-! ## 2.  Tidy shaders -/

section Tidy

variable {d : Dialect} {s : Statement} {c : Char} {m rest cs : List Char}

/-- The text is at its end, at the end of a line or at a declaration that is removed. -/
def EndsLine (d : Dialect) (cs : List Char) : Prop :=
  cs.head? = none ∨ cs.head? = some '\n' ∨ ((removal d).read? cs).isSome = true

/-- Every declaration that is removed ends its line or is followed by another one, and no slash stands
right in front of it. -/
def Tidy (d : Dialect) (cs : List Char) : Prop :=
  ∀ a c s b, cs = a ++ c → (removal d).read? c = some (s, b) → a.getLast? ≠ some '/' ∧ EndsLine d b

theorem tidy_nil : Tidy d [] := by
  intro a c s b heq hread
  obtain ⟨rfl, rfl⟩ := List.append_eq_nil_iff.1 heq.symm
  simp at hread

/-- The text behind a tidy place is tidy. -/
theorem Tidy.of_append (h : Tidy d (m ++ rest)) : Tidy d rest := by
  rintro a c s b rfl hread
  obtain ⟨hlast, hends⟩ := h (m ++ a) c s b (by rw [List.append_assoc]) hread
  refine ⟨fun ha => hlast ?_, hends⟩
  rw [List.getLast?_append, ha, Option.some_or]

/-- A text that starts with a removed declaration. -/
theorem tidy_append (h : (removal d).read? (m ++ rest) = some (s, rest)) :
    Tidy d (m ++ rest) ↔ Tidy d rest ∧ EndsLine d rest := by
  refine ⟨fun htidy => ⟨htidy.of_append, (htidy [] _ s rest rfl h).2⟩, ?_⟩
  rintro ⟨htidy, hends⟩ a c s' b heq hread
  -- nothing that is removed starts inside the declaration
  have hspares := removal_spares h
  have hlast (a' : List Char) (ha' : a'.getLast? ≠ some '/') : (m ++ a').getLast? ≠ some '/' := by
    rw [List.getLast?_append]
    cases ha : a'.getLast? with
    | none =>
      intro hm
      exact removal_slash_not_mem h (List.mem_of_getLast? hm)
    | some x => rwa [Option.some_or, ← ha]
  rcases List.append_eq_append_iff.1 heq with ⟨a', rfl, hrest⟩ | ⟨v, rfl, rfl⟩
  · obtain ⟨ha', hb⟩ := htidy a' c s' b hrest hread
    exact ⟨hlast a' ha', hb⟩
  · cases v with
    | nil =>
      obtain ⟨-, hb⟩ := htidy [] rest s' b rfl hread
      have hnil := hlast [] (by simp)
      rw [List.append_nil, List.append_nil] at hnil
      exact ⟨hnil, hb⟩
    | cons x v =>
      cases a with
      | nil =>
        rw [List.nil_append] at h
        obtain ⟨-, rfl⟩ := Prod.mk.inj (Option.some.inj (h.symm.trans hread))
        exact ⟨by simp, hends⟩
      | cons y a =>
        rw [hspares.inside rfl (List.cons_ne_nil _ _) (List.cons_ne_nil _ _)] at hread
        simp at hread

/-- A text that starts with another character. -/
theorem tidy_cons (h : (removal d).read? (c :: cs) = none) :
    Tidy d (c :: cs) ↔ Tidy d cs ∧ (c = '/' → (removal d).read? cs = none) := by
  constructor
  · intro htidy
    refine ⟨htidy.of_append (m := [c]), ?_⟩
    rintro rfl
    rw [Option.eq_none_iff_forall_ne_some]
    rintro ⟨s, b⟩ hread
    exact (htidy ['/'] cs s b rfl hread).1 rfl
  · rintro ⟨htidy, hslash⟩ a c' s b heq hread
    cases a with
    | nil =>
      rw [List.nil_append] at heq
      rw [← heq, h] at hread
      simp at hread
    | cons x a =>
      obtain ⟨rfl, hcs⟩ := List.cons.inj heq
      obtain ⟨hlast, hends⟩ := htidy a c' s b hcs hread
      refine ⟨?_, hends⟩
      cases a with
      | nil =>
        intro hc
        obtain rfl : c = '/' := by simpa using hc
        have hcs : cs = c' := hcs
        rw [← hcs, hslash rfl] at hread
        simp at hread
      | cons y a => rwa [List.getLast?_cons_cons]

end Tidy

/-! ## 3.  The two texts -/

/-- The text with a comment for every declaration that is removed. -/
def noted (d : Dialect) (cs : List Char) : List Char :=
  (removal d).replace (note d) cs

/-- The text without the declarations that are removed. -/
def bare (d : Dialect) (cs : List Char) : List Char :=
  (removal d).replace (fun _ => []) cs

section Deletion

variable {d : Dialect} {s : Statement} {c : Char} {m rest cs : List Char}

theorem noted_append (h : (removal d).read? (m ++ rest) = some (s, rest)) :
    noted d (m ++ rest) = note d s ++ noted d rest :=
  Pattern.replace_of_read? _ h

theorem noted_cons (h : (removal d).read? (c :: cs) = none) : noted d (c :: cs) = c :: noted d cs :=
  Pattern.replace_of_read?_eq_none _ h

theorem bare_append (h : (removal d).read? (m ++ rest) = some (s, rest)) :
    bare d (m ++ rest) = bare d rest :=
  Pattern.replace_of_read? _ h

theorem bare_cons (h : (removal d).read? (c :: cs) = none) : bare d (c :: cs) = c :: bare d cs :=
  Pattern.replace_of_read?_eq_none _ h

/-- The text without comments is a sublist of the text without declarations, and it is all of it when
the declarations are tidy.  From inside a comment the text also has to end its line at once. -/
structure Deletion (d : Dialect) (cs : List Char) : Prop where
  outside : (withoutComments false (noted d cs)).Sublist (bare d cs)
  outside_eq : withoutComments false (noted d cs) = bare d cs ↔ Tidy d cs
  inside : (withoutComments true (noted d cs)).Sublist (bare d cs)
  inside_eq : withoutComments true (noted d cs) = bare d cs ↔ Tidy d cs ∧ EndsLine d cs

theorem deletion_nil : Deletion d [] := by
  have hnoted : noted d [] = [] := Pattern.replace_nil _ _
  have hbare : bare d [] = [] := Pattern.replace_nil _ _
  refine ⟨?_, ?_, ?_, ?_⟩ <;> rw [hnoted, hbare]
  · exact List.Sublist.refl _
  · exact iff_of_true rfl tidy_nil
  · exact List.Sublist.refl _
  · exact iff_of_true rfl ⟨tidy_nil, Or.inl rfl⟩

/-- Behind a declaration the text goes on inside a comment. -/
theorem deletion_append (h : (removal d).read? (m ++ rest) = some (s, rest)) (ih : Deletion d rest) :
    Deletion d (m ++ rest) := by
  have hwithout (inside : Bool) : withoutComments inside (noted d (m ++ rest)) =
      withoutComments true (noted d rest) := by
    rw [noted_append h, withoutComments_note (removal_proper h)]
  have hends : EndsLine d (m ++ rest) := Or.inr (Or.inr (by rw [h, Option.isSome_some]))
  refine ⟨?_, ?_, ?_, ?_⟩ <;> rw [hwithout, bare_append h]
  · exact ih.inside
  · rw [ih.inside_eq, tidy_append h]
  · exact ih.inside
  · rw [ih.inside_eq, tidy_append h, and_iff_left hends]

/-- A slash is kept, unless a declaration follows it or another slash. -/
theorem head?_noted_ne_slash (h : (removal d).read? cs = none) (hcs : ¬ ['/', '/'] <:+: '/' :: cs) :
    (noted d cs).head? ≠ some '/' := by
  cases cs with
  | nil =>
    rw [noted, Pattern.replace_nil]
    simp
  | cons c cs =>
    rw [noted_cons h, List.head?_cons]
    intro hc
    obtain rfl := Option.some.inj hc
    exact hcs (List.prefix_append ['/', '/'] cs).isInfix

/-- What is not longer than `l` is no character more than `l`. -/
theorem ne_cons_of_sublist {l l' : List Char} (h : l'.Sublist l) : l' ≠ c :: l := by
  rintro rfl
  exact absurd h.length_le (by simp)

/-- Outside of comments a character is kept, unless it is a slash in front of a declaration. -/
theorem outside_cons (h : (removal d).read? (c :: cs) = none) (hcs : ¬ ['/', '/'] <:+: c :: cs)
    (ih : Deletion d cs) :
    (withoutComments false (noted d (c :: cs))).Sublist (bare d (c :: cs)) ∧
      (withoutComments false (noted d (c :: cs)) = bare d (c :: cs) ↔ Tidy d (c :: cs)) := by
  rw [bare_cons h, noted_cons h, tidy_cons h]
  by_cases hslash : c = '/' → (removal d).read? cs = none
  · rw [withoutComments_cons fun hc => head?_noted_ne_slash (hslash hc) (hc ▸ hcs),
      List.cons_inj_right, ih.outside_eq]
    exact ⟨ih.outside.cons_cons c, (and_iff_left hslash).symm⟩
  · obtain ⟨rfl, hsome⟩ := Classical.not_imp.1 hslash
    obtain ⟨⟨s, rest⟩, hread⟩ := Option.ne_none_iff_exists'.1 hsome
    obtain ⟨m, -, rfl⟩ := Pattern.exists_append_of_read? hread
    have hproper := removal_proper hread
    have hinside := ih.inside
    rw [noted_append hread, withoutComments_note hproper] at hinside
    rw [noted_append hread, withoutComments_slash_note hproper]
    exact ⟨hinside.cons '/', iff_of_false (ne_cons_of_sublist hinside) fun htidy => hslash htidy.2⟩

/-- Inside a comment only the end of the line is kept. -/
theorem inside_cons (h : (removal d).read? (c :: cs) = none) (ih : Deletion d cs) :
    (withoutComments true (noted d (c :: cs))).Sublist (bare d (c :: cs)) ∧
      (withoutComments true (noted d (c :: cs)) = bare d (c :: cs) ↔
        Tidy d (c :: cs) ∧ EndsLine d (c :: cs)) := by
  rw [bare_cons h, noted_cons h, tidy_cons h]
  by_cases hc : c = '\n'
  · subst hc
    have hends : EndsLine d ('\n' :: cs) := Or.inr (Or.inl rfl)
    rw [withoutComments_newline, List.cons_inj_right, ih.outside_eq, and_iff_left hends]
    exact ⟨ih.outside.cons_cons '\n', (and_iff_left fun hslash => absurd hslash (by decide)).symm⟩
  · have hends : ¬ EndsLine d (c :: cs) := by
      rintro (hnil | hline | hread)
      · simp at hnil
      · exact hc (Option.some.inj hline)
      · rw [h] at hread
        exact Bool.noConfusion hread
    rw [withoutComments_inside hc]
    exact ⟨ih.inside.cons c, iff_of_false (ne_cons_of_sublist ih.inside) fun htidy => hends htidy.2⟩

/-- The text without comments and the text without declarations, for a text without comments of its
own. -/
theorem deletion (d : Dialect) {cs : List Char} (hcs : ¬ ['/', '/'] <:+: cs) : Deletion d cs := by
  induction cs using Pattern.occurrence_induction (removal d) with
  | nil => exact deletion_nil
  | found m s rest hm h ih =>
    exact deletion_append h (ih fun hrest => hcs (List.infix_append_of_infix_right hrest))
  | plain c cs h ih =>
    have ih := ih fun hrest => hcs (List.infix_cons hrest)
    obtain ⟨houtside, houtside_eq⟩ := outside_cons h hcs ih
    obtain ⟨hinside, hinside_eq⟩ := inside_cons h ih
    exact ⟨houtside, houtside_eq, hinside, hinside_eq⟩

end Deletion

/-- Nothing but the removed declarations is missing, once the comments are deleted, if and only if the
declarations are tidy.  Whatever is missing otherwise was swallowed by a comment: nothing is added
and the order is kept. -/
theorem withoutComments_eq_iff_tidy (d : Dialect) (source : String)
    (hsource : ¬ ['/', '/'] <:+: source.toList) :
    moveTextures d (hideBuiltins d source.toList) = noted d source.toList ∧
      (withoutComments false (moveTextures d (hideBuiltins d source.toList))).Sublist
        (bare d source.toList) ∧
      (withoutComments false (moveTextures d (hideBuiltins d source.toList)) =
        bare d source.toList ↔ Tidy d source.toList) := by
  have hnoted : moveTextures d (hideBuiltins d source.toList) = noted d source.toList :=
    moveTextures_hideBuiltins d source.toList
  have hdeletion := deletion d hsource
  rw [hnoted]
  exact ⟨rfl, hdeletion.outside, hdeletion.outside_eq⟩

/-- A declaration on a line of its own is tidy, one in front of a statement is not. -/
theorem tidy_of_own_line :
    Tidy .standard "uniform float iTime;\nfloat x;".toList ∧
      ¬ Tidy .standard "uniform float iTime; float x;".toList := by
  have hown := withoutComments_eq_iff_tidy .standard "uniform float iTime;\nfloat x;"
    (mt mentions_iff.2 (by decide))
  have hshared := withoutComments_eq_iff_tidy .standard "uniform float iTime; float x;"
    (mt mentions_iff.2 (by decide))
  refine ⟨hown.2.2.1 (by decide +kernel), fun h => ?_⟩
  exact absurd (hshared.2.2.2 h) (by decide +kernel)

/-- The statement behind a declaration is swallowed. -/
theorem statement_swallowed :
    withoutComments false (moveTextures .standard (hideBuiltins .standard
      "uniform float iTime; float x;".toList)) = [] ∧
    bare .standard "uniform float iTime; float x;".toList = " float x;".toList := by
  decide +kernel

end ShaderPreview
