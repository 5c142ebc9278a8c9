import ShaderPreview.Proofs.EntrySignature
import ShaderPreview.Proofs.HiddenBuiltins
import ShaderPreview.Proofs.LoopHeaders
import ShaderPreview.Proofs.Pattern.Engines
import ShaderPreview.Proofs.References
import ShaderPreview.Proofs.TextureCalls

/-!
# Every substitution has one meaning

The passes are given by regular expressions, which `Expression` states with their groups, alternatives
and repetitions.  This module shows for each of them that its matches are the occurrences that the pass
replaces, and that nothing is left to an engine.

## 1.  Statements

The redeclarations of built-ins and the declarations of textures differ in their types and names only.
No type ends in `uniform`, so statements do not overlap: `Statement.separate_filter`.

## 2.  Calls

A call starts wherever the rest of its word starts.  These are the only overlaps, and the calls in one
word end together: `EvalCall.separate_or_same_word`.

## 3.  Annotations

A match may stop before any of the blanks behind an annotation.  The longest match takes all of them:
`ColorLayout.occurs_iff`.

## 4.  Headers, signatures and references

Their spellings have been treated before.  It remains to compare them with the expressions.

## 5.  All passes

`substitutions_decompose_uniquely`.
-/

namespace ShaderPreview

open Text Expression

theorem matches_word {ι : Type} {γ : ι → String} {w : String} :
    (many1 isWordChar).Matches γ w.toList ↔ IsWord w :=
  matches_many1_toList.trans ⟨fun h => ⟨h.1, h.2⟩, fun h => ⟨h.ne_empty, h.within⟩⟩

theorem matches_numeral {ι : Type} {γ : ι → String} {w : String} :
    (many1 Char.isDigit).Matches γ w.toList ↔ FloatLoop.IsNumeral w :=
  matches_many1_toList.trans ⟨fun h => ⟨h.1, h.2⟩, fun h => ⟨h.ne_empty, h.within⟩⟩

/-! ## 1.  Statements -/

namespace Statement

variable {types : List String} {name : Expression Unit} {ok : Statement → Bool}

/-- `uniform`, one of the types, what the expression matches, and a semicolon. -/
def expression (types : List String) (name : Expression Unit) : Expression Unit :=
  sequence [text "uniform", many1 isBlank, oneOf types, many1 isBlank, group () name, many isBlank,
    text ";"]

theorem describes (hne : types ≠ []) (hok : ∀ s : Statement, s.Proper ∧ ok s = true ↔
      s.type ∈ types ∧ name.Matches (fun _ => s.name) s.name.toList) :
    (expression types name).Describes (spelling.filter ok).construct fun s _ => s.name := by
  refine describes_of_spelledBy fun γ => SpelledBy.congr (spelledBy_text.append <|
    spelledBy_gap.append <| (spelledBy_oneOf hne).append <| spelledBy_gap.append <|
    spelledBy_group.append <| spelledBy_blanks.append <| spelledBy_text.append spelledBy_nil)
    fun ps => ?_
  simp only [↓existsAndEq, and_true, true_and, List.append_nil, List.cons_append, List.nil_append]
  constructor
  · rintro ⟨type, ⟨htype, hname⟩, rfl⟩
    obtain ⟨hs, hok⟩ := (hok ⟨type, γ ()⟩).2 ⟨htype, hname⟩
    exact ⟨_, rfl, ⟨hs, rfl⟩, hok⟩
  · rintro ⟨s, rfl, ⟨hs, rfl⟩, hs'⟩
    obtain ⟨htype, hname⟩ := (hok s).1 ⟨hs, hs'⟩
    exact ⟨_, ⟨htype, hname⟩, rfl⟩

/-- Statements do not overlap, if no type ends in `uniform`. -/
theorem separate_filter (hok : ∀ s, ok s = true → ¬ "uniform".toList <:+ s.type.toList) :
    (spelling.filter ok).construct.Separate := by
  rintro x u v k m s s' his hu hv ⟨r, hr⟩ his'
  obtain ⟨hread, hs⟩ := Pattern.read?_filter_iff.1 (((spelling.filter ok).finds (k := k)).2 his)
  obtain ⟨hread', -⟩ := Pattern.read?_filter_iff.1 (((spelling.filter ok).finds (k := r)).2 his')
  rw [hr] at hread'
  rw [List.append_assoc] at hread
  have hlen := (suffix_of_read? (opens_of_read? hread') (hok s hs) hu hread).length_le
  have hpos := List.length_pos_iff.2 hv
  rw [List.length_append] at hlen
  omega

end Statement

namespace Builtin

variable {d : Dialect} {b : Builtin}

/-- The statements that declare the built-in again. -/
def expression (b : Builtin) : Expression Unit :=
  Statement.expression b.types (oneOf b.names)

theorem types_ne_nil (hb : b ∈ ofDialect d) : b.types ≠ [] := by
  simp only [ofDialect, List.mem_cons, List.not_mem_nil, or_false] at hb
  rcases hb with rfl | rfl | rfl | rfl | rfl <;> exact List.cons_ne_nil _ _

theorem names_ne_nil (hb : b ∈ ofDialect d) : b.names ≠ [] := by
  simp only [ofDialect, List.mem_cons, List.not_mem_nil, or_false] at hb
  rcases hb with rfl | rfl | rfl | rfl | rfl
  · dsimp only
    split
    · exact List.cons_ne_nil _ _
    · next h => simpa using h
  all_goals exact List.cons_ne_nil _ _

theorem describes (hb : b ∈ ofDialect d) :
    b.expression.Describes b.spelling.construct fun s _ => s.name := by
  refine Statement.describes (types_ne_nil hb) fun s => ?_
  simp only [matches_oneOf (names_ne_nil hb), String.toList_inj, exists_eq_right', Bool.and_eq_true,
    List.contains_iff_mem]
  constructor
  · rintro ⟨-, h⟩
    exact h
  · rintro ⟨htype, hname⟩
    exact ⟨⟨isWord_of_mem_types hb htype, within_of_mem_names hb hname⟩, htype, hname⟩

theorem separate (hb : b ∈ ofDialect d) : b.spelling.construct.Separate := by
  refine Statement.separate_filter fun s hs => ?_
  rw [Bool.and_eq_true, List.contains_iff_mem] at hs
  have htypes : ∀ t ∈ hiddenTypes, ¬ "uniform".toList <:+ t.toList := by decide
  exact htypes _ (mem_hiddenTypes hb hs.1)

end Builtin

namespace Texture

/-- The statements that declare textures. -/
def expression : Expression Unit :=
  Statement.expression types (many1 isWordChar)

theorem describes : expression.Describes spelling.construct fun s _ => s.name := by
  have htypes : ∀ t ∈ types, t ≠ "" ∧ Within isWordChar t.toList := by decide
  refine Statement.describes (by decide) fun s => ?_
  simp only [matches_word, Bool.and_eq_true, List.contains_iff_mem, bne_iff_ne]
  constructor
  · rintro ⟨hs, htype, hne⟩
    exact ⟨htype, hne, hs.name_within⟩
  · rintro ⟨htype, hname⟩
    obtain ⟨hne, hwithin⟩ := htypes _ htype
    exact ⟨⟨⟨hne, hwithin⟩, hname.within⟩, htype, hname.ne_empty⟩

theorem separate : spelling.construct.Separate := by
  refine Statement.separate_filter fun s hs => ?_
  rw [Bool.and_eq_true, List.contains_iff_mem] at hs
  have htypes : ∀ t ∈ types, ¬ "uniform".toList <:+ t.toList := by decide
  exact htypes _ hs.1

end Texture

/-! ## 2.  Calls -/

/-- Texts are different if the first of two characters to come in one of them is not the first to come
in the other. -/
theorem Text.append_cons_ne {t w k r : List Char} {c c' : Char} (hne : c ≠ c') (hw : c ∉ w)
    (ht : c' ∉ t) : t ++ c :: k ≠ w ++ c' :: r := by
  intro heq
  rcases List.append_eq_append_iff.1 heq with ⟨z, rfl, hz⟩ | ⟨z, rfl, hz⟩
  · cases z with
    | nil => exact hne (List.cons.inj hz).1
    | cons a z => exact hw (by simp [(List.cons.inj hz).1])
  · cases z with
    | nil => exact hne (List.cons.inj hz).1.symm
    | cons a z => exact ht (by simp [(List.cons.inj hz).1])

namespace EvalCall

/-- A word, `.eval` and a parenthesis. -/
def expression : Expression Unit :=
  sequence [group () (many1 isWordChar), text ".eval", many isBlank, text "("]

theorem describes : expression.Describes spelling.construct fun t _ => t := by
  refine describes_of_spelledBy fun γ => SpelledBy.congr (spelledBy_group.append <|
    spelledBy_text.append <| spelledBy_blanks.append <| spelledBy_text.append spelledBy_nil)
    fun ps => ?_
  simp only [↓existsAndEq, and_true, true_and, List.append_nil, List.cons_append, List.nil_append]
  constructor
  · rintro ⟨ht, rfl⟩
    exact ⟨_, rfl, matches_word.1 ht, rfl⟩
  · rintro ⟨t, rfl, ht, rfl⟩
    exact ⟨matches_word.2 ht, rfl⟩

variable {γ γ' : Unit → String} {x m k x' m' k' : List Char}

theorem exists_of_matches (h : expression.Matches γ m) : IsWord (γ ()) ∧
    ∃ b, Within isBlank b ∧ m = (γ ()).toList ++ (".eval".toList ++ (b ++ ['('])) := by
  obtain ⟨t, rfl, hm⟩ := describes.matches_iff.1 h
  exact exists_eq_append_of_read? ((spelling.finds (k := [])).2 hm)

/-- Behind the word of a call no word stands in front of a dot, up to the parenthesis. -/
theorem not_word_behind {b v w r : List Char} (hb : Within isBlank b) (hne : w ≠ [])
    (hw : Within isWordChar w) (hlen : v.length ≤ (".eval".toList ++ b).length) :
    ".eval".toList ++ (b ++ '(' :: k) ≠ v ++ (w ++ '.' :: r) := by
  intro heq
  cases v with
  | nil =>
    obtain ⟨c, w, rfl⟩ := List.exists_cons_of_ne_nil hne
    obtain ⟨rfl, -⟩ := List.cons.inj heq
    exact absurd (within_cons.1 hw).1 (by decide)
  | cons c v =>
    have htail : "eval".toList ++ b ++ '(' :: k = v ++ (w ++ '.' :: r) := by
      rw [List.append_assoc]
      exact (List.cons.inj heq).2
    obtain ⟨t, ht⟩ : v <+: "eval".toList ++ b :=
      List.prefix_of_prefix_length_le ⟨_, htail.symm⟩ ⟨_, rfl⟩ (Nat.le_of_succ_le_succ hlen)
    rw [← ht, List.append_assoc, List.append_cancel_left_eq] at htail
    have hdot : '.' ∉ v ++ t := by
      rw [ht, List.mem_append]
      exact not_or.2 ⟨by decide, hb.not_mem (by decide)⟩
    exact append_cons_ne (by decide) (hw.not_mem (by decide))
      (fun h => hdot (List.mem_append_right v h)) htail

/-- Calls overlap only if they start in one word, and then they end together. -/
theorem separate_or_same_word (h : expression.Matches γ m) (h' : expression.Matches γ' m')
    (heq : x ++ (m ++ k) = x' ++ (m' ++ k')) (hlt : x.length < x'.length) :
    (x ++ m).length ≤ x'.length ∨
      ∃ u, x' = x ++ u ∧ (γ ()).toList = u ++ (γ' ()).toList ∧ m = u ++ m' := by
  obtain ⟨hw, b, hb, rfl⟩ := exists_of_matches h
  obtain ⟨hw', b', hb', rfl⟩ := exists_of_matches h'
  have hdot (r : List Char) : Stops isWordChar (".eval".toList ++ r) := stops_cons.2 rfl
  have hparen (r : List Char) : Stops isBlank (['('] ++ r) := stops_cons.2 rfl
  rcases List.append_eq_append_iff.1 heq with ⟨u, rfl, hu⟩ | ⟨u, rfl, -⟩
  · simp only [List.append_assoc] at hu
    rcases List.append_eq_append_iff.1 hu with ⟨v, rfl, hv⟩ | ⟨t, ht, hv⟩
    · -- the second call starts behind the word of the first one
      refine Or.inl (Nat.not_lt.1 fun hover => not_word_behind hb hw'.toList_ne_nil hw'.within ?_ hv)
      simp only [List.length_append, List.length_cons, List.length_nil] at hover ⊢
      omega
    · -- it starts in the word, and both words go on to the dot
      obtain ⟨rfl, hrest⟩ := run_unique hv hw'.within (hdot _)
        (within_append.1 (ht ▸ hw.within)).2 (hdot _)
      obtain ⟨rfl, -⟩ := run_unique (List.append_cancel_left hrest) hb' (hparen _) hb (hparen _)
      exact Or.inr ⟨u, rfl, ht, by rw [ht, List.append_assoc]⟩
  · rw [List.length_append] at hlt
    omega

end EvalCall

/-! ## 3.  Annotations -/

namespace ColorLayout

/-- `layout(color)` with any blanks inside and behind. -/
def expression : Expression Empty :=
  sequence [text "layout", many isBlank, text "(", many isBlank, text "color", many isBlank, text ")",
    many isBlank]

variable {γ γ' : Empty → String} {m m' k k' core : List Char}

theorem matches_iff :
    expression.Matches γ m ↔ ∃ core b, m = core ++ b ∧ Reads parts core [] ∧ Within isBlank b := by
  have h : expression.SpelledBy γ (· = parts ++ [.blanks]) := by
    refine SpelledBy.congr (spelledBy_text.append <| spelledBy_blanks.append <|
      spelledBy_text.append <| spelledBy_blanks.append <| spelledBy_text.append <|
      spelledBy_blanks.append <| spelledBy_text.append <| spelledBy_blanks.append spelledBy_nil)
      fun ps => ?_
    simp only [↓existsAndEq, List.append_nil, List.cons_append, List.nil_append, true_and]
    exact eq_comm
  rw [h m]
  simp only [exists_eq_left, reads_append_iff, reads_blanks, reads_nil, ↓existsAndEq, and_true,
    List.append_nil]

/-- Behind its first two letters an annotation has neither an `a` nor, up to its end, a parenthesis that
closes. -/
theorem exists_of_reads (h : Reads parts m []) :
    ∃ t, m = 'l' :: 'a' :: (t ++ [')']) ∧ 'a' ∉ t ∧ ')' ∉ t := by
  obtain ⟨_, rfl, b₁, _, hb₁, rfl, _, rfl, b₂, _, hb₂, rfl, _, rfl, b₃, _, hb₃, rfl, _, rfl, rfl⟩ := h
  have hnot {c : Char} (hc : isBlank c = false) (hword : c ∉ "yout(color".toList) :
      c ∉ "yout".toList ++ (b₁ ++ ("(".toList ++ (b₂ ++ ("color".toList ++ b₃)))) := by
    have h₁ : c ∉ b₁ := hb₁.not_mem hc
    have h₂ : c ∉ b₂ := hb₂.not_mem hc
    have h₃ : c ∉ b₃ := hb₃.not_mem hc
    simp_all
  refine ⟨_, ?_, hnot (by decide) (by decide), hnot (by decide) (by decide)⟩
  simp only [List.append_assoc]
  rfl

/-- At one place stands at most one annotation. -/
theorem eq_of_reads {b b' : List Char} (h : Reads parts m []) (h' : Reads parts m' [])
    (heq : m ++ b = m' ++ b') : m = m' ∧ b = b' := by
  obtain ⟨t, rfl, -, ht⟩ := exists_of_reads h
  obtain ⟨t', rfl, -, ht'⟩ := exists_of_reads h'
  have hinside {t : List Char} (ht : ')' ∉ t) : Within (· != ')') t := fun c hc =>
    bne_iff_ne.2 fun h => ht (h ▸ hc)
  simp only [List.cons_append, List.append_assoc, List.cons.injEq, true_and] at heq
  obtain ⟨rfl, hrest⟩ := run_unique heq (hinside ht) (stops_cons.2 (by decide)) (hinside ht')
    (stops_cons.2 (by decide))
  exact ⟨rfl, (List.cons.inj hrest).2⟩

/-- Matches at one place differ by blanks at the end. -/
theorem eq_of_matches (h : expression.Matches γ m) (h' : expression.Matches γ' m')
    (heq : m ++ k = m' ++ k') :
    ∃ core b b', Within isBlank b ∧ Within isBlank b' ∧ m = core ++ b ∧ m' = core ++ b' := by
  obtain ⟨core, b, rfl, hcore, hb⟩ := matches_iff.1 h
  obtain ⟨core', b', rfl, hcore', hb'⟩ := matches_iff.1 h'
  simp only [List.append_assoc] at heq
  obtain ⟨rfl, -⟩ := eq_of_reads hcore hcore' heq
  exact ⟨_, b, b', hb, hb', rfl, rfl⟩

/-- The longest match is the one with all blanks behind it. -/
theorem occurs_iff : expression.Occurs m k γ ↔ expression.Matches γ m ∧ Stops isBlank k := by
  constructor
  · rintro ⟨hm, hlongest⟩
    obtain ⟨core, b, rfl, hcore, hb⟩ := matches_iff.1 hm
    refine ⟨hm, stops_iff.2 fun c hc => Bool.eq_false_iff.2 fun hblank => ?_⟩
    -- with one more blank there is a longer match
    have hmore : expression.Admits (core ++ b ++ [c]) :=
      ⟨γ, matches_iff.2 ⟨core, b ++ [c], List.append_assoc .., hcore,
        within_append.2 ⟨hb, within_cons.2 ⟨hblank, within_nil⟩⟩⟩⟩
    obtain ⟨r, rfl⟩ := List.head?_eq_some_iff.1 hc
    exact absurd (hlongest [c] ⟨r, rfl⟩ hmore) (List.cons_ne_nil _ _)
  · rintro ⟨hm, hstops⟩
    refine ⟨hm, fun a ⟨r, hr⟩ ⟨γ', hm'⟩ => ?_⟩
    subst hr
    obtain ⟨core, b, rfl, hcore, -⟩ := matches_iff.1 hm
    obtain ⟨core', b', heq, hcore', hb'⟩ := matches_iff.1 hm'
    rw [List.append_assoc] at heq
    obtain ⟨-, rfl⟩ := eq_of_reads hcore hcore' heq
    have ha : Within isBlank a := (within_append.1 hb').2
    cases a with
    | nil => rfl
    | cons c a =>
      rw [List.cons_append, stops_cons, (within_cons.1 ha).1] at hstops
      exact Bool.noConfusion hstops

theorem unambiguous : expression.Unambiguous where
  ne_nil := by
    rintro ⟨γ, hm⟩
    obtain ⟨core, b, heq, hcore, -⟩ := matches_iff.1 hm
    obtain ⟨t, rfl, -⟩ := exists_of_reads hcore
    exact absurd heq.symm (List.cons_ne_nil _ _)
  unique := by
    intro m m' k k' γ γ' h h' heq
    obtain ⟨hm, hk⟩ := occurs_iff.1 h
    obtain ⟨hm', hk'⟩ := occurs_iff.1 h'
    obtain ⟨core, b, b', hb, hb', rfl, rfl⟩ := eq_of_matches hm hm' heq
    simp only [List.append_assoc, List.append_cancel_left_eq] at heq
    obtain ⟨rfl, -⟩ := run_unique heq hb hk hb' hk'
    exact ⟨rfl, funext nofun⟩

/-- Behind its first two letters a match has no `a`, and its last character is no letter. -/
theorem exists_cons_of_matches (h : expression.Matches γ m) :
    ∃ t, m = 'l' :: 'a' :: t ∧ 'a' ∉ t ∧ 'l' ∉ m.getLast? := by
  obtain ⟨core, b, rfl, hcore, hb⟩ := matches_iff.1 h
  obtain ⟨t, rfl, ht, -⟩ := exists_of_reads hcore
  have hblank : 'a' ∉ b := hb.not_mem (by decide)
  have hend : ('l' :: 'a' :: (t ++ [')'])).getLast? = some ')' :=
    List.getLast?_concat (l := 'l' :: 'a' :: t)
  refine ⟨t ++ [')'] ++ b, rfl, by simp [ht, hblank], fun hlast => ?_⟩
  rw [List.getLast?_append, hend, Option.mem_def, Option.or_eq_some_iff] at hlast
  rcases hlast with hlast | ⟨-, hlast⟩
  · exact hb.not_mem (c := 'l') (by decide) (List.mem_of_getLast? hlast)
  · exact absurd (Option.some.inj hlast) (by decide)

theorem separate : expression.Separate := by
  refine separate_of_inside fun {u v k m γ γ'} h hu hv ⟨r, hr⟩ hm' => ?_
  obtain ⟨t, ht, hnot, hlast⟩ := exists_cons_of_matches h
  obtain ⟨t', rfl, -, -⟩ := exists_cons_of_matches hm'
  obtain ⟨c, v, rfl⟩ := List.exists_cons_of_ne_nil hv
  obtain ⟨rfl, htail⟩ := List.cons.inj hr
  cases v with
  | nil =>
    rw [List.getLast?_concat] at hlast
    exact hlast rfl
  | cons c v =>
    obtain ⟨rfl, -⟩ := List.cons.inj htail
    -- the second annotation starts behind the `a` of the first one
    obtain ⟨c, u, rfl⟩ := List.exists_cons_of_ne_nil hu
    obtain ⟨-, ht'⟩ := List.cons.inj ht
    cases u with
    | nil => exact absurd (List.cons.inj ht').1 (by decide)
    | cons c u =>
      obtain ⟨-, rfl⟩ := List.cons.inj ht'
      exact hnot (by simp)

theorem readBy : expression.ReadBy pattern fun _ => Empty.elim where
  occurs := by
    intro m k u hread
    obtain ⟨mid, hreads, hmid⟩ := read?_iff.1 hread
    obtain ⟨b, hb, hk, rfl⟩ := Read.blanks_eq_iff.1 hmid
    obtain ⟨core, heq, hcore⟩ := reads_iff.1 hreads
    rw [← List.append_assoc, List.append_left_inj] at heq
    exact occurs_iff.2 ⟨matches_iff.2 ⟨core, b, heq, hcore, hb⟩, hk⟩
  absent := by
    rintro cs m hread ⟨k, rfl⟩ ⟨γ, hm⟩
    obtain ⟨core, b, rfl, hcore, -⟩ := matches_iff.1 hm
    have hreads : Reads parts (core ++ b ++ k) (b ++ k) := by
      rw [List.append_assoc]
      exact hcore.append _
    rw [read?_iff (u := ()).2 ⟨_, hreads, rfl⟩] at hread
    exact Option.some_ne_none _ hread

end ColorLayout

/-! ## 4.  Headers, signatures and references -/

namespace FloatLoop

/-- The groups of a header. -/
inductive Group where
  | counter
  | start
  | stop

/-- What the groups hold. -/
def captures (l : FloatLoop) : Group → String
  | .counter => l.counter
  | .start => l.start
  | .stop => l.stop

/-- A whole header; the counter is given once and repeated twice. -/
def expression : Expression Group :=
  sequence [text "for", many isBlank, text "(", many isBlank, text "float", many1 isBlank,
    group .counter (many1 isWordChar), many isBlank, text "=", many isBlank,
    group .start (many1 Char.isDigit), text ".0", many isBlank, text ";", many isBlank,
    again .counter, many isBlank, text "<", many isBlank,
    group .stop (many1 Char.isDigit), text ".0", many isBlank, text ";", many isBlank,
    again .counter, many isBlank, text "++", many isBlank, text ")"]

theorem describes : expression.Describes headers captures := by
  refine describes_of_spelledBy fun γ => SpelledBy.congr (
    spelledBy_text.append <| spelledBy_blanks.append <| spelledBy_text.append <|
    spelledBy_blanks.append <| spelledBy_text.append <| spelledBy_gap.append <|
    spelledBy_group.append <| spelledBy_blanks.append <| spelledBy_text.append <|
    spelledBy_blanks.append <| spelledBy_group.append <| spelledBy_text.append <|
    spelledBy_blanks.append <| spelledBy_text.append <| spelledBy_blanks.append <|
    spelledBy_again.append <| spelledBy_blanks.append <| spelledBy_text.append <|
    spelledBy_blanks.append <| spelledBy_group.append <| spelledBy_text.append <|
    spelledBy_blanks.append <| spelledBy_text.append <| spelledBy_blanks.append <|
    spelledBy_again.append <| spelledBy_blanks.append <| spelledBy_text.append <|
    spelledBy_blanks.append <| spelledBy_text.append spelledBy_nil) fun ps => ?_
  simp only [↓existsAndEq, and_true, true_and, List.append_nil, List.cons_append, List.nil_append]
  constructor
  · rintro ⟨⟨hcounter, hstart, hstop⟩, rfl⟩
    exact ⟨⟨γ .counter, γ .start, γ .stop⟩, by funext i; cases i <;> rfl,
      ⟨matches_word.1 hcounter, matches_numeral.1 hstart, matches_numeral.1 hstop⟩, rfl⟩
  · rintro ⟨l, rfl, hl, rfl⟩
    exact ⟨⟨matches_word.2 hl.counter, matches_numeral.2 hl.start, matches_numeral.2 hl.stop⟩, rfl⟩

end FloatLoop

namespace Entry

/-- A signature of the function. -/
def expression (name : String) : Expression Unit :=
  sequence [oneOf colorTypes, many1 isBlank, text name, many isBlank, text "(", many isBlank,
    optional (sequence [text "in", many1 isBlank]), oneOf coordinateTypes, many1 isBlank,
    group () (many1 isWordChar), many isBlank, text ")"]

theorem describes (d : Dialect) :
    (expression d.entryPoint).Describes (signatures d) fun parameter _ => parameter := by
  refine describes_of_spelledBy fun γ => SpelledBy.congr (
    (spelledBy_oneOf (by decide)).append <| spelledBy_gap.append <| spelledBy_text.append <|
    spelledBy_blanks.append <| spelledBy_text.append <| spelledBy_blanks.append <|
    (spelledBy_text.append (spelledBy_gap.append spelledBy_nil)).optional.append <|
    (spelledBy_oneOf (by decide)).append <| spelledBy_gap.append <| spelledBy_group.append <|
    spelledBy_blanks.append <| spelledBy_text.append spelledBy_nil) fun ps => ?_
  simp only [↓existsAndEq, and_true, true_and, List.append_nil, List.cons_append, List.nil_append]
  constructor
  · rintro ⟨color, hcolor, qualifier, coordinate, ⟨hq, hc, hparameter⟩, rfl⟩
    refine ⟨_, rfl, color, hcolor, qualifier, ?_, coordinate, hc, matches_word.1 hparameter, rfl⟩
    rcases hq with rfl | rfl <;> simp [qualifiers]
  · rintro ⟨parameter, rfl, color, hcolor, qualifier, hq, coordinate, hc, hparameter, rfl⟩
    refine ⟨color, hcolor, qualifier, coordinate, ⟨?_, hc, matches_word.2 hparameter⟩, rfl⟩
    simp only [qualifiers, List.mem_cons, List.not_mem_nil, or_false] at hq
    exact hq.symm.imp_left Eq.symm

end Entry

namespace Diagnostic

/-- `ERROR:`, a number and the line, with colons. -/
def expression : Expression Unit :=
  sequence [text "ERROR:", many1 isBlank, many1 Char.isDigit, text ":",
    group () (many1 Char.isDigit), text ":"]

theorem describes : expression.Describes reference fun ds _ => String.ofList ds := by
  refine ⟨fun {γ m} => ?_⟩
  constructor
  · rintro ⟨_, _, rfl, rfl, b, _, rfl, hb, n, _, rfl, hn, _, _, rfl, rfl, _, _, rfl, ⟨rfl, hds⟩, _, _,
      rfl, rfl, rfl⟩
    obtain ⟨hb, hblank⟩ := matches_many1.1 hb
    obtain ⟨hn, hdigit⟩ := matches_many1.1 hn
    obtain ⟨hds, hdigit'⟩ := matches_many1.1 hds
    exact ⟨(γ ()).toList, funext fun _ => String.ofList_toList, b, n, hb, hblank, hn, hdigit, hds,
      hdigit', rfl⟩
  · rintro ⟨ds, rfl, b, n, hb, hblank, hn, hdigit, hds, hdigit', rfl⟩
    refine ⟨_, _, rfl, rfl, b, _, rfl, matches_many1.2 ⟨hb, hblank⟩, n, _, rfl,
      matches_many1.2 ⟨hn, hdigit⟩, [':'], _, rfl, rfl, ds, _, rfl, ⟨?_, matches_many1.2 ⟨hds, hdigit'⟩⟩,
      [':'], [], rfl, rfl, rfl⟩
    exact String.toList_ofList.symm

/-- The label for a match. -/
def matchLabel (offset : Int) (γ : Unit → String) : List Char :=
  userLabel offset (γ ()).toList

/-- A log is cut in one way at its references.  The lines and the labels are taken from there. -/
theorem cut_at_references (log : List Char) (offset : Int) :
    ∃ s, (∀ s', expression.Cuts log s' ↔ s' = s) ∧
      lines log = s.values.mapM (fun γ => Decimal.readNat (γ ()).toList) ∧
      (∀ t, toUserLines log offset = .ok t ↔
        (∀ γ ∈ s.values, Convertible offset (γ ()).toList) ∧ t = s.render (matchLabel offset)) ∧
      ∀ q : Pattern (Unit → String), expression.ReadBy q id →
        q.replace (matchLabel offset) log = s.render (matchLabel offset) := by
  obtain ⟨s, hs⟩ := reference.exists_cuts_iff log
  replace hs := (hs s).2 rfl
  have hcuts := describes.cuts_map finds_reference hs
  refine ⟨_, describes.unambiguous.cuts_iff hcuts, ?_, fun t => ?_, fun q hq =>
    replace_eq_render describes.unambiguous hq hcuts⟩
  · rw [lines_eq_mapM_values hs, Division.values_map, List.mapM_map]
    simp only [Function.comp_def, String.toList_ofList]
  · rw [Division.values_map, List.forall_mem_map, Division.render_map]
    simp only [matchLabel, String.toList_ofList]
    constructor
    · intro h
      have hall := (exists_toUserLines_eq_ok_iff hs).1 ⟨t, h⟩
      rw [toUserLines_eq_render hs hall, Except.ok.injEq] at h
      exact ⟨hall, h.symm⟩
    · rintro ⟨hall, rfl⟩
      exact toUserLines_eq_render hs hall

end Diagnostic

/-! ## 5.  All passes -/

/-- Every pass that replaces matches has one meaning.  The five kinds of redeclared built-ins, the
declarations of textures, the loop headers, the signatures of the entry function and the references have
at most one match at a place, with one content of the groups, and matches at different places do not
overlap.  Calls overlap only where they start in one word.  Annotations at one place differ only by the
blanks at their end, and one of them has them all.  So each text is cut in one way at the matches from
left to right, with no match that starts in a gap, and whatever finds these matches, in which order ever
it tries the alternatives, replaces them as the pass does. -/
theorem substitutions_decompose_uniquely (d : Dialect) :
    (∀ b ∈ Builtin.ofDialect d, b.expression.Substitutes
      (fun γ => "// ".toList ++ (γ ()).toList ++ " removed".toList) b.hide) ∧
    Texture.expression.Substitutes
      (fun γ => if γ () = d.mask then "// built-in mask".toList else "// moved ".toList ++ (γ ()).toList)
      (moveTextures d) ∧
    (EvalCall.expression.Deterministic ∧
      (∀ x m k x' m' k' γ γ', EvalCall.expression.Matches γ m → EvalCall.expression.Matches γ' m' →
        x ++ (m ++ k) = x' ++ (m' ++ k') → x.length < x'.length →
        (x ++ m).length ≤ x'.length ∨
          ∃ u, x' = x ++ u ∧ (γ ()).toList = u ++ (γ' ()).toList ∧ m = u ++ m') ∧
      EvalCall.expression.Replaces (fun γ => EvalCall.flat (γ ())) flattenCalls) ∧
    ((∀ m k m' k' γ γ', ColorLayout.expression.Matches γ m → ColorLayout.expression.Matches γ' m' →
        m ++ k = m' ++ k' →
        ∃ core b b', Within isBlank b ∧ Within isBlank b' ∧ m = core ++ b ∧ m' = core ++ b') ∧
      (∀ m k γ, ColorLayout.expression.Occurs m k γ ↔
        ColorLayout.expression.Matches γ m ∧ Stops isBlank k) ∧
      ColorLayout.expression.Unambiguous ∧ ColorLayout.expression.Separate ∧
      ColorLayout.expression.Replaces (fun _ => []) dropColorLayouts) ∧
    FloatLoop.expression.Substitutes
      (fun γ => FloatLoop.header ⟨γ .counter, γ .start, γ .stop⟩) countInWholeNumbers ∧
    ((Entry.expression d.entryPoint).Substitutes (fun γ => Entry.signature d.userEntry (γ ()))
        ((Entry.pattern d.entryPoint).replace (Entry.signature d.userEntry)) ∧
      (Entry.expression d.entryPoint).ReplacesFirst (fun γ => Entry.signature d.userEntry (γ ()))
        (renameEntry d)) ∧
    Diagnostic.expression.Deterministic ∧ Diagnostic.expression.Separate ∧
    ∀ log offset, ∃ s, (∀ s', Diagnostic.expression.Cuts log s' ↔ s' = s) ∧
      Diagnostic.lines log = s.values.mapM (fun γ => Decimal.readNat (γ ()).toList) ∧
      (∀ t, Diagnostic.toUserLines log offset = .ok t ↔
        (∀ γ ∈ s.values, Diagnostic.Convertible offset (γ ()).toList) ∧
          t = s.render (Diagnostic.matchLabel offset)) ∧
      ∀ q : Pattern (Unit → String), Diagnostic.expression.ReadBy q id →
        q.replace (Diagnostic.matchLabel offset) log = s.render (Diagnostic.matchLabel offset) := by
  refine ⟨fun b hb => ?_, ?_, ⟨?_, ?_, ?_⟩, ⟨?_, ?_, ?_, ?_, ?_⟩, ?_, ⟨?_, ?_⟩, ?_, ?_, ?_⟩
  · exact (Builtin.describes hb).substitutes b.spelling.finds (Builtin.separate hb)
  · exact Texture.describes.substitutes Texture.spelling.finds Texture.separate
  · exact EvalCall.describes.deterministic
  · intro x m k x' m' k' γ γ'
    exact EvalCall.separate_or_same_word
  · exact (EvalCall.describes.readBy EvalCall.spelling.finds).replaces EvalCall.describes.unambiguous
  · intro m k m' k' γ γ'
    exact ColorLayout.eq_of_matches
  · intro m k γ
    exact ColorLayout.occurs_iff
  · exact ColorLayout.unambiguous
  · exact ColorLayout.separate
  · exact ColorLayout.readBy.replaces ColorLayout.unambiguous
  · exact FloatLoop.describes.substitutes FloatLoop.finds_headers FloatLoop.separate_headers
  · exact (Entry.describes d).substitutes (Entry.finds_signatures d) (Entry.separate_signatures d)
  · exact ((Entry.describes d).readBy (Entry.finds_signatures d)).replacesFirst
      (Entry.describes d).unambiguous
  · exact Diagnostic.describes.deterministic
  · exact Diagnostic.describes.separate Diagnostic.finds_reference
      Diagnostic.startsWith_reference.separate
  · exact Diagnostic.cut_at_references

theorem substitutions_decompose_uniquely_of_two_matches :
    (⟨["float"], ["iTime"]⟩ : Builtin) ∈ Builtin.ofDialect .standard ∧
      (Builtin.expression ⟨["float"], ["iTime"]⟩).Matches (fun _ => "iTime")
        "uniform float iTime;".toList ∧
      (Builtin.expression ⟨["float"], ["iTime"]⟩).Substitutes
        (fun γ => "// ".toList ++ (γ ()).toList ++ " removed".toList)
        (Builtin.hide ⟨["float"], ["iTime"]⟩) ∧
    (EvalCall.expression.Matches (fun _ => "ab") "ab.eval(".toList ∧
      EvalCall.expression.Matches (fun _ => "b") "b.eval(".toList ∧
      ∃ u, "a".toList = [] ++ u ∧ "ab".toList = u ++ "b".toList ∧
        "ab.eval(".toList = u ++ "b.eval(".toList) ∧
    (ColorLayout.expression.Matches Empty.elim "layout(color)".toList ∧
      ColorLayout.expression.Matches Empty.elim "layout(color) ".toList ∧
      ∃ core b b', Within isBlank b ∧ Within isBlank b' ∧ "layout(color)".toList = core ++ b ∧
        "layout(color) ".toList = core ++ b') := by
  have hmem : (⟨["float"], ["iTime"]⟩ : Builtin) ∈ Builtin.ofDialect .standard :=
    List.mem_cons_of_mem _ (List.mem_cons_of_mem _ (List.mem_cons_self ..))
  have hab : EvalCall.expression.Matches (fun _ => "ab") "ab.eval(".toList :=
    EvalCall.describes.matches_iff.2 ⟨_, rfl, (EvalCall.spelling.finds (k := [])).1 (by decide)⟩
  have hb : EvalCall.expression.Matches (fun _ => "b") "b.eval(".toList :=
    EvalCall.describes.matches_iff.2 ⟨_, rfl, (EvalCall.spelling.finds (k := [])).1 (by decide)⟩
  have hshort : ColorLayout.expression.Matches Empty.elim "layout(color)".toList :=
    (ColorLayout.readBy.occurs (k := []) (a := ()) (by decide)).isMatch
  have hlong : ColorLayout.expression.Matches Empty.elim "layout(color) ".toList :=
    (ColorLayout.readBy.occurs (k := []) (a := ()) (by decide)).isMatch
  obtain ⟨hbuiltin, -, ⟨-, hcall, -⟩, ⟨hlayout, -⟩, -⟩ := substitutions_decompose_uniquely .standard
  refine ⟨hmem, ?_, hbuiltin _ hmem, ⟨hab, hb, ?_⟩, hshort, hlong, ?_⟩
  · exact (Builtin.describes hmem).matches_iff.2 ⟨⟨"float", "iTime"⟩, rfl,
      ((Builtin.spelling _).finds (k := [])).1 (by decide)⟩
  · exact (hcall [] _ [] _ _ [] _ _ hab hb (by decide) (by decide)).resolve_left (by decide)
  · exact hlayout _ [' '] _ [] _ _ hshort hlong (by decide)

end ShaderPreview
