import Mathlib.Data.List.Infix
import ShaderPreview.Proofs.Pattern.Parts
import ShaderPreview.Warning

/-!
# Which loops are pointed out

A loop is dynamic if the condition of its header compares with a name.  The search for such loops does
not stop at the end of the condition: it goes on to the end of the line, and takes any semicolon there
for the one in front of the condition.  So a loop with literal bounds is pointed out if a later
statement on its line compares with a name, or assigns one.

* `DynamicLoop.Comparison`: a comparison with a name behind `for (`, a text and a semicolon;
* `DynamicLoop.Compares`: such a comparison in a text, with a condition on the text in front of it;
* `DynamicLoop.occursIn_iff_compares`: what the search finds;
* `dynamicLoop_mem_ofSource_iff`: when a loop is pointed out, and when this is right.
-/

namespace ShaderPreview

open Text

namespace DynamicLoop

/-! ## Comparisons -/

/-- The head of a loop up to the first character of a bound. -/
structure Comparison where
  /-- What stands between the parenthesis and the semicolon. -/
  front : String
  subject : String
  operator : String
  /-- The first character of the bound. -/
  bound : Char

namespace Comparison

/-- The parts behind the semicolon. -/
def clause (c : Comparison) : List Part :=
  [.blanks, .text c.subject, .blanks, .text c.operator, .blanks, .text (String.singleton c.bound)]

/-- The parts of the head of a loop. -/
def parts (c : Comparison) : List Part :=
  .text "for" :: .blanks :: .text "(" :: .text c.front :: .text ";" :: c.clause

/-- A word is compared with something that starts like a name. -/
structure Proper (c : Comparison) : Prop where
  subject : IsWord c.subject
  operator_ne_empty : c.operator ≠ ""
  operator : Within isComparison c.operator.toList
  bound : isLetter c.bound = true

end Comparison

/-- Somewhere in the text stands such a head of a loop, with a text between the parenthesis and the
semicolon that is all right. -/
def Compares (ok : List Char → Prop) (cs : List Char) : Prop :=
  ∃ (c : Comparison) (m : List Char), c.Proper ∧ ok c.front.toList ∧ Reads c.parts m [] ∧ m <:+: cs

variable {c : Comparison} {stop : Char} {ok : List Char → Prop} {cs mid rest : List Char}

/-- The signs of comparisons are neither blanks nor characters of words. -/
theorem not_isComparison {e : Char} (h : isBlank e = true ∨ isWordChar e = true) :
    isComparison e = false := by
  rw [Bool.eq_false_iff]
  intro he
  simp only [isComparison, Bool.or_eq_true, beq_iff_eq] at he
  rcases he with (rfl | rfl) | rfl
  · exact absurd h (by decide)
  · exact absurd h (by decide)
  · exact absurd h (by decide)

namespace Comparison.Proper

theorem isWord_bound (hc : c.Proper) : IsWord (String.singleton c.bound) :=
  ⟨by simp [← String.toList_eq_nil_iff], by simp [isWordChar_of_isLetter hc.bound]⟩

/-- An operator starts with a sign that is neither blank nor part of a word. -/
theorem fenced (hc : c.Proper) (ps : List Part) : fenced (.text c.operator :: ps) = true := by
  obtain ⟨e, w, hw⟩ := List.exists_cons_of_ne_nil
    (fun h => hc.operator_ne_empty (String.toList_eq_nil_iff.1 h))
  have he : isComparison e = true := hc.operator e (by rw [hw]; exact List.mem_cons_self ..)
  have hblank : isBlank e = false := Bool.eq_false_iff.2 fun h =>
    Bool.false_ne_true ((not_isComparison (Or.inl h)).symm.trans he)
  have hword : isWordChar e = false := Bool.eq_false_iff.2 fun h =>
    Bool.false_ne_true ((not_isComparison (Or.inr h)).symm.trans he)
  simp [ShaderPreview.fenced, hw, hblank, hword]

theorem solid (hc : c.Proper) (ps : List Part) : solid (.text c.operator :: ps) = true := by
  have hf := hc.fenced ps
  rw [ShaderPreview.fenced, Option.any_eq_true] at hf
  obtain ⟨e, he, hf⟩ := hf
  rw [ShaderPreview.solid, he, Option.any_some]
  exact (Bool.and_eq_true_iff.1 hf).2

end Comparison.Proper

/-! ## What the search finds -/

theorem comparesWithName_of_reads (hc : c.Proper) (h : Reads c.clause cs rest) :
    comparesWithName cs = true := by
  have hends : endsWord [.blanks, .text c.operator, .blanks, .text (String.singleton c.bound)] = true :=
    hc.fenced [.blanks, .text (String.singleton c.bound)]
  obtain ⟨_, hsubject, h⟩ := (h.blanks hc.subject.solid).word? (· != "")
    (bne_iff_ne.2 hc.subject.ne_empty) hc.subject.within hends
  obtain ⟨mid, hcs, h⟩ := h.blanks (hc.solid _)
  have hstops : Stops isComparison mid := by
    obtain ⟨b, _, hb, rfl, _, rfl, -⟩ := h
    refine hb.stops_append (fun _ hblank => not_isComparison (Or.inl hblank)) ?_
    rw [String.toList_singleton]
    exact stops_cons.2 (not_isComparison (Or.inr (isWordChar_of_isLetter hc.bound)))
  have hoperator := Read.run1?_iff.2 ⟨fun hnil =>
    hc.operator_ne_empty (String.toList_eq_nil_iff.1 hnil), hc.operator, hstops, hcs⟩
  obtain ⟨_, hbound, rfl⟩ := h.blanks hc.isWord_bound.solid
  rw [String.toList_singleton] at hbound
  simp only [comparesWithName, hsubject, hoperator, hbound]
  exact hc.bound

theorem exists_reads_of_comparesWithName (front : String) (h : comparesWithName cs = true) :
    ∃ (c : Comparison) (rest : List Char), c.front = front ∧ c.Proper ∧ Reads c.clause cs rest := by
  unfold comparesWithName at h
  split at h
  · exact absurd h Bool.false_ne_true
  · next subject _ hsubject =>
    split at h
    · exact absurd h Bool.false_ne_true
    · next operator mid hoperator =>
      split at h
      · exact absurd h Bool.false_ne_true
      · next bound rest hbound =>
        obtain ⟨hne, hword, -⟩ := Read.word?_iff.1 hsubject
        obtain ⟨hne', hoperator, -, hcs⟩ := Read.run1?_iff.1 hoperator
        have hlist : (String.ofList operator).toList = operator := String.toList_ofList
        refine ⟨⟨front, subject, String.ofList operator, bound⟩, rest, rfl,
          ⟨⟨bne_iff_ne.1 hne, hword⟩, ?_, ?_, h⟩, .of_blanks <| .of_word? hsubject <| .of_blanks <|
            ⟨mid, ?_, .of_blanks ⟨rest, ?_, rfl⟩⟩⟩
        · rwa [Ne, ← String.toList_eq_nil_iff, hlist]
        · rwa [hlist]
        · rwa [hlist]
        · rw [hbound, String.toList_singleton]
          rfl

/-- Whether a semicolon with no stopping character in front of it is followed by a comparison. -/
def clauseUpTo (stop : Char) : List Char → Bool
  | [] => false
  | c :: cs => c == ';' && comparesWithName cs || c != stop && clauseUpTo stop cs

theorem clauseUpTo_iff :
    clauseUpTo stop cs = true ↔
      ∃ t k, stop ∉ t ∧ cs = t ++ ';' :: k ∧ comparesWithName k = true := by
  induction cs with
  | nil => simp [clauseUpTo]
  | cons e cs ih =>
    rw [clauseUpTo, Bool.or_eq_true, Bool.and_eq_true, Bool.and_eq_true, ih, beq_iff_eq, bne_iff_ne]
    constructor
    · rintro (⟨rfl, h⟩ | ⟨he, t, k, ht, rfl, h⟩)
      · exact ⟨[], cs, List.not_mem_nil, rfl, h⟩
      · exact ⟨e :: t, k, by simp [ht, Ne.symm he], rfl, h⟩
    · rintro ⟨t, k, ht, heq, h⟩
      cases t with
      | nil =>
        obtain ⟨rfl, rfl⟩ := List.cons.inj heq
        exact Or.inl ⟨rfl, h⟩
      | cons f t =>
        obtain ⟨rfl, rfl⟩ := List.cons.inj heq
        rw [List.mem_cons, not_or] at ht
        exact Or.inr ⟨Ne.symm ht.1, t, k, ht.2, rfl, h⟩

/-- The search goes on up to the end of the line. -/
theorem clauseAhead_eq (cs : List Char) : clauseAhead cs = clauseUpTo '\n' cs := by
  induction cs with
  | nil => rfl
  | cons e cs ih =>
    rw [clauseAhead, clauseUpTo, ih]
    by_cases he : e = ';'
    · rw [he]
      rfl
    · rw [beq_false_of_ne he, Bool.false_and, Bool.false_or, Bool.false_or]

/-- The text behind `for` and a parenthesis. -/
def opened? (cs : List Char) : Option (List Char) :=
  (Read.literal? "for" cs).bind fun cs => Read.literal? "(" (Read.blanks cs)

theorem opened?_eq_some_iff :
    opened? cs = some mid ↔ Reads [.text "for", .blanks, .text "("] cs mid := by
  rw [opened?, Option.bind_eq_some_iff]
  constructor
  · rintro ⟨_, hfor, hparen⟩
    exact .of_literal? hfor <| .of_blanks <| .of_literal? hparen rfl
  · intro h
    obtain ⟨_, hfor, h⟩ := h.literal?
    obtain ⟨_, hparen, rfl⟩ := (h.blanks rfl).literal?
    exact ⟨_, hfor, hparen⟩

theorem startsAt_eq (cs : List Char) : startsAt cs = (opened? cs).any clauseAhead := by
  unfold startsAt opened?
  cases Read.literal? "for" cs with
  | none => rfl
  | some cs =>
    simp only [Option.bind_some]
    cases Read.literal? "(" (Read.blanks cs) with
    | none => rfl
    | some cs => rfl

/-- Heads of loops at the front of a text are found by looking for a comparison behind the
parenthesis. -/
theorem any_clauseUpTo_iff :
    (opened? cs).any (clauseUpTo stop) = true ↔
      ∃ (c : Comparison) (rest : List Char),
        c.Proper ∧ stop ∉ c.front.toList ∧ Reads c.parts cs rest := by
  simp only [Option.any_eq_true, opened?_eq_some_iff, clauseUpTo_iff]
  constructor
  · rintro ⟨mid, hopened, t, k, ht, rfl, h⟩
    obtain ⟨c, rest, hfront, hc, hr⟩ := exists_reads_of_comparesWithName (String.ofList t) h
    have hlist : c.front.toList = t := by rw [hfront, String.toList_ofList]
    exact ⟨c, rest, hc, by rwa [hlist], hopened.trans ⟨';' :: k, by rw [hlist], k, rfl, hr⟩⟩
  · rintro ⟨c, rest, hc, hfront, _, rfl, b, _, hb, rfl, _, rfl, _, rfl, k, rfl, hr⟩
    exact ⟨_, ⟨_, rfl, b, _, hb, rfl, _, rfl, rfl⟩, _, k, hfront, rfl,
      comparesWithName_of_reads hc hr⟩

/-- A loop is found in a text where it is found at the front of a rest of the text. -/
theorem occursIn_iff : occursIn cs = true ↔ ∃ k, k <:+ cs ∧ startsAt k = true := by
  induction cs with
  | nil => simp [occursIn, startsAt_eq, opened?, Read.literal?, Read.chars?]
  | cons e cs ih =>
    rw [occursIn, Bool.or_eq_true, ih]
    simp only [List.suffix_cons_iff, or_and_right, exists_or, exists_eq_left]

theorem compares_iff :
    Compares ok cs ↔ ∃ k, k <:+ cs ∧ ∃ (c : Comparison) (rest : List Char),
      c.Proper ∧ ok c.front.toList ∧ Reads c.parts k rest := by
  constructor
  · rintro ⟨c, m, hc, hok, hm, x, rest, rfl⟩
    exact ⟨m ++ rest, ⟨x, (List.append_assoc ..).symm⟩, c, rest, hc, hok, hm.append rest⟩
  · rintro ⟨_, ⟨x, rfl⟩, c, rest, hc, hok, hr⟩
    obtain ⟨m, rfl, hm⟩ := reads_iff.1 hr
    exact ⟨c, m, hc, hok, hm, x, rest, List.append_assoc ..⟩

/-- The search finds the comparisons with names behind any semicolon on the line. -/
theorem occursIn_iff_compares : occursIn cs = true ↔ Compares ('\n' ∉ ·) cs := by
  rw [occursIn_iff, compares_iff]
  refine exists_congr fun k => and_congr_right fun _ => ?_
  rw [startsAt_eq, funext clauseAhead_eq]
  exact any_clauseUpTo_iff

instance (stop : Char) (cs : List Char) : Decidable (Compares (stop ∉ ·) cs) :=
  decidable_of_iff (∃ k ∈ cs.tails, (opened? k).any (clauseUpTo stop) = true) <| by
    rw [compares_iff]
    exact exists_congr fun k => and_congr (List.mem_tails k cs) any_clauseUpTo_iff

end DynamicLoop

open DynamicLoop

theorem dynamicLoop_mem_ofSource {cs : List Char} :
    .dynamicLoop ∈ Warning.ofSource cs ↔ DynamicLoop.occursIn cs = true := by
  simp [Warning.ofSource]

/-- A loop is pointed out if and only if some `for (` has, behind a semicolon on its line, a comparison
with a name.  This is right, that is, the text has a comparison with a name behind the first semicolon
of a header, except where there is none and a later semicolon on the line is followed by one. -/
theorem dynamicLoop_mem_ofSource_iff (cs : List Char) :
    (.dynamicLoop ∈ Warning.ofSource cs ↔ Compares ('\n' ∉ ·) cs) ∧
      ((.dynamicLoop ∈ Warning.ofSource cs → Compares (';' ∉ ·) cs) ↔
        (Compares (fun t => '\n' ∉ t ∧ ';' ∈ t) cs → Compares (';' ∉ ·) cs)) := by
  have hiff : .dynamicLoop ∈ Warning.ofSource cs ↔ Compares ('\n' ∉ ·) cs :=
    dynamicLoop_mem_ofSource.trans occursIn_iff_compares
  refine ⟨hiff, ?_⟩
  rw [hiff]
  constructor
  · rintro h ⟨c, m, hc, ⟨hline, -⟩, hm, hinfix⟩
    exact h ⟨c, m, hc, hline, hm, hinfix⟩
  · rintro h ⟨c, m, hc, hline, hm, hinfix⟩
    by_cases hlater : ';' ∈ c.front.toList
    · exact h ⟨c, m, hc, ⟨hline, hlater⟩, hm, hinfix⟩
    · exact ⟨c, m, hc, hlater, hm, hinfix⟩

/-- The bound of this loop is a literal.  It is pointed out for the assignment at the end of its line. -/
theorem literal_loop_pointed_out :
    Warning.ofSource "for (int i = 0; i < 4; i++) \x7b a = 1.0; b = a; \x7d".toList = [.dynamicLoop] ∧
      ¬ Compares (';' ∉ ·) "for (int i = 0; i < 4; i++) \x7b a = 1.0; b = a; \x7d".toList := by
  constructor
  · decide +kernel
  · decide +kernel

end ShaderPreview
