import ShaderPreview.Proofs.LineFidelity
import ShaderPreview.Proofs.Pattern.Spares

/-!
# Texts without statements

Putting one text in the place of another can make a statement `uniform <type> <name>;` that was not
there: from the new text and its surroundings, or from the new text alone.  This module says which
texts cannot do so.

## 1.  Where nothing occurs

`Pattern.Free p cs` says that `p` occurs nowhere in `cs`.  This is the case when a search for it finds
nothing (`free_iff_values_eq_nil`), and then there is nothing to replace.

## 2.  Inert texts

A statement that overlaps a text starts inside it, or runs into it from the left.  An `Inert` text
allows neither, so it can take the place of anything (`free_splice`).  Replacing does this once for
every occurrence: `free_replace` and `free_replaceFirst`.

## 3.  The rewritten constructs

What the parts of a construct have to fulfil so that it is apart from statements is also what makes
a text inert (`inert_of_reads`).  The calls, headers and signatures that are put into a shader are
inert.
-/

namespace ShaderPreview

open Text

/-! ## 1.  Where nothing occurs -/

namespace Pattern

variable {α : Type} {p : Pattern α} {x cs : List Char} {c : Char}

/-- The pattern occurs nowhere in the text. -/
def Free (p : Pattern α) (cs : List Char) : Prop :=
  ∀ x k, cs = x ++ k → p.read? k = none

theorem free_nil : p.Free [] := by
  intro x k h
  rw [(List.append_eq_nil_iff.1 h.symm).2]
  exact read?_nil p

/-- A text in front of another one brings the occurrences that start in it. -/
theorem free_append_iff : p.Free (x ++ cs) ↔
    (∀ u v, x = u ++ v → v ≠ [] → p.read? (v ++ cs) = none) ∧ p.Free cs := by
  constructor
  · intro h
    refine ⟨fun u v huv _ => h u (v ++ cs) (by rw [huv, List.append_assoc]), fun y k hcs => ?_⟩
    exact h (x ++ y) k (by rw [hcs, List.append_assoc])
  · rintro ⟨hx, hcs⟩ y k heq
    rcases List.append_eq_append_iff.1 heq with ⟨z, -, hk⟩ | ⟨v, hv, rfl⟩
    · exact hcs z k hk
    · cases v with
      | nil => exact hcs [] cs rfl
      | cons c v => exact hx y _ hv (List.cons_ne_nil _ _)

theorem Free.of_append (h : p.Free (x ++ cs)) : p.Free cs :=
  (free_append_iff.1 h).2

theorem free_cons_iff : p.Free (c :: cs) ↔ p.read? (c :: cs) = none ∧ p.Free cs := by
  constructor
  · intro h
    exact ⟨h [] _ rfl, Free.of_append (x := [c]) h⟩
  · rintro ⟨hread, hcs⟩ x k heq
    cases x with
    | nil =>
      rw [List.nil_append] at heq
      rw [← heq]
      exact hread
    | cons d x => exact hcs x k (List.cons.inj heq).2

/-- A pattern occurs nowhere when a search for it finds nothing. -/
theorem free_iff_values_eq_nil : p.Free cs ↔ p.values cs = [] := by
  constructor
  · intro h
    induction cs with
    | nil => exact values_nil p
    | cons c cs ih =>
      obtain ⟨hread, hcs⟩ := free_cons_iff.1 h
      rw [values_of_read?_eq_none hread, ih hcs]
  · intro h
    induction cs using occurrence_induction p with
    | nil => exact free_nil
    | found m a rest _ hread _ =>
      rw [values_of_read? hread] at h
      exact absurd h (List.cons_ne_nil _ _)
    | plain c cs hread ih =>
      rw [values_of_read?_eq_none hread] at h
      exact free_cons_iff.2 ⟨hread, ih h⟩

/-- Where a pattern occurs nowhere, replacing its occurrences changes nothing. -/
theorem Free.replace_eq (h : p.Free cs) (put : α → List Char) : p.replace put cs = cs := by
  have hfirst : p.first? cs = none := by
    rw [← head?_values, free_iff_values_eq_nil.1 h, List.head?_nil]
  exact replace_of_occursIn_eq_false (by rw [occursIn, hfirst, Option.isSome_none])

end Pattern

/-! ## 2.  Inert texts -/

/-- No statement starts inside the text, and none that starts in front of it reaches into it. -/
structure Inert (w : List Char) : Prop where
  not_opens : ∀ {u v : List Char} (k : List Char), w = u ++ v → v ≠ [] → ¬ Statement.Opens (v ++ k)
  /-- In front of its first semicolon the text has a sign that no statement has. -/
  ne_body : ∀ {b : List Char} (k r : List Char), Within isBodyChar b → w ++ k ≠ b ++ ';' :: r

section Inert

variable {ok : Statement → Bool} {x m w rest cs : List Char}

/-- An inert text may stand wherever another text stood. -/
theorem free_splice (hw : Inert w) (h : (Statement.pattern.filter ok).Free (x ++ (m ++ rest))) :
    (Statement.pattern.filter ok).Free (x ++ (w ++ rest)) := by
  obtain ⟨hx, hmrest⟩ := Pattern.free_append_iff.1 h
  refine Pattern.free_append_iff.2 ⟨fun u v huv hv => ?_,
    Pattern.free_append_iff.2 ⟨fun u v huv hv => ?_, hmrest.of_append⟩⟩
  · rw [Option.eq_none_iff_forall_ne_some]
    rintro ⟨s, r⟩ hread
    obtain ⟨hread', hs⟩ := Pattern.read?_filter_iff.1 hread
    obtain ⟨t, heq, ht⟩ := Statement.spelling.exists_of_read? hread'
    obtain ⟨b, hb, rfl⟩ := Statement.exists_body ht
    rw [List.append_assoc] at heq
    -- the semicolon stands in front of the inert text, and so does the whole statement
    obtain ⟨v', rfl⟩ : ∃ v', v = b ++ [';'] ++ v' := by
      rcases List.append_eq_append_iff.1 heq with ⟨b', rfl, hk⟩ | ⟨v', rfl, hk⟩
      · exact absurd hk (hw.ne_body _ _ (within_append.1 hb).2)
      · cases v' with
        | nil => exact absurd hk.symm (hw.ne_body (b := []) _ _ within_nil)
        | cons c v' =>
          obtain ⟨rfl, -⟩ := List.cons.inj hk
          exact ⟨v', by simp⟩
    have hnone := hx u _ huv hv
    rw [List.append_assoc, Pattern.read?_filter_iff.2 ⟨ht _, hs⟩] at hnone
    simp at hnone
  · rw [Option.eq_none_iff_forall_ne_some]
    rintro ⟨s, r⟩ hread
    exact hw.not_opens rest huv hv (Statement.opens_of_read? (Pattern.read?_filter_iff.1 hread).1)

variable {α : Type} {p : Pattern α} {put : α → List Char}

/-- Replacing occurrences by inert texts makes no statement. -/
theorem free_replace (hput : ∀ {cs a rest}, p.read? cs = some (a, rest) → Inert (put a))
    (h : (Statement.pattern.filter ok).Free cs) :
    (Statement.pattern.filter ok).Free (p.replace put cs) := by
  -- what stands in front is already replaced, what stands behind is not yet
  suffices hfront : ∀ x, (Statement.pattern.filter ok).Free (x ++ cs) →
      (Statement.pattern.filter ok).Free (x ++ p.replace put cs) from hfront [] h
  clear h
  induction cs using Pattern.occurrence_induction p with
  | nil =>
    intro x h
    rwa [Pattern.replace_nil]
  | found m a rest _ hread ih =>
    intro x h
    have hsplice := free_splice (hput hread) h
    rw [← List.append_assoc] at hsplice
    rw [Pattern.replace_of_read? put hread, ← List.append_assoc]
    exact ih _ hsplice
  | plain c cs hread ih =>
    intro x h
    rw [List.append_cons] at h
    rw [Pattern.replace_of_read?_eq_none put hread, List.append_cons]
    exact ih _ h

/-- Replacing the first occurrence by an inert text makes no statement. -/
theorem free_replaceFirst (hput : ∀ {cs a rest}, p.read? cs = some (a, rest) → Inert (put a))
    (h : (Statement.pattern.filter ok).Free cs) :
    (Statement.pattern.filter ok).Free (p.replaceFirst put cs) := by
  suffices hfront : ∀ x, (Statement.pattern.filter ok).Free (x ++ cs) →
      (Statement.pattern.filter ok).Free (x ++ p.replaceFirst put cs) from hfront [] h
  clear h
  induction cs using Pattern.occurrence_induction p with
  | nil =>
    intro x h
    rwa [Pattern.replaceFirst_nil]
  | found m a rest _ hread _ =>
    intro x h
    rw [Pattern.replaceFirst_append hread]
    exact free_splice (hput hread) h
  | plain c cs hread ih =>
    intro x h
    rw [List.append_cons] at h
    rw [Pattern.replaceFirst_cons hread, List.append_cons]
    exact ih _ h

end Inert

/-! ## 3.  The rewritten constructs -/

/-- A text in guarded and foreign parts is inert. -/
theorem inert_of_reads (ps : List Part) {w : List Char} (hguard : Guarded ps)
    (hforeign : Foreign ps) (hr : Reads ps w []) : Inert w where
  not_opens := by
    intro u v k huv hv hopens
    have hread := hr.append k
    rw [huv, List.append_assoc, List.nil_append] at hread
    have hlen := (Reads.suffix_of_guarded hopens hguard hread).length_le
    have hpos := List.length_pos_iff.2 hv
    rw [List.length_append] at hlen
    omega
  ne_body := by
    intro b k r hb heq
    have hread := hr.append k
    rw [heq] at hread
    exact not_reads_of_foreign hforeign hb hread

theorem EvalCall.inert_flat {texture : String} (h : IsWord texture) : Inert (flat texture) := by
  have hword := within_flatName h
  refine inert_of_reads [.text (texture ++ "_eval"), .text "("] ?_ ?_ (reads_flat texture)
  · exact ⟨Or.inr ⟨hword, Or.inl rfl⟩, Or.inl (by decide), trivial⟩
  · exact Or.inl ⟨hword, Or.inr ⟨'(', rfl, by decide⟩⟩

theorem FloatLoop.inert_header {l : FloatLoop} (hl : l.Proper) : Inert l.header := by
  have hcounter := hl.counter.within
  refine inert_of_reads [.text "for", .blanks, .text "(int ", .text l.counter, .blanks,
    .text "= ", .text l.start, .text "; ", .text l.counter, .blanks, .text "< ", .text l.stop,
    .text "; ", .text l.counter, .text "++)"] ?_ ?_ ?_
  · exact ⟨Or.inl (by decide), Or.inl (by decide), Or.inr ⟨hcounter, Or.inl rfl⟩, Or.inl (by decide),
      Or.inr ⟨hl.start.isWord.within, Or.inl rfl⟩, Or.inl (by decide), Or.inr ⟨hcounter, Or.inl rfl⟩,
      Or.inl (by decide), Or.inr ⟨hl.stop.isWord.within, Or.inl rfl⟩, Or.inl (by decide),
      Or.inr ⟨hcounter, Or.inl rfl⟩, Or.inl (by decide), trivial⟩
  · exact Or.inl ⟨by decide, Or.inr ⟨'(', rfl, by decide⟩⟩
  · have hfor : "for (int ".toList = "for".toList ++ ' ' :: "(int ".toList := by decide
    have hfrom : " = ".toList = ' ' :: "= ".toList := by decide
    have hbelow : " < ".toList = ' ' :: "< ".toList := by decide
    unfold header
    simp only [hfor, hfrom, hbelow, List.append_assoc, List.cons_append]
    exact .text_append <| .space <| .text_append <| .text_append <| .space <| .text_append <|
      .text_append <| .text_append <| .text_append <| .space <| .text_append <| .text_append <|
      .text_append <| .text_append <| reads_text_last _

theorem Entry.inert_signature {name parameter : String} (hname : IsWord name)
    (hparameter : IsWord parameter) : Inert (signature name parameter) := by
  refine inert_of_reads [.text "vec4", .blanks, .text name, .text "(vec2 ", .text parameter,
    .text ")"] ?_ ?_ ?_
  · exact ⟨Or.inl (by decide), Or.inr ⟨hname.within, Or.inl rfl⟩, Or.inl (by decide),
      Or.inr ⟨hparameter.within, Or.inl rfl⟩, Or.inl (by decide), trivial⟩
  · exact Or.inl ⟨by decide, Or.inl ⟨hname.within, Or.inr ⟨'(', rfl, by decide⟩⟩⟩
  · have hcolor : "vec4 ".toList = "vec4".toList ++ [' '] := by decide
    unfold signature
    simp only [hcolor, List.append_assoc, List.cons_append, List.nil_append]
    exact .text_append <| .space <| .text_append <| .text_append <| .text_append <|
      reads_text_last _

section Passes

variable {ok : Statement → Bool} {cs : List Char}

/-- Flattening calls makes no statement. -/
theorem free_flattenCalls (h : (Statement.pattern.filter ok).Free cs) :
    (Statement.pattern.filter ok).Free (flattenCalls cs) := by
  refine free_replace (fun hread => ?_) h
  obtain ⟨_, ⟨hword, -⟩, -⟩ := EvalCall.spelling.read?_iff.1 hread
  exact EvalCall.inert_flat hword

/-- Counting loops in whole numbers makes no statement. -/
theorem free_countInWholeNumbers (h : (Statement.pattern.filter ok).Free cs) :
    (Statement.pattern.filter ok).Free (countInWholeNumbers cs) :=
  free_replace (fun hread => FloatLoop.inert_header (FloatLoop.reads_of_read? hread).1) h

/-- Renaming the entry function makes no statement. -/
theorem free_renameEntry (d : Dialect) (h : (Statement.pattern.filter ok).Free cs) :
    (Statement.pattern.filter ok).Free (renameEntry d cs) := by
  refine free_replaceFirst (fun hread => ?_) h
  obtain ⟨_, ⟨_, -, _, -, _, -, hparameter, -⟩, -⟩ := Entry.forms_of_read? hread
  exact Entry.inert_signature d.isWord_userEntry hparameter

end Passes

end ShaderPreview
