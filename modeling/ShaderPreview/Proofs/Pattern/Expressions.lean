import ShaderPreview.Proofs.Pattern.Parts

/-!
# Regular expressions

The constructs of a shader are given by regular expressions with groups, alternatives, nested
repetitions and references to earlier groups.  A text can match such an expression in several ways, and
an engine that looks for a match has to choose.  Here a match is said without an engine: what the groups
hold is given, and the text is put together accordingly.

* `Expression`, `Expression.Matches`: expressions, and the texts that match them;
* `Expression.many`, `Expression.oneOf`, `Expression.sequence`: the usual abbreviations;
* `Expression.SpelledBy`: an expression whose matches are written in parts, shown item by item.
-/

namespace ShaderPreview

open Text

/-- A regular expression with groups in `ι`. -/
inductive Expression (ι : Type) where
  /-- Fixed characters. -/
  | text (w : String)
  /-- One character of a class. -/
  | char (p : Char → Bool)
  | append (e f : Expression ι)
  | either (e f : Expression ι)
  /-- Any number of repetitions. -/
  | star (e : Expression ι)
  /-- A group, which holds what it matches. -/
  | group (i : ι) (e : Expression ι)
  /-- Once more what a group holds. -/
  | again (i : ι)

namespace Expression

variable {ι : Type}

/-- The text is a match, with groups that hold `γ`. -/
def Matches : Expression ι → (ι → String) → List Char → Prop
  | text w, _, m => m = w.toList
  | char p, _, m => ∃ c, p c = true ∧ m = [c]
  | append e f, γ, m => ∃ a b, m = a ++ b ∧ e.Matches γ a ∧ f.Matches γ b
  | either e f, γ, m => e.Matches γ m ∨ f.Matches γ m
  | star e, γ, m => ∃ ms : List (List Char), m = ms.flatten ∧ ∀ a ∈ ms, e.Matches γ a
  | group i e, γ, m => m = (γ i).toList ∧ e.Matches γ m
  | again i, γ, m => m = (γ i).toList

/-! ## Abbreviations -/

/-- Any number of characters of a class. -/
def many (p : Char → Bool) : Expression ι :=
  star (char p)

/-- At least one character of a class. -/
def many1 (p : Char → Bool) : Expression ι :=
  append (char p) (many p)

/-- The expression or nothing. -/
def optional (e : Expression ι) : Expression ι :=
  either e (text "")

/-- One of the words, or nothing if there are none. -/
def oneOf : List String → Expression ι
  | [] => text ""
  | [w] => text w
  | w :: w' :: ws => either (text w) (oneOf (w' :: ws))

/-- One expression after the other. -/
def sequence (es : List (Expression ι)) : Expression ι :=
  es.foldr append (text "")

variable {γ : ι → String} {p : Char → Bool} {m : List Char}

theorem matches_many : (many p).Matches γ m ↔ Within p m := by
  constructor
  · rintro ⟨ms, rfl, hms⟩ c hc
    obtain ⟨a, ha, hc⟩ := List.mem_flatten.1 hc
    obtain ⟨c', hc', rfl⟩ := hms a ha
    exact List.mem_singleton.1 hc ▸ hc'
  · intro h
    refine ⟨m.map fun c => [c], ?_, fun a ha => ?_⟩
    · induction m with
      | nil => rfl
      | cons c m ih => rw [List.map_cons, List.flatten_cons, ← ih (within_cons.1 h).2]; rfl
    · obtain ⟨c, hc, rfl⟩ := List.mem_map.1 ha
      exact ⟨c, h c hc, rfl⟩

theorem matches_many1 : (many1 p).Matches γ m ↔ m ≠ [] ∧ Within p m := by
  constructor
  · rintro ⟨_, b, rfl, ⟨c, hc, rfl⟩, hb⟩
    exact ⟨List.cons_ne_nil _ _, within_cons.2 ⟨hc, matches_many.1 hb⟩⟩
  · rintro ⟨hne, hm⟩
    obtain ⟨c, b, rfl⟩ := List.exists_cons_of_ne_nil hne
    obtain ⟨hc, hb⟩ := within_cons.1 hm
    exact ⟨[c], b, rfl, ⟨c, hc, rfl⟩, matches_many.2 hb⟩

theorem matches_many1_toList {w : String} :
    (many1 p).Matches γ w.toList ↔ w ≠ "" ∧ Within p w.toList := by
  rw [matches_many1, ne_eq, String.toList_eq_nil_iff]

theorem matches_oneOf {ws : List String} (h : ws ≠ []) :
    (oneOf ws : Expression ι).Matches γ m ↔ ∃ w ∈ ws, m = w.toList := by
  induction ws with
  | nil => exact absurd rfl h
  | cons w ws ih =>
    cases ws with
    | nil => simp [oneOf, Matches]
    | cons w' ws =>
      rw [oneOf, Matches, ih (List.cons_ne_nil _ _), Matches]
      simp

/-! ## Expressions that are written in parts -/

theorem reads_append_iff {ps qs : List Part} :
    Reads (ps ++ qs) m [] ↔ ∃ a b, m = a ++ b ∧ Reads ps a [] ∧ Reads qs b [] := by
  constructor
  · intro h
    induction ps generalizing m with
    | nil => exact ⟨[], m, rfl, rfl, h⟩
    | cons q ps ih =>
      cases q with
      | text w =>
        obtain ⟨_, rfl, h⟩ := h
        obtain ⟨a, b, rfl, ha, hb⟩ := ih h
        exact ⟨_, b, (List.append_assoc ..).symm, ⟨a, rfl, ha⟩, hb⟩
      | blanks =>
        obtain ⟨t, _, ht, rfl, h⟩ := h
        obtain ⟨a, b, rfl, ha, hb⟩ := ih h
        exact ⟨_, b, (List.append_assoc ..).symm, ⟨t, a, ht, rfl, ha⟩, hb⟩
      | gap =>
        obtain ⟨t, _, hne, ht, rfl, h⟩ := h
        obtain ⟨a, b, rfl, ha, hb⟩ := ih h
        exact ⟨_, b, (List.append_assoc ..).symm, ⟨t, a, hne, ht, rfl, ha⟩, hb⟩
  · rintro ⟨a, b, rfl, ha, hb⟩
    exact (ha.append b).trans hb

/-- The matches are the texts that some of the lists of parts spell. -/
def SpelledBy (e : Expression ι) (γ : ι → String) (F : List Part → Prop) : Prop :=
  ∀ m, e.Matches γ m ↔ ∃ ps, F ps ∧ Reads ps m []

section SpelledBy

variable {e f : Expression ι} {F G : List Part → Prop} {w : String} {i : ι}

theorem spelledBy_text : (text w).SpelledBy γ (· = [.text w]) := by
  intro m
  simp [Matches]

theorem spelledBy_again : (again i).SpelledBy γ (· = [.text (γ i)]) := by
  intro m
  simp [Matches]

theorem spelledBy_blanks : (many isBlank).SpelledBy γ (· = [.blanks]) := by
  intro m
  simp [matches_many]

theorem spelledBy_gap : (many1 isBlank).SpelledBy γ (· = [.gap]) := by
  intro m
  simp [matches_many1]

theorem spelledBy_oneOf {ws : List String} (h : ws ≠ []) :
    (oneOf ws).SpelledBy γ fun ps => ∃ w, w ∈ ws ∧ [.text w] = ps := by
  intro m
  rw [matches_oneOf h]
  constructor
  · rintro ⟨w, hw, rfl⟩
    exact ⟨_, ⟨w, hw, rfl⟩, reads_text_last w⟩
  · rintro ⟨_, ⟨w, hw, rfl⟩, mid, rfl, rfl⟩
    exact ⟨w, hw, List.append_nil _⟩

/-- A group is written as what it holds, if that is a match. -/
theorem spelledBy_group :
    (group i e).SpelledBy γ fun ps => e.Matches γ (γ i).toList ∧ [.text (γ i)] = ps := by
  intro m
  constructor
  · rintro ⟨rfl, he⟩
    exact ⟨_, ⟨he, rfl⟩, reads_text_last _⟩
  · rintro ⟨_, ⟨he, rfl⟩, mid, rfl, rfl⟩
    rw [List.append_nil]
    exact ⟨rfl, he⟩

theorem SpelledBy.optional (he : e.SpelledBy γ F) :
    (optional e).SpelledBy γ fun ps => F ps ∨ ps = [] := by
  intro m
  have hempty : (text "" : Expression ι).Matches γ m ↔ m = [] := Iff.rfl
  rw [Expression.optional, Matches, he m, hempty]
  simp [or_and_right, exists_or]

theorem SpelledBy.append (he : e.SpelledBy γ F) (hf : f.SpelledBy γ G) :
    (append e f).SpelledBy γ fun ps => ∃ qs, F qs ∧ ∃ rs, G rs ∧ qs ++ rs = ps := by
  intro m
  constructor
  · rintro ⟨a, b, rfl, ha, hb⟩
    obtain ⟨qs, hqs, ha⟩ := (he a).1 ha
    obtain ⟨rs, hrs, hb⟩ := (hf b).1 hb
    exact ⟨_, ⟨qs, hqs, rs, hrs, rfl⟩, reads_append_iff.2 ⟨a, b, rfl, ha, hb⟩⟩
  · rintro ⟨_, ⟨qs, hqs, rs, hrs, rfl⟩, hm⟩
    obtain ⟨a, b, rfl, ha, hb⟩ := reads_append_iff.1 hm
    exact ⟨a, b, rfl, (he a).2 ⟨qs, hqs, ha⟩, (hf b).2 ⟨rs, hrs, hb⟩⟩

/-- The empty sequence has no parts. -/
theorem spelledBy_nil : (sequence [] : Expression ι).SpelledBy γ (· = []) := by
  intro m
  have hempty : (sequence [] : Expression ι).Matches γ m ↔ m = [] := Iff.rfl
  simp [hempty]

theorem SpelledBy.congr (he : e.SpelledBy γ F) (h : ∀ ps, F ps ↔ G ps) : e.SpelledBy γ G := by
  intro m
  simp only [he m, h]

end SpelledBy

end Expression
end ShaderPreview
