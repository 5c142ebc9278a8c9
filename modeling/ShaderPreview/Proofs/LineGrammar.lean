import ShaderPreview.Proofs.Pattern.Free
import ShaderPreview.Proofs.Sifting

/-!
# The grammar of a declaring line

A line is searched for a declaration by a reader that takes runs as long as they get.  What it finds
can be said without a reader: the stripped line is some text, `uniform`, blanks, a known type,
blanks, a name, perhaps blanks, a semicolon and some text.  There may be several such splittings,
and the line declares what the leftmost one says.

## 1.  Stripped lines

`Stripped cs t` says that `t` is the text without the blanks at its ends.  There is one such text.

## 2.  Searches

A search finds what is read at the first place where anything is read (`Pattern.first?_eq_some`),
and it finds something if and only if there is such a place (`Pattern.occursIn_iff`).

## 3.  Splittings

`Uniform.Splitting t` is a way to split `t` at a declaration.  A splitting is determined by where it
starts (`Splitting.eq_of_length_eq`): a known type may be the beginning of another one, but the
blanks behind it decide.  So there is at most one leftmost splitting.

## 4.  The grammar

`Uniform.IsDeclaredBy` is the grammar, and a line has the uniform that it allows or none.
-/

namespace ShaderPreview

/-! ## 1.  Stripped lines -/

namespace Text

/-- The text `t` is `cs` without the blanks at its two ends. -/
structure Stripped (cs t : List Char) : Prop where
  around : ∃ a b, Within isBlank a ∧ Within isBlank b ∧ cs = a ++ (t ++ b)
  front : Stops isBlank t
  back : Stops isBlank t.reverse

theorem within_reverse {p : Char → Bool} {cs : List Char} : Within p cs.reverse ↔ Within p cs := by
  simp only [Within, List.mem_reverse]

theorem stripped_trim (cs : List Char) : Stripped cs (trim cs) := by
  -- the blanks at the end are a run of the reversed text
  obtain ⟨b, hb, hrest⟩ : ∃ b, Within isBlank b ∧ cs.dropWhile isBlank = trim cs ++ b := by
    refine ⟨_, within_reverse.2 (within_takeWhile isBlank (cs.dropWhile isBlank).reverse), ?_⟩
    rw [trim, ← List.reverse_append, List.takeWhile_append_dropWhile, List.reverse_reverse]
  refine ⟨⟨_, b, within_takeWhile isBlank cs, hb, ?_⟩, ?_, ?_⟩
  · rw [← hrest, List.takeWhile_append_dropWhile]
  · by_cases hnil : trim cs = []
    · rw [hnil]
      exact stops_nil
    · rw [← stops_append_of_ne_nil hnil, ← hrest]
      exact stops_dropWhile isBlank cs
  · rw [trim, List.reverse_reverse]
    exact stops_dropWhile isBlank _

/-- A text is stripped in one way only. -/
theorem stripped_iff {cs t : List Char} : Stripped cs t ↔ t = trim cs := by
  constructor
  · rintro ⟨⟨a, b, ha, hb, rfl⟩, hfront, hback⟩
    by_cases hnil : t = []
    · have hall : (a ++ b).dropWhile isBlank = [] := by
        have h := dropWhile_append_of_stops (within_append.2 ⟨ha, hb⟩) (stops_nil (p := isBlank))
        rwa [List.append_nil] at h
      rw [hnil, trim, List.nil_append, hall]
      rfl
    · have hstops : Stops isBlank (t ++ b) := (stops_append_of_ne_nil hnil).2 hfront
      rw [trim, dropWhile_append_of_stops ha hstops, List.reverse_append,
        dropWhile_append_of_stops (within_reverse.2 hb) hback, List.reverse_reverse]
  · rintro rfl
    exact stripped_trim cs

end Text

open Text

/-! ## 2.  Searches -/

namespace Pattern

variable {α : Type} {p : Pattern α} {cs : List Char}

/-- What is read at the first place where anything is read is found first. -/
theorem first?_eq_some {a : α} {i : Nat} {rest : List Char}
    (h : p.read? (cs.drop i) = some (a, rest)) (hnone : ∀ j, j < i → p.read? (cs.drop j) = none) :
    p.first? cs = some a := by
  induction i generalizing cs with
  | zero =>
    rw [List.drop_zero] at h
    cases cs with
    | nil => simp at h
    | cons c cs => simp [first?, h]
  | succ i ih =>
    cases cs with
    | nil => simp at h
    | cons c cs =>
      have hc : p.read? (c :: cs) = none := hnone 0 (Nat.succ_pos i)
      rw [first?, hc]
      exact ih h fun j hj => hnone (j + 1) (Nat.succ_lt_succ hj)

/-- A pattern that occurs is read at some place. -/
theorem occursIn_iff :
    p.occursIn cs = true ↔ ∃ x k a rest, cs = x ++ k ∧ p.read? k = some (a, rest) := by
  have hfree : p.occursIn cs = false ↔ p.Free cs := by
    rw [occursIn, ← head?_values, free_iff_values_eq_nil, Option.isSome_eq_false_iff,
      Option.isNone_iff_eq_none, List.head?_eq_none_iff]
  rw [← Bool.not_eq_false, hfree, Free]
  simp only [Classical.not_forall, ← Option.isSome_iff_ne_none, Option.isSome_iff_exists,
    Prod.exists, exists_prop, exists_and_left]

end Pattern

/-- A text has an annotation where its parts are spelled, whatever stands around them. -/
theorem ColorLayout.occursIn_iff {cs : List Char} :
    pattern.occursIn cs = true ↔ ∃ m, m <:+: cs ∧ Reads parts m [] := by
  rw [Pattern.occursIn_iff]
  constructor
  · rintro ⟨x, k, a, rest, rfl, hread⟩
    obtain ⟨mid, hr, -⟩ := read?_iff.1 hread
    obtain ⟨m, rfl, hm⟩ := reads_iff.1 hr
    exact ⟨m, ⟨x, mid, List.append_assoc ..⟩, hm⟩
  · rintro ⟨m, ⟨x, k, rfl⟩, hm⟩
    exact ⟨x, m ++ k, (), _, List.append_assoc .., read?_iff.2 ⟨k, hm.append k, rfl⟩⟩

/-! ## 3.  Splittings -/

theorem IsWord.stops_isBlank {w : String} (hw : IsWord w) (k : List Char) :
    Stops isBlank (w.toList ++ k) :=
  (stops_append_of_ne_nil hw.toList_ne_nil).2 (hw.within.stops fun _ => isBlank_of_isWordChar)

namespace Uniform

/-- The text `t` split at a declaration. -/
@[ext]
structure Splitting (t : List Char) where
  front : List Char
  /-- The blanks behind `uniform`. -/
  gap₁ : List Char
  type : String
  /-- The blanks behind the type. -/
  gap₂ : List Char
  name : String
  /-- The blanks behind the name. -/
  gap₃ : List Char
  back : List Char
  text_eq : t = front ++ ("uniform".toList ++ (gap₁ ++ (type.toList ++ (gap₂ ++ (name.toList ++
    (gap₃ ++ (";".toList ++ back)))))))
  gap₁_ne_nil : gap₁ ≠ []
  gap₁_blank : Within isBlank gap₁
  type_mem : type ∈ types
  gap₂_ne_nil : gap₂ ≠ []
  gap₂_blank : Within isBlank gap₂
  name_isWord : IsWord name
  gap₃_blank : Within isBlank gap₃

theorem isWord_of_mem_types {w : String} (h : w ∈ types) : IsWord w := by
  have hall : ∀ w ∈ types, w ≠ "" ∧ Within isWordChar w.toList := by decide
  obtain ⟨hne, hw⟩ := hall w h
  exact ⟨hne, hw⟩

namespace Splitting

variable {t : List Char}

/-- The statement at which the text is split. -/
def statement (s : Splitting t) : Statement :=
  ⟨s.type, s.name⟩

/-- No splitting of the text starts further to the left. -/
def IsLeftmost (s : Splitting t) : Prop :=
  ∀ s' : Splitting t, s.front.length ≤ s'.front.length

/-- A splitting is determined by where it starts. -/
theorem eq_of_length_eq {s s' : Splitting t} (h : s.front.length = s'.front.length) : s = s' := by
  have hsemicolon {p : Char → Bool} (hp : p ';' = false) (k : List Char) :
      Stops p (";".toList ++ k) := hp
  have hgap₂ (s : Splitting t) (k : List Char) : Stops isWordChar (s.gap₂ ++ k) :=
    (stops_append_of_ne_nil s.gap₂_ne_nil).2 (s.gap₂_blank.stops fun _ => isWordChar_of_isBlank)
  have hgap₃ (s : Splitting t) : Stops isWordChar (s.gap₃ ++ (";".toList ++ s.back)) :=
    s.gap₃_blank.stops_append (fun _ => isWordChar_of_isBlank) (hsemicolon (by decide) _)
  -- blanks and words take turns, so each run ends where the next one starts
  obtain ⟨hfront, heq⟩ := List.append_inj (s.text_eq.symm.trans s'.text_eq) h
  rw [List.append_cancel_left_eq] at heq
  have htype := isWord_of_mem_types s.type_mem
  have htype' := isWord_of_mem_types s'.type_mem
  obtain ⟨h₁, heq⟩ := run_unique heq s.gap₁_blank (htype.stops_isBlank _) s'.gap₁_blank
    (htype'.stops_isBlank _)
  obtain ⟨h₂, heq⟩ := run_unique heq htype.within (hgap₂ s _) htype'.within (hgap₂ s' _)
  obtain ⟨h₃, heq⟩ := run_unique heq s.gap₂_blank (s.name_isWord.stops_isBlank _) s'.gap₂_blank
    (s'.name_isWord.stops_isBlank _)
  obtain ⟨h₄, heq⟩ := run_unique heq s.name_isWord.within (hgap₃ s) s'.name_isWord.within (hgap₃ s')
  obtain ⟨h₅, heq⟩ := run_unique heq s.gap₃_blank (hsemicolon (by decide) _) s'.gap₃_blank
    (hsemicolon (by decide) _)
  rw [List.append_cancel_left_eq] at heq
  exact Splitting.ext hfront h₁ (String.toList_inj.1 h₂) h₃ (String.toList_inj.1 h₄) h₅ heq

/-- A text that can be split has a leftmost splitting. -/
theorem exists_isLeftmost (s : Splitting t) : ∃ s' : Splitting t, s'.IsLeftmost := by
  induction hn : s.front.length using Nat.strongRecOn generalizing s with
  | ind n ih =>
    by_cases h : ∃ s' : Splitting t, s'.front.length < n
    · obtain ⟨s', hlt⟩ := h
      exact ih _ hlt s' rfl
    · refine ⟨s, fun s' => ?_⟩
      rw [hn]
      exact Nat.le_of_not_lt fun hlt => h ⟨s', hlt⟩

/-- There is exactly one leftmost splitting. -/
theorem exists_isLeftmost_iff (s : Splitting t) :
    ∃ s₀ : Splitting t, ∀ s' : Splitting t, s'.IsLeftmost ↔ s' = s₀ := by
  obtain ⟨s₀, hs₀⟩ := s.exists_isLeftmost
  refine ⟨s₀, fun s' => ⟨fun hs' => ?_, ?_⟩⟩
  · exact eq_of_length_eq (Nat.le_antisymm (hs' s₀) (hs₀ s'))
  · rintro rfl
    exact hs₀

/-- The reader accepts every splitting. -/
theorem read?_drop (s : Splitting t) :
    pattern.read? (t.drop s.front.length) = some (s.statement, s.back) := by
  have hdrop := (congrArg (List.drop s.front.length) s.text_eq).trans List.drop_left
  have hproper : s.statement.Proper := ⟨isWord_of_mem_types s.type_mem, s.name_isWord.within⟩
  have hreads : Reads s.statement.parts (t.drop s.front.length) s.back := by
    rw [hdrop]
    exact ⟨_, rfl, s.gap₁, _, s.gap₁_ne_nil, s.gap₁_blank, rfl, _, rfl, s.gap₂, _, s.gap₂_ne_nil,
      s.gap₂_blank, rfl, _, rfl, s.gap₃, _, s.gap₃_blank, rfl, _, rfl, rfl⟩
  refine Pattern.read?_filter_iff.2 ⟨Statement.read?_of_reads hproper hreads, ?_⟩
  rw [Bool.and_eq_true, List.contains_iff_mem, bne_iff_ne]
  exact ⟨s.type_mem, s.name_isWord.ne_empty⟩

/-- The reader accepts nothing else. -/
theorem exists_of_read? {x k rest : List Char} {st : Statement}
    (h : pattern.read? k = some (st, rest)) (ht : t = x ++ k) :
    ∃ s : Splitting t, s.front = x ∧ s.statement = st := by
  obtain ⟨hread, hok⟩ := Pattern.read?_filter_iff.1 h
  rw [Bool.and_eq_true, List.contains_iff_mem, bne_iff_ne] at hok
  obtain ⟨hproper, hreads⟩ := Statement.reads_of_read? hread
  obtain ⟨_, rfl, g₁, _, hne₁, hb₁, rfl, _, rfl, g₂, _, hne₂, hb₂, rfl, _, rfl, g₃, _, hb₃, rfl, _,
    rfl, rfl⟩ := hreads
  exact ⟨⟨x, g₁, st.type, g₂, st.name, g₃, _, ht, hne₁, hb₁, hok.1, hne₂, hb₂,
    ⟨hok.2, hproper.name_within⟩, hb₃⟩, rfl, rfl⟩

/-- A search finds the leftmost splitting. -/
theorem first?_eq_some_iff {st : Statement} :
    pattern.first? t = some st ↔ ∃ s : Splitting t, s.IsLeftmost ∧ s.statement = st := by
  constructor
  · intro h
    obtain ⟨m, x, k, ht, hread, hnone⟩ := Pattern.exists_isFirst h
    obtain ⟨s, hfront, hst⟩ := exists_of_read? hread ht
    refine ⟨s, fun s' => Nat.le_of_not_lt fun hlt => ?_, hst⟩
    have hread' := s'.read?_drop
    rw [hnone _ (by rwa [← hfront])] at hread'
    cases hread'
  · rintro ⟨s, hs, rfl⟩
    refine Pattern.first?_eq_some s.read?_drop fun j hj => ?_
    rw [Option.eq_none_iff_forall_ne_some]
    rintro ⟨st, rest⟩ hread
    obtain ⟨s', hfront, -⟩ := exists_of_read? hread (List.take_append_drop j t).symm
    have hle := hs s'
    rw [hfront, List.length_take] at hle
    omega

end Splitting

/-! ## 4.  The grammar -/

/-- The grammar of a declaring line: the stripped line `t` declares the uniform. -/
structure IsDeclaredBy (u : Uniform) (d : Dialect) (t : List Char) : Prop where
  not_comment : ¬ "//".toList <+: t
  split : ∃ s : Splitting t, s.IsLeftmost ∧ s.type = u.type ∧ s.name = u.name
  not_reserved : u.name ∉ d.reserved
  annotated_iff : u.annotated = true ↔ ∃ m, m <:+: t ∧ Reads ColorLayout.parts m []

variable {d : Dialect} {u : Uniform}

theorem isComment_iff {cs : List Char} : isComment cs = true ↔ "//".toList <+: cs := by
  rw [isComment, Option.isSome_iff_exists]
  constructor
  · rintro ⟨rest, h⟩
    exact ⟨rest, (Read.literal?_eq_some_iff.1 h).symm⟩
  · rintro ⟨rest, h⟩
    exact ⟨rest, Read.literal?_eq_some_iff.2 h.symm⟩

theorem ofLine?_eq_some_iff {l : List Char} : ofLine? l = some u ↔ ¬ "//".toList <+: trim l ∧
    pattern.first? (trim l) = some ⟨u.type, u.name⟩ ∧
      ColorLayout.pattern.occursIn (trim l) = u.annotated := by
  rw [ofLine?, ← isComment_iff]
  cases isComment (trim l) with
  | true => simp
  | false =>
    simp only [Bool.false_eq_true, if_false, not_false_eq_true, true_and, Option.map_eq_some_iff]
    constructor
    · rintro ⟨s, hs, rfl⟩
      exact ⟨hs, rfl⟩
    · rintro ⟨hs, hannotated⟩
      exact ⟨_, hs, by rw [hannotated]⟩

theorem isDeclaredBy_trim_iff {l : List Char} :
    u.IsDeclaredBy d (trim l) ↔ ofLine? l = some u ∧ u.name ∉ d.reserved := by
  have hstatement (s : Splitting (trim l)) :
      s.statement = ⟨u.type, u.name⟩ ↔ s.type = u.type ∧ s.name = u.name := by
    rw [Splitting.statement, Statement.mk.injEq]
  rw [ofLine?_eq_some_iff, Splitting.first?_eq_some_iff, Bool.eq_iff_iff, ColorLayout.occursIn_iff]
  simp only [hstatement]
  constructor
  · rintro ⟨hcomment, hsplit, hreserved, hannotated⟩
    exact ⟨⟨hcomment, hsplit, hannotated.symm⟩, hreserved⟩
  · rintro ⟨⟨hcomment, hsplit, hannotated⟩, hreserved⟩
    exact ⟨hcomment, hsplit, hreserved, hannotated.symm⟩

/-- What a single line declares is reported unless its name is reserved. -/
theorem ofSource_eq_toList {l : String} (hl : '\n' ∉ l.toList) :
    ofSource d l = ((ofLine? l.toList).filter fun u => u.name ∉ d.reserved).toList := by
  rw [ofSource_eq_kept, lines_of_not_mem hl]
  cases hline : ofLine? l.toList with
  | none => rw [List.filterMap_cons_none hline]; rfl
  | some u =>
    rw [List.filterMap_cons_some hline, List.filterMap_nil]
    by_cases hreserved : u.name ∈ d.reserved
    · rw [kept_cons_of_skipped (Or.inl hreserved),
        Option.filter_some_neg (by simpa using hreserved)]
      rfl
    · rw [kept_cons_of_new (by simpa using hreserved),
        Option.filter_some_pos (by simpa using hreserved)]
      rfl

/-- A line reports what the grammar allows: the uniform of the leftmost splitting of the stripped
line, or none. -/
theorem ofSource_line_grammar (d : Dialect) (l : String) (hl : '\n' ∉ l.toList) :
    ∃ t, (∀ t', Stripped l.toList t' ↔ t' = t) ∧
      (∀ u, ofSource d l = [u] ↔ u.IsDeclaredBy d t) ∧
      (ofSource d l = [] ↔ ∀ u : Uniform, ¬ u.IsDeclaredBy d t) ∧
      (Nonempty (Splitting t) → ∃ s : Splitting t, ∀ s' : Splitting t, s'.IsLeftmost ↔ s' = s) := by
  refine ⟨trim l.toList, fun _ => stripped_iff, fun u => ?_, ?_,
    fun ⟨s⟩ => s.exists_isLeftmost_iff⟩
  · rw [ofSource_eq_toList hl, Option.toList_eq_singleton_iff, Option.filter_eq_some_iff,
      isDeclaredBy_trim_iff, decide_eq_true_eq]
  · rw [ofSource_eq_toList hl, Option.toList_eq_nil_iff, Option.eq_none_iff_forall_ne_some]
    simp only [Ne, Option.filter_eq_some_iff, isDeclaredBy_trim_iff, decide_eq_true_eq]

/-- A line with three places to start, the second of which declares a uniform. -/
theorem ofSource_line_grammar_of_three_places :
    '\n' ∉ " layout( color )uniform half uniform\thalf2  tint ;uniform int n; ".toList ∧
      ∃ t, Stripped " layout( color )uniform half uniform\thalf2  tint ;uniform int n; ".toList t ∧
        (⟨"tint", "half2", true⟩ : Uniform).IsDeclaredBy .standard t ∧
        ∃ s : Splitting t, (∀ s' : Splitting t, s'.IsLeftmost ↔ s' = s) ∧ s.name = "tint" := by
  have hline : '\n' ∉
      " layout( color )uniform half uniform\thalf2  tint ;uniform int n; ".toList := by decide
  obtain ⟨t, hstripped, hreported, -, hunique⟩ := ofSource_line_grammar .standard _ hline
  have htint : (⟨"tint", "half2", true⟩ : Uniform).IsDeclaredBy .standard t :=
    (hreported _).1 (by decide +kernel)
  obtain ⟨s, hs, -, hname⟩ := htint.split
  obtain ⟨s₀, hs₀⟩ := hunique ⟨s⟩
  rw [(hs₀ s).1 hs] at hname
  exact ⟨hline, t, (hstripped t).2 rfl, htint, s₀, hs₀, hname⟩

end Uniform
end ShaderPreview
