import ShaderPreview.Adapt.Builtins
import ShaderPreview.Adapt.Calls
import ShaderPreview.Adapt.ColorLayouts
import ShaderPreview.Adapt.Entry
import ShaderPreview.Adapt.Loops
import ShaderPreview.Adapt.Textures
import ShaderPreview.Proofs.Pattern.Parts

/-!
# The spellings of the adapted constructs

Five constructs of a shader are found and replaced: uniform statements, heads of texture calls,
colour annotations, headers of loops and signatures of the entry function.  Each is written in fixed
parts with blanks between them, and here its reader is shown to accept exactly that.

* `Statement.spelling`: `uniform`, a type, a name that may be missing, a semicolon;
* `EvalCall.spelling`: a word, `.eval`, a parenthesis;
* `FloatLoop.spelling`: a whole loop header, with one word as the counter in three places;
* `Entry.spelling`: the signature of an entry function, with `in` or without;
* `ColorLayout.read?_iff`: the annotation, for which the blanks behind it belong to the occurrence.
  This is the one construct whose extent depends on what follows.
-/

namespace ShaderPreview

open Text

variable {cs rest : List Char}

/-! ## Uniform statements -/

namespace Statement

/-- The parts of a statement. -/
def parts (s : Statement) : List Part :=
  [.text "uniform", .gap, .text s.type, .gap, .text s.name, .blanks, .text ";"]

/-- The type is a word, and the name is one if it is not missing. -/
structure Proper (s : Statement) : Prop where
  type_isWord : IsWord s.type
  name_within : Within isWordChar s.name.toList

theorem reads_of_read? {s : Statement} (h : read? cs = some (s, rest)) :
    s.Proper ∧ Reads s.parts cs rest := by
  simp only [read?, Option.bind_eq_bind, Option.bind_eq_some_iff, Option.pure_def,
    Option.some.injEq, Prod.mk.injEq] at h
  obtain ⟨_, h₁, cs₂, h₂, ⟨type, _⟩, h₃, _, h₄, ⟨name, _⟩, h₅, _, h₆, rfl, rfl⟩ := h
  refine ⟨⟨⟨?_, (Read.word?_iff.1 h₃).2.1⟩, (Read.word?_iff.1 h₅).2.1⟩, .of_literal? h₁ <|
    .of_blanks1? h₂ <| .of_word? h₃ <| .of_blanks1? h₄ <| .of_word? h₅ <| .of_blanks <|
    .of_literal? h₆ rfl⟩
  -- without a type the two gaps would be one
  rintro rfl
  obtain ⟨-, -, -, hstops, -⟩ := Read.blanks1?_iff.1 h₂
  obtain ⟨-, -, -, rfl⟩ := Read.word?_iff.1 h₃
  obtain ⟨b, hne, hb, -, hcs⟩ := Read.blanks1?_iff.1 h₄
  obtain rfl : cs₂ = b ++ _ := hcs
  rw [stops_append_of_ne_nil hne] at hstops
  obtain ⟨c, b, rfl⟩ := List.exists_cons_of_ne_nil hne
  exact absurd (hb c (List.mem_cons_self ..)) (by simp [stops_cons.1 hstops])

/-- Where the name is missing, the blanks on both sides of it are one gap. -/
theorem reads_gap_of_missing (h : Reads [.gap, .text "", .blanks, .text ";"] cs rest) :
    Reads [.gap, .text ";"] cs rest := by
  obtain ⟨b, _, hne, hb, rfl, mid, rfl, b', _, hb', rfl, h⟩ := h
  exact ⟨b ++ b', _, by simp [hne], within_append.2 ⟨hb, hb'⟩, (List.append_assoc ..).symm, h⟩

theorem read?_of_reads {s : Statement} (hs : s.Proper) (h : Reads s.parts cs rest) :
    read? cs = some (s, rest) := by
  obtain ⟨_, h₁, h⟩ := h.literal?
  obtain ⟨_, h₂, h⟩ := h.blanks1? hs.type_isWord.solid
  obtain ⟨cs₃, h₃, h⟩ := h.word? (fun _ => true) rfl hs.type_isWord.within rfl
  obtain ⟨_, h₄, _, h₅, _, h₆, rfl⟩ : ∃ cs₄, Read.blanks1? cs₃ = some cs₄ ∧
      ∃ cs₅, Read.word? (fun _ => true) cs₄ = some (s.name, cs₅) ∧
        ∃ cs₆, Read.literal? ";" (Read.blanks cs₅) = some cs₆ ∧ cs₆ = rest := by
    by_cases hname : s.name = ""
    · rw [hname] at h ⊢
      obtain ⟨mid, h₄, h⟩ := (reads_gap_of_missing h).blanks1? rfl
      have hmid : Reads [.text "", .blanks, .text ";"] mid rest :=
        ⟨mid, rfl, [], mid, within_nil, rfl, h⟩
      obtain ⟨_, h₅, h⟩ := hmid.word? (fun _ => true) rfl within_nil rfl
      exact ⟨mid, h₄, _, h₅, (h.blanks rfl).literal?⟩
    · have hword : IsWord s.name := ⟨hname, hs.name_within⟩
      obtain ⟨_, h₄, h⟩ := h.blanks1? hword.solid
      obtain ⟨_, h₅, h⟩ := h.word? (fun _ => true) rfl hword.within rfl
      exact ⟨_, h₄, _, h₅, (h.blanks rfl).literal?⟩
  simp only [read?, h₁, h₂, h₃, h₄, h₅, h₆, Option.bind_eq_bind, Option.bind_some, Option.pure_def]

/-- A statement is spelled by its parts. -/
def spelling : pattern.Spelling where
  Forms s ps := s.Proper ∧ ps = s.parts
  read?_iff := by
    intro cs s rest
    constructor
    · intro h
      obtain ⟨hs, hr⟩ := reads_of_read? h
      exact ⟨_, ⟨hs, rfl⟩, hr⟩
    · rintro ⟨_, ⟨hs, rfl⟩, hr⟩
      exact read?_of_reads hs hr

end Statement

/-- The statements that declare a built-in again are spelled as all statements are. -/
def Builtin.spelling (b : Builtin) : b.pattern.Spelling :=
  Statement.spelling.filter _

/-- The statements that declare textures are spelled as all statements are. -/
def Texture.spelling : Texture.pattern.Spelling :=
  Statement.spelling.filter _

/-! ## Heads of texture calls -/

namespace EvalCall

/-- The parts of the head of a call. -/
def parts (texture : String) : List Part :=
  [.text texture, .text ".eval", .blanks, .text "("]

/-- The head of a call is spelled by its parts. -/
def spelling : pattern.Spelling where
  Forms texture ps := IsWord texture ∧ ps = parts texture
  read?_iff := by
    intro cs texture rest
    show read? cs = some (texture, rest) ↔ _
    constructor
    · intro h
      simp only [read?, Option.bind_eq_bind, Option.bind_eq_some_iff, Option.pure_def,
        Option.some.injEq, Prod.mk.injEq] at h
      obtain ⟨⟨t, _⟩, h₁, _, h₂, _, h₃, rfl, rfl⟩ := h
      obtain ⟨hne, hw, -⟩ := Read.word?_iff.1 h₁
      exact ⟨_, ⟨⟨bne_iff_ne.1 hne, hw⟩, rfl⟩, .of_word? h₁ <| .of_literal? h₂ <| .of_blanks <|
        .of_literal? h₃ rfl⟩
    · rintro ⟨_, ⟨hw, rfl⟩, h⟩
      obtain ⟨_, h₁, h⟩ := h.word? (· != "") (bne_iff_ne.2 hw.ne_empty) hw.within rfl
      obtain ⟨_, h₂, h⟩ := h.literal?
      obtain ⟨_, h₃, rfl⟩ := (h.blanks rfl).literal?
      simp only [read?, h₁, h₂, h₃, Option.bind_eq_bind, Option.bind_some, Option.pure_def]

/-- What a call is flattened to: one word and a parenthesis. -/
theorem reads_flat (texture : String) :
    Reads [.text (texture ++ "_eval"), .text "("] (flat texture) [] := by
  have hflat : flat texture = (texture ++ "_eval").toList ++ "(".toList := by
    unfold flat
    rw [String.toList_append, List.append_assoc]
    rfl
  rw [hflat]
  exact .text_append (reads_text_last "(")

theorem within_flatName {texture : String} (h : IsWord texture) :
    Within isWordChar (texture ++ "_eval").toList := by
  rw [String.toList_append, within_append]
  exact ⟨h.within, by decide⟩

end EvalCall

/-! ## Colour annotations -/

namespace ColorLayout

/-- The parts of an annotation, without the blanks behind it. -/
def parts : List Part :=
  [.text "layout", .blanks, .text "(", .blanks, .text "color", .blanks, .text ")"]

/-- An annotation is read together with all blanks behind it. -/
theorem read?_iff {u : Unit} :
    pattern.read? cs = some (u, rest) ↔ ∃ mid, Reads parts cs mid ∧ Read.blanks mid = rest := by
  show read? cs = some (u, rest) ↔ _
  constructor
  · intro h
    simp only [read?, Option.bind_eq_bind, Option.bind_eq_some_iff, Option.pure_def,
      Option.some.injEq, Prod.mk.injEq] at h
    obtain ⟨_, h₁, _, h₂, _, h₃, mid, h₄, -, h₅⟩ := h
    exact ⟨mid, .of_literal? h₁ <| .of_blanks <| .of_literal? h₂ <| .of_blanks <|
      .of_literal? h₃ <| .of_blanks <| .of_literal? h₄ rfl, h₅⟩
  · rintro ⟨mid, h, rfl⟩
    obtain ⟨_, h₁, h⟩ := h.literal?
    obtain ⟨_, h₂, h⟩ := (h.blanks rfl).literal?
    obtain ⟨_, h₃, h⟩ := (h.blanks rfl).literal?
    obtain ⟨_, h₄, rfl⟩ := (h.blanks rfl).literal?
    simp only [read?, h₁, h₂, h₃, h₄, Option.bind_eq_bind, Option.bind_some, Option.pure_def]

end ColorLayout

/-! ## Headers of loops -/

namespace FloatLoop

/-- The parts of a loop header. -/
def parts (l : FloatLoop) : List Part :=
  [.text "for", .blanks, .text "(", .blanks, .text "float", .gap, .text l.counter, .blanks,
   .text "=", .blanks, .text l.start, .text ".0", .blanks, .text ";", .blanks,
   .text l.counter, .blanks, .text "<", .blanks, .text l.stop, .text ".0", .blanks, .text ";",
   .blanks, .text l.counter, .blanks, .text "++", .blanks, .text ")"]

/-- A run of digits that is not empty. -/
structure IsNumeral (s : String) : Prop where
  ne_empty : s ≠ ""
  within : Within Char.isDigit s.toList

theorem IsNumeral.isWord {s : String} (hs : IsNumeral s) : IsWord s :=
  ⟨hs.ne_empty, hs.within.mono fun _ => isWordChar_of_isDigit⟩

/-- The counter is a word, and the bounds are numerals. -/
structure Proper (l : FloatLoop) : Prop where
  counter : IsWord l.counter
  start : IsNumeral l.start
  stop : IsNumeral l.stop

theorem reads_of_bound? {s : String} {ps : List Part} {mid : List Char}
    (h : bound? cs = some (s, mid)) (hr : Reads ps mid rest) :
    IsNumeral s ∧ Reads (.text s :: .text ".0" :: ps) cs rest := by
  simp only [bound?, Option.bind_eq_bind, Option.bind_eq_some_iff, Option.pure_def,
    Option.some.injEq, Prod.mk.injEq] at h
  obtain ⟨⟨ds, _⟩, h₁, _, h₂, rfl, rfl⟩ := h
  obtain ⟨hne, hd, -, hcs⟩ := Read.run1?_iff.1 h₁
  have hlist : (String.ofList ds).toList = ds := String.toList_ofList
  refine ⟨⟨?_, ?_⟩, _, ?_, .of_literal? h₂ hr⟩
  · rwa [Ne, ← String.toList_eq_nil_iff, hlist]
  · rwa [hlist]
  · rw [hlist]
    exact hcs

theorem bound?_of_reads {s : String} {ps : List Part} (hs : IsNumeral s)
    (h : Reads (.text s :: .text ".0" :: ps) cs rest) :
    ∃ mid, bound? cs = some (s, mid) ∧ Reads ps mid rest := by
  obtain ⟨_, hcs, h⟩ := h
  obtain ⟨mid, hdot, h⟩ := h
  have hstops : Stops Char.isDigit (".0".toList ++ mid) :=
    (stops_append_of_ne_nil (by decide)).2 (by decide)
  have h₁ := Read.run1?_iff.2 ⟨hs.isWord.toList_ne_nil, hs.within, hstops, hdot ▸ hcs⟩
  refine ⟨mid, ?_, h⟩
  simp only [bound?, h₁, Read.literal?_eq_some_iff.2 rfl, Option.bind_eq_bind, Option.bind_some,
    Option.pure_def, String.ofList_toList]

theorem reads_of_read? {l : FloatLoop} (h : read? cs = some (l, rest)) :
    l.Proper ∧ Reads l.parts cs rest := by
  simp only [read?, Option.bind_eq_bind, Option.bind_eq_some_iff, Option.pure_def,
    Option.some.injEq, Prod.mk.injEq] at h
  obtain ⟨_, h₁, _, h₂, _, h₃, _, h₄, ⟨counter, _⟩, h₅, _, h₆, ⟨start, _⟩, h₇, _, h₈, ⟨w₁, _⟩, h₉, _,
    h₁₀, ⟨stop, _⟩, h₁₁, _, h₁₂, ⟨w₂, _⟩, h₁₃, _, h₁₄, _, h₁₅, rfl, rfl⟩ := h
  obtain ⟨hne, hw, -⟩ := Read.word?_iff.1 h₅
  obtain rfl := beq_iff_eq.1 (Read.word?_iff.1 h₉).1
  obtain rfl := beq_iff_eq.1 (Read.word?_iff.1 h₁₃).1
  -- the parts are collected from the last one to the first
  have hr := Reads.of_blanks <| .of_literal? h₁₂ <| .of_blanks <| .of_word? h₁₃ <| .of_blanks <|
    .of_literal? h₁₄ <| .of_blanks <| .of_literal? h₁₅ <| reads_nil.2 rfl
  obtain ⟨hstop, hr⟩ := reads_of_bound? h₁₁ hr
  have hr := Reads.of_blanks <| .of_literal? h₈ <| .of_blanks <| .of_word? h₉ <| .of_blanks <|
    .of_literal? h₁₀ <| .of_blanks hr
  obtain ⟨hstart, hr⟩ := reads_of_bound? h₇ hr
  exact ⟨⟨⟨bne_iff_ne.1 hne, hw⟩, hstart, hstop⟩, .of_literal? h₁ <| .of_blanks <|
    .of_literal? h₂ <| .of_blanks <| .of_literal? h₃ <| .of_blanks1? h₄ <| .of_word? h₅ <|
    .of_blanks <| .of_literal? h₆ <| .of_blanks hr⟩

theorem read?_of_reads {l : FloatLoop} (hl : l.Proper) (h : Reads l.parts cs rest) :
    read? cs = some (l, rest) := by
  have hc : (l.counter == l.counter) = true := beq_self_eq_true _
  obtain ⟨_, h₁, h⟩ := h.literal?
  obtain ⟨_, h₂, h⟩ := (h.blanks rfl).literal?
  obtain ⟨_, h₃, h⟩ := (h.blanks rfl).literal?
  obtain ⟨_, h₄, h⟩ := h.blanks1? hl.counter.solid
  obtain ⟨_, h₅, h⟩ := h.word? (· != "") (bne_iff_ne.2 hl.counter.ne_empty) hl.counter.within rfl
  obtain ⟨_, h₆, h⟩ := (h.blanks rfl).literal?
  obtain ⟨_, h₇, h⟩ := bound?_of_reads hl.start (h.blanks hl.start.isWord.solid)
  obtain ⟨_, h₈, h⟩ := (h.blanks rfl).literal?
  obtain ⟨_, h₉, h⟩ := (h.blanks hl.counter.solid).word? (· == l.counter) hc hl.counter.within rfl
  obtain ⟨_, h₁₀, h⟩ := (h.blanks rfl).literal?
  obtain ⟨_, h₁₁, h⟩ := bound?_of_reads hl.stop (h.blanks hl.stop.isWord.solid)
  obtain ⟨_, h₁₂, h⟩ := (h.blanks rfl).literal?
  obtain ⟨_, h₁₃, h⟩ := (h.blanks hl.counter.solid).word? (· == l.counter) hc hl.counter.within rfl
  obtain ⟨_, h₁₄, h⟩ := (h.blanks rfl).literal?
  obtain ⟨_, h₁₅, rfl⟩ := (h.blanks rfl).literal?
  simp only [read?, h₁, h₂, h₃, h₄, h₅, h₆, h₇, h₈, h₉, h₁₀, h₁₁, h₁₂, h₁₃, h₁₄, h₁₅,
    Option.bind_eq_bind, Option.bind_some, Option.pure_def]

/-- The parts of the header that counts in whole numbers, with the spaces between them. -/
theorem header_eq (l : FloatLoop) : l.header =
    "for".toList ++ ' ' :: ("(".toList ++ ("int".toList ++ ' ' :: (l.counter.toList ++ ' ' ::
      ("=".toList ++ ' ' :: (l.start.toList ++ (";".toList ++ ' ' :: (l.counter.toList ++ ' ' ::
        ("<".toList ++ ' ' :: (l.stop.toList ++ (";".toList ++ ' ' :: (l.counter.toList ++
          "++)".toList))))))))))) := by
  have hfor : "for (int ".toList = "for".toList ++ ' ' :: ("(".toList ++ ("int".toList ++ [' '])) := by
    decide
  have hfrom : " = ".toList = ' ' :: ("=".toList ++ [' ']) := by decide
  have hbelow : " < ".toList = ' ' :: ("<".toList ++ [' ']) := by decide
  have hnext : "; ".toList = ";".toList ++ [' '] := by decide
  unfold header
  simp only [hfor, hfrom, hbelow, hnext, List.append_assoc, List.cons_append, List.nil_append]

/-- A loop header is spelled by its parts. -/
def spelling : pattern.Spelling where
  Forms l ps := l.Proper ∧ ps = l.parts
  read?_iff := by
    intro cs l rest
    constructor
    · intro h
      obtain ⟨hl, hr⟩ := reads_of_read? h
      exact ⟨_, ⟨hl, rfl⟩, hr⟩
    · rintro ⟨_, ⟨hl, rfl⟩, hr⟩
      exact read?_of_reads hl hr

end FloatLoop

/-! ## Signatures of the entry function -/

namespace Entry

/-- The ways to qualify the parameter. -/
def qualifiers : List (List Part) := [[], [.text "in", .gap]]

/-- The parts of a signature. -/
def parts (name color : String) (qualifier : List Part) (coordinate parameter : String) :
    List Part :=
  [.text color, .gap, .text name, .blanks, .text "(", .blanks] ++ (qualifier ++
    [.text coordinate, .gap, .text parameter, .blanks, .text ")"])

/-- The parts that spell a signature with a parameter. -/
def Forms (name parameter : String) (ps : List Part) : Prop :=
  ∃ color ∈ colorTypes, ∃ qualifier ∈ qualifiers, ∃ coordinate ∈ coordinateTypes,
    IsWord parameter ∧ ps = parts name color qualifier coordinate parameter

theorem isWord_of_mem_types {t : String} (h : t ∈ colorTypes ∨ t ∈ coordinateTypes) : IsWord t := by
  have hall : ∀ t ∈ colorTypes ++ coordinateTypes, t ≠ "" ∧ Within isWordChar t.toList := by decide
  obtain ⟨hne, hw⟩ := hall t (List.mem_append.2 h)
  exact ⟨hne, hw⟩

theorem isWord_of_isIdentifier {name : String} (h : isIdentifier name = true) : IsWord name :=
  ⟨fun hne => toList_ne_nil_of_isIdentifier h (String.toList_eq_nil_iff.2 hne),
    fun _ => isWordChar_of_mem_identifier h⟩

variable {coordinate : String} {ps : List Part}

theorem reads_of_parameterType? {mid : List Char}
    (h : parameterType? cs = some (coordinate, mid)) (hr : Reads ps mid rest) :
    coordinate ∈ coordinateTypes ∧
      ∃ qualifier ∈ qualifiers, Reads (qualifier ++ .text coordinate :: ps) cs rest := by
  unfold parameterType? at h
  split at h
  · next w _ h₁ =>
    simp only [Option.bind_eq_bind, Option.bind_eq_some_iff] at h
    obtain ⟨_, h₂, h₃⟩ := h
    obtain rfl : w = "in" := beq_iff_eq.1 (Read.word?_iff.1 h₁).1
    exact ⟨List.contains_iff_mem.1 (Read.word?_iff.1 h₃).1, _, List.mem_cons_of_mem _
      (List.mem_singleton_self _), .of_word? h₁ <| .of_blanks1? h₂ <| .of_word? h₃ hr⟩
  · exact ⟨List.contains_iff_mem.1 (Read.word?_iff.1 h).1, _, List.mem_cons_self ..,
      .of_word? h hr⟩

theorem parameterType?_of_reads (hc : coordinate ∈ coordinateTypes) (he : endsWord ps = true)
    {qualifier : List Part} (hq : qualifier ∈ qualifiers)
    (h : Reads (qualifier ++ .text coordinate :: ps) cs rest) :
    ∃ mid, parameterType? cs = some (coordinate, mid) ∧ Reads ps mid rest := by
  have hw := isWord_of_mem_types (Or.inr hc)
  have hok := List.contains_iff_mem.2 hc
  simp only [qualifiers, List.mem_cons, List.not_mem_nil, or_false] at hq
  rcases hq with rfl | rfl
  · obtain ⟨mid, h₁, h⟩ := Reads.word? h coordinateTypes.contains hok hw.within he
    -- the longest word is the type, so it is not the qualifier
    have hnone : Read.word? (· == "in") cs = none := by
      rw [Option.eq_none_iff_forall_ne_some]
      rintro ⟨w, r⟩ hin
      obtain ⟨hw', htake, -⟩ := Read.word?_eq_some_iff.1 hin
      obtain ⟨-, htake', -⟩ := Read.word?_eq_some_iff.1 h₁
      obtain rfl : w = coordinate := String.toList_inj.1 (htake.trans htake'.symm)
      rw [beq_iff_eq.1 hw'] at hc
      exact absurd hc (by decide)
    exact ⟨mid, by simp only [parameterType?, hnone, h₁], h⟩
  · obtain ⟨_, h₁, h⟩ := Reads.word? h (· == "in") rfl (by decide) rfl
    obtain ⟨_, h₂, h⟩ := h.blanks1? hw.solid
    obtain ⟨mid, h₃, h⟩ := h.word? coordinateTypes.contains hok hw.within he
    exact ⟨mid, by simp only [parameterType?, h₁, h₂, h₃, Option.bind_eq_bind, Option.bind_some], h⟩

theorem forms_of_read? {name parameter : String} (h : read? name cs = some (parameter, rest)) :
    ∃ ps, Forms name parameter ps ∧ Reads ps cs rest := by
  simp only [read?, Option.bind_eq_bind, Option.bind_eq_some_iff, Option.pure_def,
    Option.some.injEq, Prod.mk.injEq] at h
  obtain ⟨⟨color, _⟩, h₁, _, h₂, ⟨w, _⟩, h₃, _, h₄, ⟨coordinate, _⟩, h₅, _, h₆, ⟨_, _⟩, h₇, _, h₈,
    rfl, rfl⟩ := h
  obtain ⟨hcolor, -⟩ := Read.word?_iff.1 h₁
  obtain rfl : w = name := beq_iff_eq.1 (Read.word?_iff.1 h₃).1
  obtain ⟨hne, hw, -⟩ := Read.word?_iff.1 h₇
  have hr := Reads.of_blanks1? h₆ <| .of_word? h₇ <| .of_blanks <| .of_literal? h₈ <|
    reads_nil.2 rfl
  obtain ⟨hcoordinate, qualifier, hq, hr⟩ := reads_of_parameterType? h₅ hr
  exact ⟨_, ⟨color, List.contains_iff_mem.1 hcolor, qualifier, hq, coordinate, hcoordinate,
    ⟨bne_iff_ne.1 hne, hw⟩, rfl⟩, .of_word? h₁ <| .of_blanks1? h₂ <| .of_word? h₃ <| .of_blanks <|
    .of_literal? h₄ <| .of_blanks hr⟩

/-- The blanks in front of the parameter's type end there, qualified or not. -/
theorem solid_qualifier {qualifier : List Part} (hq : qualifier ∈ qualifiers)
    (hc : coordinate ∈ coordinateTypes) : solid (qualifier ++ .text coordinate :: ps) = true := by
  simp only [qualifiers, List.mem_cons, List.not_mem_nil, or_false] at hq
  rcases hq with rfl | rfl
  · exact (isWord_of_mem_types (Or.inr hc)).solid
  · rfl

theorem read?_of_forms {name parameter : String} (hname : IsWord name)
    (hf : Forms name parameter ps) (h : Reads ps cs rest) :
    read? name cs = some (parameter, rest) := by
  obtain ⟨color, hcolor, qualifier, hq, coordinate, hc, hparam, rfl⟩ := hf
  have hwcolor := isWord_of_mem_types (Or.inl hcolor)
  obtain ⟨_, h₁, h⟩ := Reads.word? h colorTypes.contains (List.contains_iff_mem.2 hcolor)
    hwcolor.within rfl
  obtain ⟨_, h₂, h⟩ := h.blanks1? hname.solid
  obtain ⟨_, h₃, h⟩ := h.word? (· == name) (beq_self_eq_true _) hname.within rfl
  obtain ⟨_, h₄, h⟩ := (h.blanks rfl).literal?
  obtain ⟨_, h₅, h⟩ := parameterType?_of_reads hc rfl hq (h.blanks (solid_qualifier hq hc))
  obtain ⟨_, h₆, h⟩ := h.blanks1? hparam.solid
  obtain ⟨_, h₇, h⟩ := h.word? (· != "") (bne_iff_ne.2 hparam.ne_empty) hparam.within rfl
  obtain ⟨_, h₈, rfl⟩ := (h.blanks rfl).literal?
  simp only [read?, h₁, h₂, h₃, h₄, h₅, h₆, h₇, h₈, Option.bind_eq_bind, Option.bind_some,
    Option.pure_def]

/-- A signature is spelled by its parts, if the entry function has a name that is a word. -/
def spelling {name : String} (hname : IsWord name) : (pattern name).Spelling where
  Forms := Forms name
  read?_iff := by
    intro cs parameter rest
    refine ⟨forms_of_read?, ?_⟩
    rintro ⟨ps, hf, h⟩
    exact read?_of_forms hname hf h

end Entry
end ShaderPreview
