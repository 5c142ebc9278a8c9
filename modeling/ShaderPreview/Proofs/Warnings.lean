import Mathlib.Data.List.Basic
import ShaderPreview.Program.Basic
import ShaderPreview.Proofs.LineGrammar
import ShaderPreview.Proofs.LoopWarning

/-!
# Warnings and the text around a construct

A warning is about a construct that stands somewhere in a shader.  The three searches behind the
warnings look for it in different ways: two read it off the front of a rest of the text, the third one
also looks ahead to the end of a line.  Yet what they find does not depend on the text around it, so a
shader that is put into a larger one keeps its warnings.

The uniforms of a shader are found line by line, and on stripped lines.  A colour annotation that is
found there is a part of the whole text, so it is pointed out as well.

* `Warning.Concerns`: the construct of each warning stands in a text;
* `Warning.mem_ofSource_iff`: a warning is given if and only if its construct stands in the text;
* `warnings_monotone`: what this means for texts in larger ones and for reported uniforms.
-/

namespace ShaderPreview

open Text

/-! ## Macro definitions -/

namespace MacroDefinition

/-- The parts of the start of a macro definition. -/
def parts : List Part :=
  [.text "#define", .gap]

theorem reads_of_read? {cs rest : List Char} {u : Unit} (h : pattern.read? cs = some (u, rest)) :
    Reads parts cs rest := by
  change read? cs = some (u, rest) at h
  simp only [read?, Option.bind_eq_bind, Option.bind_eq_some_iff, Option.pure_def,
    Option.some.injEq, Prod.mk.injEq] at h
  obtain ⟨_, hdefine, _, hblanks, -, rfl⟩ := h
  exact .of_literal? hdefine <| .of_blanks1? hblanks rfl

/-- The blanks may go on behind the ones that were read. -/
theorem exists_read?_of_reads {m : List Char} (h : Reads parts m []) (k : List Char) :
    ∃ rest, pattern.read? (m ++ k) = some ((), rest) := by
  obtain ⟨_, rfl, b, _, hne, hb, rfl, rfl⟩ := h
  have hrun : (b ++ k).takeWhile isBlank = b ++ k.takeWhile isBlank :=
    List.takeWhile_append_of_pos hb
  have hblanks : Read.blanks1? (b ++ k) = some ((b ++ k).dropWhile isBlank) := by
    refine Option.map_eq_some_iff.2 ⟨(_, _), Read.run1?_eq_some_iff.2 ⟨?_, rfl, rfl⟩, rfl⟩
    rw [hrun]
    simp [hne]
  have hdefine : Read.literal? "#define" ("#define".toList ++ (b ++ k)) = some (b ++ k) :=
    Read.literal?_eq_some_iff.2 rfl
  refine ⟨(b ++ k).dropWhile isBlank, ?_⟩
  show read? _ = _
  rw [List.append_nil, List.append_assoc]
  simp only [read?, hdefine, hblanks, Option.bind_eq_bind, Option.bind_some, Option.pure_def]

theorem occursIn_iff {cs : List Char} :
    pattern.occursIn cs = true ↔ ∃ m, m <:+: cs ∧ Reads parts m [] := by
  rw [Pattern.occursIn_iff]
  constructor
  · rintro ⟨x, k, a, rest, rfl, hread⟩
    obtain ⟨m, rfl, hm⟩ := reads_iff.1 (reads_of_read? hread)
    exact ⟨m, ⟨x, rest, List.append_assoc ..⟩, hm⟩
  · rintro ⟨m, ⟨x, k, rfl⟩, hm⟩
    obtain ⟨rest, hread⟩ := exists_read?_of_reads hm k
    exact ⟨x, m ++ k, (), rest, List.append_assoc .., hread⟩

end MacroDefinition

/-! ## What the warnings are about -/

namespace Warning

/-- All warnings, in the order in which they are given. -/
def all : List Warning :=
  [layoutColor, define, dynamicLoop]

/-- The construct that the warning is about stands in the text. -/
def Concerns (cs : List Char) : Warning → Prop
  | layoutColor => ∃ m, m <:+: cs ∧ Reads ColorLayout.parts m []
  | define => ∃ m, m <:+: cs ∧ Reads MacroDefinition.parts m []
  | dynamicLoop => DynamicLoop.Compares ('\n' ∉ ·) cs

/-- The search behind the warning finds something. -/
def isRaised (cs : List Char) : Warning → Bool
  | layoutColor => ColorLayout.pattern.occursIn cs
  | define => MacroDefinition.pattern.occursIn cs
  | dynamicLoop => DynamicLoop.occursIn cs

variable {w : Warning} {s cs : List Char}

theorem isRaised_iff : w.isRaised cs = true ↔ w.Concerns cs := by
  cases w with
  | layoutColor => exact ColorLayout.occursIn_iff
  | define => exact MacroDefinition.occursIn_iff
  | dynamicLoop => exact DynamicLoop.occursIn_iff_compares

/-- A construct stands in every text that its text is a part of. -/
theorem Concerns.of_isInfix (h : w.Concerns s) (hs : s <:+: cs) : w.Concerns cs := by
  cases w with
  | layoutColor =>
    obtain ⟨m, hm, hr⟩ := h
    exact ⟨m, hm.trans hs, hr⟩
  | define =>
    obtain ⟨m, hm, hr⟩ := h
    exact ⟨m, hm.trans hs, hr⟩
  | dynamicLoop =>
    obtain ⟨c, m, hc, hline, hr, hm⟩ := h
    exact ⟨c, m, hc, hline, hr, hm.trans hs⟩

theorem ofSource_eq_filter (cs : List Char) : ofSource cs = all.filter (isRaised cs) := by
  have hone (w : Warning) (ws : List Warning) : (w :: ws).filter (isRaised cs) =
      (if w.isRaised cs then [w] else []) ++ ws.filter (isRaised cs) := by
    rw [List.filter_cons]
    split
    · rfl
    · rfl
  rw [all, hone, hone, hone, List.filter_nil, List.append_nil, ← List.append_assoc]
  rfl

/-- A warning is given if and only if its construct stands in the text. -/
theorem mem_ofSource_iff : w ∈ ofSource cs ↔ w.Concerns cs := by
  have hall : w ∈ all := by cases w <;> decide
  rw [ofSource_eq_filter, List.mem_filter, isRaised_iff, and_iff_right hall]

/-- The warnings about a text are among those about a text that it is a part of. -/
theorem ofSource_sublist_of_isInfix (hs : s <:+: cs) : (ofSource s).Sublist (ofSource cs) := by
  rw [ofSource_eq_filter, ofSource_eq_filter]
  refine List.monotone_filter_right all fun w hw => ?_
  exact isRaised_iff.2 ((isRaised_iff.1 hw).of_isInfix hs)

end Warning

/-- An annotation that is reported with a uniform stands in the shader. -/
theorem Uniform.concerns_of_annotated {d : Dialect} {source : String} {u : Uniform}
    (hu : u ∈ Uniform.ofSource d source) (h : u.annotated = true) :
    Warning.layoutColor.Concerns source.toList := by
  obtain ⟨⟨l, hl, hline⟩, -⟩ := Uniform.exists_line_of_mem_ofSource hu
  obtain ⟨-, -, hannotated⟩ := Uniform.ofLine?_eq_some_iff.1 hline
  rw [h] at hannotated
  obtain ⟨m, hm, hr⟩ := ColorLayout.occursIn_iff.1 hannotated
  exact ⟨m, hm.trans ((trim_isInfix l).trans (infix_of_mem_lines hl)), hr⟩

/-- A warning is given for every text in which its construct stands, in a fixed order and once.  So
the warnings about a text are among those about a text around it, and a shader with a uniform that is
reported as annotated is warned about annotations. -/
theorem warnings_monotone :
    (∀ u s v : List Char, (Warning.ofSource s).Sublist (Warning.ofSource (u ++ s ++ v))) ∧
      (∀ cs : List Char, (Warning.ofSource cs).Sublist [.layoutColor, .define, .dynamicLoop] ∧
        (Warning.ofSource cs).Nodup ∧ ∀ w, w ∈ Warning.ofSource cs ↔ w.Concerns cs) ∧
      ∀ (d : Dialect) (source : String), (∃ u ∈ Uniform.ofSource d source, u.annotated = true) →
        .layoutColor ∈ (Program.ofSource d source).warnings := by
  refine ⟨fun u s v => ?_, fun cs => ?_, ?_⟩
  · exact Warning.ofSource_sublist_of_isInfix ⟨u, v, rfl⟩
  · have hsublist : (Warning.ofSource cs).Sublist Warning.all := by
      rw [Warning.ofSource_eq_filter]
      exact List.filter_sublist
    have hnodup : Warning.all.Nodup := by decide
    exact ⟨hsublist, hsublist.nodup hnodup, fun w => Warning.mem_ofSource_iff⟩
  · rintro d source ⟨u, hu, hannotated⟩
    exact Warning.mem_ofSource_iff.2 (Uniform.concerns_of_annotated hu hannotated)

/-- A uniform whose annotation has blanks in it, in a shader with a loop that goes on behind it. -/
theorem warnings_monotone_of_tint :
    (∃ u ∈ Uniform.ofSource .standard "\tlayout ( color\u3000)uniform half4 tint;\nfor (;",
      u.annotated = true) ∧
      .layoutColor ∈ (Program.ofSource .standard
        "\tlayout ( color\u3000)uniform half4 tint;\nfor (;").warnings ∧
      (Warning.ofSource "\tlayout ( color\u3000)uniform half4 tint;\nfor (;".toList).Sublist
        (Warning.ofSource ("#define N 4\n".toList ++
          "\tlayout ( color\u3000)uniform half4 tint;\nfor (;".toList ++ "i <= n; i++)".toList)) ∧
      Warning.ofSource ("#define N 4\n".toList ++
        "\tlayout ( color\u3000)uniform half4 tint;\nfor (;".toList ++ "i <= n; i++)".toList) =
        [.layoutColor, .define, .dynamicLoop] := by
  have hannotated : ∃ u ∈ Uniform.ofSource .standard
      "\tlayout ( color\u3000)uniform half4 tint;\nfor (;", u.annotated = true := by
    decide +kernel
  obtain ⟨hmono, -, hwarned⟩ := warnings_monotone
  exact ⟨hannotated, hwarned _ _ hannotated, hmono _ _ _, by decide +kernel⟩

end ShaderPreview
