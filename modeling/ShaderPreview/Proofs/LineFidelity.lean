import ShaderPreview.Diagnostic
import ShaderPreview.Program.Basic
import ShaderPreview.Proofs.Pattern.Lines

/-!
# Lines of the shader in the generated program

A compiler counts the lines of the generated program, and its messages are mapped back by the number
of lines in front of the shader's text.  That names the right line as long as adapting the shader
loses no line break.  It does lose some: every construct may be spread over several lines, and what
replaces it stands on one.

* `lostBreaks`: the breaks inside the constructs that are replaced, over the six stages;
* `newlines_userText`: exactly these are missing from the adapted text;
* `lines_userText`: if there are none, the adapted text is the shader adapted line by line;
* `lines_text`: where the lines of the adapted text stand in the program;
* `userText_keeps_lines_iff`: the lines of the shader keep their numbers if and only if no break is
  lost.
-/

namespace ShaderPreview

open Text

/-! ## Replacements without breaks -/

/-- There is no break in a word. -/
theorem newline_not_mem_of_word {w : List Char} (h : Within isWordChar w) : '\n' ∉ w :=
  h.not_mem (by decide)

theorem Builtin.oneLine (b : Builtin) : b.pattern.OneLine Builtin.comment := by
  intro cs s rest h
  obtain ⟨hs, -⟩ := Statement.reads_of_read? (Pattern.read?_filter_iff.1 h).1
  unfold Builtin.comment
  simp only [List.mem_append, not_or]
  exact ⟨⟨by decide, newline_not_mem_of_word hs.name_within⟩, by decide⟩

theorem Texture.oneLine (d : Dialect) : Texture.pattern.OneLine (Texture.comment d) := by
  intro cs s rest h
  obtain ⟨hs, -⟩ := Statement.reads_of_read? (Pattern.read?_filter_iff.1 h).1
  unfold Texture.comment
  split
  · decide
  · rw [List.mem_append, not_or]
    exact ⟨by decide, newline_not_mem_of_word hs.name_within⟩

theorem EvalCall.oneLine : EvalCall.pattern.OneLine EvalCall.flat := by
  intro cs texture rest h
  obtain ⟨_, ⟨hw, -⟩, -⟩ := EvalCall.spelling.read?_iff.1 h
  unfold EvalCall.flat
  rw [List.mem_append, not_or]
  exact ⟨newline_not_mem_of_word hw.within, by decide⟩

theorem ColorLayout.oneLine : ColorLayout.pattern.OneLine fun _ => [] :=
  fun _ => List.not_mem_nil

theorem FloatLoop.oneLine : FloatLoop.pattern.OneLine FloatLoop.header := by
  intro cs l rest h
  obtain ⟨hl, -⟩ := FloatLoop.reads_of_read? h
  have hcounter := newline_not_mem_of_word hl.counter.within
  have hstart := newline_not_mem_of_word hl.start.isWord.within
  have hstop := newline_not_mem_of_word hl.stop.isWord.within
  unfold FloatLoop.header
  simp only [List.mem_append, not_or]
  exact ⟨⟨⟨⟨⟨⟨⟨⟨⟨⟨by decide, hcounter⟩, by decide⟩, hstart⟩, by decide⟩, hcounter⟩, by decide⟩, hstop⟩,
    by decide⟩, hcounter⟩, by decide⟩

/-- The name that the entry function gets is a word. -/
theorem Dialect.isWord_userEntry (d : Dialect) : IsWord d.userEntry :=
  Entry.isWord_of_isIdentifier (d.identifiers _ (by simp [Vocabulary.names]))

/-- The name of the entry function is a word. -/
theorem Dialect.isWord_entryPoint (d : Dialect) : IsWord d.entryPoint :=
  Entry.isWord_of_isIdentifier (d.identifiers _ (by simp [Vocabulary.names]))

theorem Entry.oneLine (d : Dialect) :
    (Entry.pattern d.entryPoint).OneLine (Entry.signature d.userEntry) := by
  intro cs parameter rest h
  obtain ⟨_, ⟨_, -, _, -, _, -, hw, -⟩, -⟩ := Entry.forms_of_read? h
  have hentry := newline_not_mem_of_word d.isWord_userEntry.within
  unfold Entry.signature
  simp only [List.mem_append, not_or]
  exact ⟨⟨⟨⟨by decide, hentry⟩, by decide⟩, newline_not_mem_of_word hw.within⟩, by decide⟩

/-! ## The breaks that are lost -/

/-- The breaks inside the statements that are hidden for some built-ins, one after the other. -/
def Builtin.lostBreaks : List Builtin → List Char → Nat
  | [], _ => 0
  | b :: bs, cs => b.pattern.breaks cs + lostBreaks bs (b.hide cs)

/-- The breaks inside the constructs that are replaced at the six stages. -/
def lostBreaks (d : Dialect) (cs : List Char) : Nat :=
  let hidden := hideBuiltins d cs
  let moved := moveTextures d hidden
  let flat := flattenCalls moved
  let dropped := dropColorLayouts flat
  let counted := countInWholeNumbers dropped
  Builtin.lostBreaks (Builtin.ofDialect d) cs + Texture.pattern.breaks hidden +
    EvalCall.pattern.breaks moved + ColorLayout.pattern.breaks flat +
    FloatLoop.pattern.breaks dropped + (Entry.pattern d.entryPoint).firstBreaks counted

theorem Builtin.newlines_foldl_hide (bs : List Builtin) (cs : List Char) :
    newlines (bs.foldl (fun cs b => b.hide cs) cs) + lostBreaks bs cs = newlines cs := by
  induction bs generalizing cs with
  | nil => rfl
  | cons b bs ih =>
    have hb := Pattern.newlines_replace b.oneLine cs
    have hbs := ih (b.hide cs)
    rw [List.foldl_cons, Builtin.lostBreaks]
    rw [Builtin.hide] at hbs ⊢
    omega

/-- The breaks that the adapted text lacks are those inside replaced constructs. -/
theorem newlines_userText (d : Dialect) (cs : List Char) :
    newlines (userText d cs) + lostBreaks d cs = newlines cs := by
  have h₁ := Builtin.newlines_foldl_hide (Builtin.ofDialect d) cs
  have h₂ := Pattern.newlines_replace (Texture.oneLine d) (hideBuiltins d cs)
  have h₃ := Pattern.newlines_replace EvalCall.oneLine (moveTextures d (hideBuiltins d cs))
  have h₄ := Pattern.newlines_replace ColorLayout.oneLine
    (flattenCalls (moveTextures d (hideBuiltins d cs)))
  have h₅ := Pattern.newlines_replace FloatLoop.oneLine
    (dropColorLayouts (flattenCalls (moveTextures d (hideBuiltins d cs))))
  have h₆ := Pattern.newlines_replaceFirst (Entry.oneLine d)
    (countInWholeNumbers (dropColorLayouts (flattenCalls (moveTextures d (hideBuiltins d cs)))))
  rw [← hideBuiltins] at h₁
  rw [← moveTextures] at h₂
  rw [← flattenCalls] at h₃
  rw [← dropColorLayouts] at h₄
  rw [← countInWholeNumbers] at h₅
  rw [← renameEntry, ← userText] at h₆
  simp only [lostBreaks]
  omega

/-! ## Line by line -/

/-- A line adapted by itself, up to the entry function. -/
def adaptLine (d : Dialect) (l : List Char) : List Char :=
  countInWholeNumbers (dropColorLayouts (flattenCalls (moveTextures d (hideBuiltins d l))))

/-- Lines adapted one by one; the entry function is renamed on the first line that has it. -/
def adaptLines (d : Dialect) (ls : List (List Char)) : List (List Char) :=
  (Entry.pattern d.entryPoint).replaceFirstLine (Entry.signature d.userEntry)
    (ls.map (adaptLine d))

theorem Builtin.lines_foldl_hide (bs : List Builtin) {cs : List Char} (h : lostBreaks bs cs = 0) :
    lines (bs.foldl (fun cs b => b.hide cs) cs) =
      (lines cs).map fun l => bs.foldl (fun cs b => b.hide cs) l := by
  induction bs generalizing cs with
  | nil => simp
  | cons b bs ih =>
    rw [Builtin.lostBreaks] at h
    have hb : lines (b.hide cs) = (lines cs).map b.hide :=
      Pattern.lines_replace b.spelling.local b.oneLine (by omega)
    rw [List.foldl_cons, ih (by omega), hb, List.map_map]
    rfl

/-- If no break is lost, the shader is adapted line by line. -/
theorem lines_userText {d : Dialect} {cs : List Char} (h : lostBreaks d cs = 0) :
    lines (userText d cs) = adaptLines d (lines cs) := by
  simp only [lostBreaks] at h
  have h₁ : lines (hideBuiltins d cs) = (lines cs).map (hideBuiltins d) :=
    Builtin.lines_foldl_hide _ (by omega)
  have h₂ : lines (moveTextures d (hideBuiltins d cs)) = _ :=
    Pattern.lines_replace Texture.spelling.local (Texture.oneLine d) (by omega)
  have h₃ : lines (flattenCalls (moveTextures d (hideBuiltins d cs))) = _ :=
    Pattern.lines_replace EvalCall.spelling.local EvalCall.oneLine (by omega)
  have h₄ : lines (dropColorLayouts (flattenCalls (moveTextures d (hideBuiltins d cs)))) = _ :=
    Pattern.lines_replace ColorLayout.local ColorLayout.oneLine (by omega)
  have h₅ : lines (countInWholeNumbers (dropColorLayouts (flattenCalls
      (moveTextures d (hideBuiltins d cs))))) = _ :=
    Pattern.lines_replace FloatLoop.spelling.local FloatLoop.oneLine (by omega)
  have h₆ : lines (userText d cs) = _ :=
    Pattern.lines_replaceFirst (Entry.spelling d.isWord_entryPoint).local (Entry.oneLine d)
      (by omega)
  rw [h₆, h₅, h₄, h₃, h₂, h₁, adaptLines]
  simp only [List.map_map]
  rfl

/-! ## Lines of the program -/

/-- Laid out lines end in a break. -/
theorem exists_unlines_eq {ls : List String} (h : ls ≠ []) :
    ∃ a, a ++ ['\n'] = (unlines ls).toList := by
  induction ls with
  | nil => exact absurd rfl h
  | cons l ls ih =>
    cases ls with
    | nil => exact ⟨l.toList, by simp⟩
    | cons l' ls =>
      obtain ⟨a, ha⟩ := ih (List.cons_ne_nil _ _)
      refine ⟨l.toList ++ '\n' :: a, ?_⟩
      rw [unlines_cons, String.toList_append, String.toList_append, ← ha]
      simp

/-- The preamble ends in a break. -/
theorem exists_preamble_eq (d : Dialect) (textures : List String) :
    ∃ a, a ++ ['\n'] = (preamble d textures).toList :=
  exists_unlines_eq (List.append_ne_nil_of_right_ne_nil _ (List.cons_ne_nil _ _))

theorem Program.toList_text (d : Dialect) (source : String) :
    (Program.ofSource d source).text.toList =
      (preamble d (userTextures d source.toList)).toList ++
        (userText d source.toList ++ '\n' :: (driver d (mentionsMask d source)).toList) := by
  unfold Program.ofSource
  simp only [String.toList_append, String.toList_ofList, List.append_assoc]
  rfl

theorem Program.lineOffset_ofSource (d : Dialect) (source : String) :
    (Program.ofSource d source).lineOffset =
      newlines (preamble d (userTextures d source.toList)).toList := by
  simp only [Program.ofSource]

/-- The lines of a program: as many as its offset says, the adapted text, the driver. -/
theorem lines_text (d : Dialect) (source : String) :
    ∃ front : List (List Char), front.length = (Program.ofSource d source).lineOffset ∧
      lines (Program.ofSource d source).text.toList =
        front ++ (lines (userText d source.toList) ++
          lines (driver d (mentionsMask d source)).toList) := by
  obtain ⟨a, ha⟩ := exists_preamble_eq d (userTextures d source.toList)
  refine ⟨lines a, ?_, ?_⟩
  · rw [Program.lineOffset_ofSource, length_lines_of_append ha]
  · rw [Program.toList_text, lines_append ha, lines_append_newline]

/-- Every line of the shader, adapted, stands in the program at its own number plus the offset, and
the remapped number of that line is its own. -/
structure KeepsLines (d : Dialect) (source : String) : Prop where
  /-- No line is added or lost. -/
  newlines_eq : newlines (userText d source.toList) = newlines source.toList
  /-- Line `k + 1` of the shader, for every `k` below the number of its lines. -/
  line_at : ∀ k, k < (lines source.toList).length →
    ∃ l, (adaptLines d (lines source.toList))[k]? = some l ∧
      (lines (Program.ofSource d source).text.toList)[(Program.ofSource d source).lineOffset + k]? =
        some l ∧
      Diagnostic.userLine ((Program.ofSource d source).lineOffset + (k + 1))
        (Program.ofSource d source).lineOffset = k + 1

/-- A shader that loses no break keeps its lines. -/
theorem keepsLines_of_lostBreaks {d : Dialect} {source : String}
    (h : lostBreaks d source.toList = 0) : KeepsLines d source := by
  have hnewlines := newlines_userText d source.toList
  rw [h, Nat.add_zero] at hnewlines
  refine ⟨hnewlines, fun k hk => ?_⟩
  obtain ⟨front, hfront, htext⟩ := lines_text d source
  have hlt : k < (lines (userText d source.toList)).length := by
    rw [length_lines, hnewlines, ← length_lines]
    exact hk
  refine ⟨(lines (userText d source.toList))[k], ?_, ?_, ?_⟩
  · rw [← lines_userText h, List.getElem?_eq_getElem hlt]
  · rw [htext, ← hfront, List.getElem?_append_right (Nat.le_add_right ..), Nat.add_sub_cancel_left,
      List.getElem?_append_left hlt, List.getElem?_eq_getElem hlt]
  · rw [Diagnostic.userLine]
    omega

/-- The lines of a shader keep their numbers if and only if no construct that is replaced extends
over a break; each such break is one line fewer.  In any case the lines of the adapted text follow
the lines that the offset counts. -/
theorem userText_keeps_lines_iff (d : Dialect) (source : String) :
    (KeepsLines d source ↔ lostBreaks d source.toList = 0) ∧
      newlines (userText d source.toList) + lostBreaks d source.toList = newlines source.toList ∧
      (lines (Program.ofSource d source).text.toList).drop (Program.ofSource d source).lineOffset =
        lines (userText d source.toList) ++ lines (driver d (mentionsMask d source)).toList := by
  refine ⟨⟨fun h => ?_, keepsLines_of_lostBreaks⟩, newlines_userText d _, ?_⟩
  · have hlost := newlines_userText d source.toList
    have hkept := h.newlines_eq
    omega
  · obtain ⟨front, hfront, htext⟩ := lines_text d source
    rw [htext, ← hfront, List.drop_left]

/-- The break behind an annotation on a line of its own is lost. -/
theorem annotation_line_lost :
    userText .standard "layout(color)\nuniform vec4 c;".toList = "uniform vec4 c;".toList ∧
      ¬ KeepsLines .standard "layout(color)\nuniform vec4 c;" := by
  have htext : userText .standard "layout(color)\nuniform vec4 c;".toList =
      "uniform vec4 c;".toList := by
    decide +kernel
  refine ⟨htext, fun h => ?_⟩
  have hkept := h.newlines_eq
  rw [htext] at hkept
  exact absurd hkept (by decide)

end ShaderPreview
