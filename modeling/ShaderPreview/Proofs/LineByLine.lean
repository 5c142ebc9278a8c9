import Mathlib.Algebra.Ring.Nat
import ShaderPreview.Proofs.LineFidelity

/-!
# Passes that work line by line

Every pattern of a shader takes a line break wherever it takes a blank, so a pass may join lines.  It
does so only where it replaces something that extends over a break: the breaks that are missing
afterwards are those inside the replaced texts, one by one.  If there are none, the pass does not see
beyond the end of a line, and the shader could as well be cut into lines first.

* `Pattern.occurrences`, `Builtin.replaced`: the texts that a pass replaces;
* `LineByLine`: what a pass does to lines, in terms of the texts that it replaces;
* `Pattern.lineByLine_replace`: replacing the occurrences of a local pattern by texts on one line;
* `textureNames_of_lines`: the textures of a shader are collected from its lines;
* `passes_lineByLine`: this for the five passes that replace all they find.
-/

namespace ShaderPreview

open Text

/-! ## The replaced texts -/

section Occurrences

variable {α : Type}

/-- The text of an occurrence. -/
def Piece.occurrence? : Piece α → Option (List Char)
  | plain _ => none
  | found t _ => some t

/-- The texts of all occurrences, in the order of the text. -/
def Pattern.occurrences (p : Pattern α) (cs : List Char) : List (List Char) :=
  (p.segments cs).filterMap Piece.occurrence?

theorem Piece.breaks_eq (ps : List (Piece α)) :
    breaks ps = ((ps.filterMap occurrence?).map newlines).sum := by
  induction ps with
  | nil => rfl
  | cons q ps ih =>
    cases q with
    | plain c => rw [breaks, ih]; rfl
    | found t a => rw [breaks, ih]; rfl

theorem Pattern.breaks_eq (p : Pattern α) (cs : List Char) :
    p.breaks cs = ((p.occurrences cs).map newlines).sum :=
  Piece.breaks_eq _

end Occurrences

namespace Builtin

/-- The statements that are hidden for some built-ins, one after the other. -/
def replaced : List Builtin → List Char → List (List Char)
  | [], _ => []
  | b :: bs, cs => b.pattern.occurrences cs ++ replaced bs (b.hide cs)

theorem lostBreaks_eq (bs : List Builtin) (cs : List Char) :
    lostBreaks bs cs = ((replaced bs cs).map newlines).sum := by
  induction bs generalizing cs with
  | nil => rfl
  | cons b bs ih =>
    rw [lostBreaks, replaced, List.map_append, List.sum_append, ih, Pattern.breaks_eq]

end Builtin

/-- Texts without breaks have none all together. -/
theorem sum_newlines_eq_zero {ms : List (List Char)} (h : ∀ m ∈ ms, '\n' ∉ m) :
    (ms.map newlines).sum = 0 := by
  induction ms with
  | nil => rfl
  | cons m ms ih =>
    rw [List.forall_mem_cons] at h
    rw [List.map_cons, List.sum_cons, newlines_eq_zero.2 h.1, ih h.2]

/-! ## Passes -/

/-- What a pass over a text does to its lines, `replaced` being the texts that it replaces. -/
structure LineByLine (pass : List Char → List Char) (replaced : List Char → List (List Char)) :
    Prop where
  /-- The breaks that are missing afterwards are those inside the replaced texts. -/
  newlines_eq : ∀ cs, newlines (pass cs) + ((replaced cs).map newlines).sum = newlines cs
  /-- If these have no break, the pass is made on every line by itself. -/
  text_eq : ∀ cs, (∀ m ∈ replaced cs, '\n' ∉ m) →
    pass cs = ['\n'].intercalate ((lines cs).map pass)

/-- A pass works line by line, if its lost breaks are counted and its lines are passed lines where
there are none. -/
theorem LineByLine.of_lost {pass : List Char → List Char} {replaced : List Char → List (List Char)}
    {lost : List Char → Nat} (hlost : ∀ cs, lost cs = ((replaced cs).map newlines).sum)
    (hnewlines : ∀ cs, newlines (pass cs) + lost cs = newlines cs)
    (hlines : ∀ {cs}, lost cs = 0 → lines (pass cs) = (lines cs).map pass) :
    LineByLine pass replaced where
  newlines_eq cs := by
    rw [← hlost]
    exact hnewlines cs
  text_eq cs h := by
    have hzero : lost cs = 0 := by rw [hlost, sum_newlines_eq_zero h]
    rw [← hlines hzero]
    exact (List.intercalate_splitOn '\n').symm

/-- Replacing the occurrences of a local pattern by texts on one line works line by line. -/
theorem Pattern.lineByLine_replace {α : Type} {p : Pattern α} {put : α → List Char} (hp : p.Local)
    (hput : p.OneLine put) : LineByLine (p.replace put) p.occurrences :=
  .of_lost p.breaks_eq (newlines_replace hput) (lines_replace hp hput)

/-- Hiding some built-ins, one after the other, works line by line. -/
theorem Builtin.lineByLine_hide (bs : List Builtin) :
    LineByLine (fun cs => bs.foldl (fun cs b => b.hide cs) cs) (replaced bs) :=
  .of_lost (lostBreaks_eq bs) (newlines_foldl_hide bs) (lines_foldl_hide bs)

/-! ## Textures -/

section EraseDups

variable {a a' b b' : List String}

/-- Dropping names and dropping repetitions may be done in either order. -/
theorem eraseDups_filter (keep : String → Bool) : ∀ names : List String,
    (names.filter keep).eraseDups = names.eraseDups.filter keep
  | [] => rfl
  | n :: names => by
    rw [List.eraseDups_cons, List.filter_cons, List.filter_cons,
      ← eraseDups_filter keep (names.filter fun u => !u == n)]
    split
    · rw [List.eraseDups_cons, List.filter_filter, List.filter_filter]
      simp only [Bool.and_comm]
    · next hn =>
      -- the dropped name itself need not be looked for among the others
      rw [List.filter_filter]
      refine congrArg List.eraseDups (List.filter_congr fun u _ => ?_)
      by_cases hu : u = n
      · rw [hu, Bool.eq_false_iff.2 hn, Bool.false_and]
      · rw [beq_false_of_ne hu, Bool.not_false, Bool.and_true]
termination_by names => names.length
decreasing_by
  rw [List.length_cons]
  exact Nat.lt_succ_of_le (List.length_filter_le _ _)

/-- What is left of two lists without repetitions is left of them together. -/
theorem eraseDups_append_congr (ha : a.eraseDups = a'.eraseDups) (hb : b.eraseDups = b'.eraseDups) :
    (a ++ b).eraseDups = (a' ++ b').eraseDups := by
  have hmem (t : String) : a.elem t = a'.elem t := by
    rw [Bool.eq_iff_iff, List.elem_iff, List.elem_iff, ← List.mem_eraseDups, ha, List.mem_eraseDups]
  rw [List.eraseDups_append, List.eraseDups_append, List.removeAll, List.removeAll,
    eraseDups_filter, eraseDups_filter, ha, hb]
  simp only [hmem]

/-- A list without its repetitions has none. -/
theorem eraseDups_eraseDups : ∀ names : List String, names.eraseDups.eraseDups = names.eraseDups
  | [] => rfl
  | n :: names => by
    have hkeep : ((names.filter fun u => !u == n).eraseDups).filter (fun u => !u == n) =
        (names.filter fun u => !u == n).eraseDups := by
      rw [← eraseDups_filter, List.filter_filter]
      simp only [Bool.and_self]
    rw [List.eraseDups_cons, List.eraseDups_cons, hkeep, eraseDups_eraseDups]
termination_by names => names.length
decreasing_by
  rw [List.length_cons]
  exact Nat.lt_succ_of_le (List.length_filter_le _ _)

end EraseDups

/-- If no declaration of a texture extends over a break, the textures are those of the lines. -/
theorem textureNames_of_lines (d : Dialect) {cs : List Char}
    (h : ∀ m ∈ Texture.pattern.occurrences cs, '\n' ∉ m) :
    textureNames d cs = ((lines cs).flatMap (textureNames d)).eraseDups := by
  have hbreaks : Texture.pattern.breaks cs = 0 := by rw [Pattern.breaks_eq, sum_newlines_eq_zero h]
  clear h
  induction cs using line_induction with
  | last l hl =>
    rw [lines_of_not_mem hl, List.flatMap_singleton, textureNames, eraseDups_eraseDups]
  | step l tail hl ih =>
    have htail := ih (Pattern.breaks_line Texture.spelling.local hbreaks)
    rw [lines_append_newline, lines_of_not_mem hl, List.singleton_append, List.flatMap_cons,
      textureNames, Pattern.values_line Texture.spelling.local hbreaks, List.map_append,
      List.filter_append]
    exact eraseDups_append_congr (eraseDups_eraseDups _).symm htail

/-! ## The five passes -/

/-- The five passes that replace all they find lose the breaks inside the texts that they replace and
no others; a pass that replaces no text with a break is made line by line.  The textures that are moved
are then those of the lines, each where it first occurs. -/
theorem passes_lineByLine (d : Dialect) :
    LineByLine (hideBuiltins d) (Builtin.replaced (Builtin.ofDialect d)) ∧
      LineByLine (moveTextures d) Texture.pattern.occurrences ∧
      LineByLine flattenCalls EvalCall.pattern.occurrences ∧
      LineByLine dropColorLayouts ColorLayout.pattern.occurrences ∧
      LineByLine countInWholeNumbers FloatLoop.pattern.occurrences ∧
      ∀ cs, (∀ m ∈ Texture.pattern.occurrences cs, '\n' ∉ m) →
        textureNames d cs = ((lines cs).flatMap (textureNames d)).eraseDups :=
  ⟨Builtin.lineByLine_hide _,
    Pattern.lineByLine_replace Texture.spelling.local (Texture.oneLine d),
    Pattern.lineByLine_replace EvalCall.spelling.local EvalCall.oneLine,
    Pattern.lineByLine_replace ColorLayout.local ColorLayout.oneLine,
    Pattern.lineByLine_replace FloatLoop.spelling.local FloatLoop.oneLine,
    fun _ h => textureNames_of_lines d h⟩

/-- Of a texture that two lines declare, the name is moved once and both declarations are. -/
theorem passes_lineByLine_of_repeated_texture :
    (∀ m ∈ Texture.pattern.occurrences
        "uniform shader b; \nuniform shader a; uniform shader b;".toList, '\n' ∉ m) ∧
      ((lines "uniform shader b; \nuniform shader a; uniform shader b;".toList).flatMap
        (textureNames .standard)).eraseDups = ["b", "a"] ∧
      textureNames .standard "uniform shader b; \nuniform shader a; uniform shader b;".toList =
        ["b", "a"] ∧
      moveTextures .standard "uniform shader b; \nuniform shader a; uniform shader b;".toList =
        ['\n'].intercalate [moveTextures .standard "uniform shader b; ".toList,
          moveTextures .standard "uniform shader a; uniform shader b;".toList] := by
  have hreplaced : ∀ m ∈ Texture.pattern.occurrences
      "uniform shader b; \nuniform shader a; uniform shader b;".toList, '\n' ∉ m := by
    decide +kernel
  have hnames : ((lines "uniform shader b; \nuniform shader a; uniform shader b;".toList).flatMap
      (textureNames .standard)).eraseDups = ["b", "a"] := by
    decide +kernel
  obtain ⟨-, hmove, -, -, -, htextures⟩ := passes_lineByLine .standard
  exact ⟨hreplaced, hnames, (htextures _ hreplaced).trans hnames, hmove.text_eq _ hreplaced⟩

end ShaderPreview
