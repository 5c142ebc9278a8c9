import ShaderPreview.Text.Blank
import ShaderPreview.Text.Lines

/-!
# Lines of composed texts

A line break is the only place at which lines are cut, so the lines of `a`, a break and `b` are those
of `a` followed by those of `b` (`lines_append_newline`).  The rest follows from this equation:

* `line_induction`: a text is built from its last line by putting lines in front;
* `length_lines`: there is one line more than there are breaks;
* `lines_append`, `dropLines_append`: in front of a text that ends in a break, nothing is shared
  between the lines of the two sides;
* `infix_of_mem_lines`, `trim_isInfix`: a line, trimmed or not, is a part of the text;
* `lines_unlines`: the lines that were laid out.
-/

namespace ShaderPreview
namespace Text

variable {a b cs : List Char}

theorem newlines_eq_zero : newlines cs = 0 ↔ '\n' ∉ cs :=
  List.count_eq_zero

@[simp] theorem newlines_newline_cons : newlines ('\n' :: cs) = newlines cs + 1 := by
  simp [newlines]

theorem newlines_cons (c : Char) (cs : List Char) :
    newlines (c :: cs) = newlines [c] + newlines cs :=
  newlines_append [c] cs

/-- A break cuts the lines. -/
theorem lines_append_newline (a b : List Char) : lines (a ++ '\n' :: b) = lines a ++ lines b :=
  List.splitOn_append_cons_self a b

/-- A text without breaks is one line. -/
theorem lines_of_not_mem (h : '\n' ∉ cs) : lines cs = [cs] :=
  List.splitOn_eq_singleton h

/-- What holds of every single line, and is kept when a line is put in front, holds of every text. -/
theorem line_induction {P : List Char → Prop} (cs : List Char) (last : ∀ l, '\n' ∉ l → P l)
    (step : ∀ l tail, '\n' ∉ l → P tail → P (l ++ '\n' :: tail)) : P cs := by
  induction hn : cs.length using Nat.strongRecOn generalizing cs with
  | ind n ih =>
    by_cases h : '\n' ∈ cs
    · obtain ⟨l, tail, rfl, hl⟩ := List.eq_append_cons_of_mem h
      refine step l tail hl (ih tail.length ?_ tail rfl)
      rw [List.length_append, List.length_cons] at hn
      omega
    · exact last cs h

theorem length_lines (cs : List Char) : (lines cs).length = newlines cs + 1 := by
  induction cs using line_induction with
  | last l hl => rw [lines_of_not_mem hl, newlines_eq_zero.2 hl, List.length_singleton]
  | step l tail hl ih =>
    rw [lines_append_newline, lines_of_not_mem hl, List.length_append, List.length_singleton, ih,
      newlines_append, newlines_newline_cons, newlines_eq_zero.2 hl]
    omega

/-- The lines in front of a text that starts on a line of its own. -/
theorem lines_append (h : a ++ ['\n'] = cs) (b : List Char) : lines (cs ++ b) = lines a ++ lines b := by
  rw [← h, List.append_assoc]
  exact lines_append_newline a b

theorem length_lines_of_append (h : a ++ ['\n'] = cs) : (lines a).length = newlines cs := by
  rw [← h, length_lines, newlines_append]
  rfl

/-- Dropping as many lines as a text has breaks leaves what follows its last break. -/
theorem dropLines_append (h : a ++ ['\n'] = cs) (b : List Char) :
    dropLines (newlines cs) (cs ++ b) = b := by
  rw [dropLines, lines_append h, ← length_lines_of_append h, List.drop_left]
  exact List.intercalate_splitOn '\n'

/-- A line is a part of the text. -/
theorem infix_of_mem_lines {l : List Char} (h : l ∈ lines cs) : l <:+: cs := by
  induction cs using line_induction with
  | last l' hl' =>
    rw [lines_of_not_mem hl', List.mem_singleton] at h
    exact h ▸ List.infix_rfl
  | step l' tail hl' ih =>
    rw [lines_append_newline, lines_of_not_mem hl', List.singleton_append, List.mem_cons] at h
    rcases h with rfl | h
    · exact (List.prefix_append ..).isInfix
    · exact List.infix_append_of_infix_right (List.infix_cons (ih h))

/-- A trimmed text is a part of the text. -/
theorem trim_isInfix (cs : List Char) : trim cs <:+: cs := by
  have hprefix : trim cs <+: cs.dropWhile isBlank := by
    rw [trim, ← List.reverse_suffix, List.reverse_reverse]
    exact List.dropWhile_suffix _
  exact hprefix.isInfix.trans (List.dropWhile_suffix _).isInfix

/-- Laid out lines are laid out one list after the other. -/
theorem unlines_append (a b : List String) : unlines (a ++ b) = unlines a ++ unlines b := by
  induction a with
  | nil => rw [List.nil_append, unlines_nil, String.empty_append]
  | cons l a ih => rw [List.cons_append, unlines_cons, unlines_cons, ih, ← String.append_assoc]

/-- Lines that were laid out are the lines in front of what follows. -/
theorem lines_unlines {ls : List String} (h : ∀ l ∈ ls, '\n' ∉ l.toList) (b : List Char) :
    lines ((unlines ls).toList ++ b) = ls.map String.toList ++ lines b := by
  induction ls with
  | nil => simp
  | cons l ls ih =>
    have hl := h l (List.mem_cons_self ..)
    have hsplit : (unlines (l :: ls)).toList ++ b = l.toList ++ '\n' :: ((unlines ls).toList ++ b) := by
      simp
    rw [hsplit, lines_append_newline, lines_of_not_mem hl,
      ih fun l' hl' => h l' (List.mem_cons_of_mem _ hl'), List.map_cons, List.singleton_append,
      List.cons_append]

theorem newlines_unlines {ls : List String} (h : ∀ l ∈ ls, '\n' ∉ l.toList) :
    newlines (unlines ls).toList = ls.length := by
  have hlength := congrArg List.length (lines_unlines h [])
  rw [List.append_nil, length_lines, List.length_append, List.length_map, length_lines,
    newlines_nil] at hlength
  omega

end Text
end ShaderPreview
