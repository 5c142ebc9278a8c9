import Mathlib.Algebra.BigOperators.Group.List.Basic
import Mathlib.Algebra.Ring.Nat
import Mathlib.Data.List.Infix
import ShaderPreview.Proofs.LineFidelity

/-!
# The size of the preamble

The number of lines in front of the shader's text is counted in the text of the preamble.  So it is
right even if a line of the preamble is several lines: the spellings that a dialect bridges and the
names of textures may be any texts, and may have breaks in them.  Where each line of the preamble comes
from is known, and so is the number of breaks.

* `Text.height`: the number of breaks of laid out lines;
* `Preamble.size`: the number of breaks of a preamble, from the dialect and the textures;
* `newlines_preamble`: the preamble has as many;
* `preamble_size_and_placement`: this is the offset of every program, and the adapted text and the
  driver stand behind it.
-/

namespace ShaderPreview

open Text

/-! ## Laid out lines -/

namespace Text

/-- The breaks of lines one below the other: one behind each line, and those inside the lines. -/
def height (ls : List String) : Nat :=
  (ls.map fun l => 1 + newlines l.toList).sum

variable {l : String} {ls ls' : List String}

@[simp] theorem height_nil : height [] = 0 := rfl

@[simp] theorem height_cons : height (l :: ls) = 1 + newlines l.toList + height ls := by
  rw [height, List.map_cons, List.sum_cons, height]

@[simp] theorem height_append : height (ls ++ ls') = height ls + height ls' := by
  rw [height, List.map_append, List.sum_append, height, height]

theorem newlines_unlines_eq_height (ls : List String) : newlines (unlines ls).toList = height ls := by
  induction ls with
  | nil => rfl
  | cons l ls ih =>
    have hbreak : newlines "\n".toList = 1 := by decide
    rw [unlines_cons, String.toList_append, String.toList_append, newlines_append, newlines_append,
      hbreak, ih, height_cons]
    omega

theorem height_map {α : Type} (f : α → String) (as : List α) :
    height (as.map f) = (as.map fun a => 1 + newlines (f a).toList).sum := by
  rw [height, List.map_map]
  rfl

theorem height_flatMap {α : Type} (f : α → List String) (as : List α) :
    height (as.flatMap f) = (as.map fun a => height (f a)).sum := by
  induction as with
  | nil => rfl
  | cons a as ih => rw [List.flatMap_cons, height_append, ih, List.map_cons, List.sum_cons]

/-- An identifier has no break. -/
theorem newlines_identifier {name : String} (h : isIdentifier name = true) :
    newlines name.toList = 0 :=
  newlines_eq_zero.2 (newline_not_mem_of_word fun _ => isWordChar_of_mem_identifier h)

end Text

/-! ## The lines of a preamble -/

namespace Preamble

/-- The breaks of a preamble.  Thirteen lines are always there; each spelling of the resolution, of a
type and of a built-in variable adds its line, and each texture five, of which three have its name. -/
def size (d : Dialect) (textures : List String) : Nat :=
  13 + d.resolutionAliases.length +
    ((d.typeAliases ++ d.builtinAliases).map fun a =>
      1 + newlines a.1.toList + newlines a.2.toList).sum +
    if textures = [] then 0 else 1 + (textures.map fun name => 5 + 3 * newlines name.toList).sum

theorem newlines_spell (spelling meaning : String) :
    newlines (spell spelling meaning).toList =
      newlines spelling.toList + newlines meaning.toList := by
  have hdefine : newlines "#define ".toList = 0 := by decide
  have hspace : newlines " ".toList = 0 := by decide
  simp only [spell, String.toList_append, newlines_append, hdefine, hspace]
  omega

theorem newlines_uniform (type name : String) :
    newlines (uniform type name).toList = newlines type.toList + newlines name.toList := by
  have huniform : newlines "uniform ".toList = 0 := by decide
  have hspace : newlines " ".toList = 0 := by decide
  have hend : newlines ";".toList = 0 := by decide
  simp only [uniform, String.toList_append, newlines_append, huniform, hspace, hend]
  omega

/-- The names of a dialect stay on one line. -/
theorem newlines_name (d : Dialect) {name : String} (h : name ∈ d.names) :
    newlines name.toList = 0 :=
  newlines_identifier (d.identifiers name h)

theorem newlines_resolution (d : Dialect) : newlines d.resolution.toList = 0 :=
  newlines_name d (by simp [Vocabulary.names])

theorem height_spellings (as : List (String × String)) :
    height (as.map fun a => spell a.1 a.2) =
      (as.map fun a => 1 + newlines a.1.toList + newlines a.2.toList).sum := by
  simp only [height_map, newlines_spell, Nat.add_assoc]

theorem height_aliases (d : Dialect) :
    height (d.resolutionAliases.map fun a => spell a d.resolution) = d.resolutionAliases.length := by
  have hone : ∀ a ∈ d.resolutionAliases, 1 + newlines (spell a d.resolution).toList = 1 := by
    intro a ha
    rw [newlines_spell, newlines_resolution, newlines_name d (by simp [Vocabulary.names, ha])]
  rw [height_map, List.map_congr_left hone, List.map_const', List.sum_replicate_nat, Nat.mul_one]

theorem height_builtins (d : Dialect) :
    height (d.builtins.map fun b => uniform b.1 b.2) = 4 := by
  have htime : newlines d.time.toList = 0 := newlines_name d (by simp [Vocabulary.names])
  have hmouse : newlines d.mouse.toList = 0 := newlines_name d (by simp [Vocabulary.names])
  have hmask : newlines d.mask.toList = 0 := newlines_name d (by simp [Vocabulary.names])
  have htypes : ∀ type ∈ ["vec2", "float", "vec4", "sampler2D"], newlines type.toList = 0 := by decide
  simp only [Vocabulary.builtins, List.map_cons, List.map_nil, height_cons, height_nil,
    newlines_uniform, newlines_resolution, htime, hmouse, hmask, htypes, List.mem_cons, true_or, or_true]

theorem height_sampling (d : Dialect) (name : String) :
    height (sampling d name) = 3 + 2 * newlines name.toList := by
  have htexts : ∀ t ∈ ["vec4 ", "_eval(vec2 p) \x7b", indent, "return texture2D(", ", p / ", ".xy);",
      "\x7d"], newlines t.toList = 0 := by
    decide
  simp only [sampling, height_cons, height_nil, String.toList_append, newlines_append,
    newlines_resolution, htexts, List.mem_cons, true_or, or_true]
  omega

theorem height_textureLines (d : Dialect) (textures : List String) :
    height (textureLines d textures) =
      if textures = [] then 0
      else 1 + (textures.map fun name => 5 + 3 * newlines name.toList).sum := by
  have hempty : newlines "".toList = 0 := by decide
  have hsampler : newlines "sampler2D".toList = 0 := by decide
  have heach : ∀ name ∈ textures, 5 + 3 * newlines name.toList =
      (1 + newlines (uniform "sampler2D" name).toList) + height ("" :: sampling d name) := by
    intro name _
    rw [newlines_uniform, height_cons, height_sampling, hempty, hsampler]
    omega
  simp only [textureLines, List.isEmpty_iff]
  split
  · rfl
  · rw [height_append, height_cons, height_map, height_flatMap, List.map_congr_left heach, hempty,
      Nat.add_zero, Nat.add_assoc, ← List.sum_map_add]

/-- The breaks of a preamble are those of its lines. -/
theorem newlines_preamble (d : Dialect) (textures : List String) :
    newlines (preamble d textures).toList = size d textures := by
  have hempty : newlines "".toList = 0 := by decide
  have hprecision : newlines "precision mediump float;".toList = 0 := by decide
  have hfunctions : height standardFunctions = 4 := by decide +kernel
  rw [preamble, newlines_unlines_eq_height, lines, size, List.map_append, List.sum_append]
  simp only [List.cons_append, height_cons, height_append, height_nil, height_builtins,
    height_spellings, height_aliases, height_textureLines, hempty, hprecision, hfunctions]
  omega

end Preamble

/-- The number of breaks of a preamble depends on the dialect and on the textures as `Preamble.size`
says, be there breaks in spellings and names or not.  It is the offset of every program, for its own
textures, and behind as many lines stand the adapted text, a break and the driver, which leaves out the
mask if the shader mentions it. -/
theorem preamble_size_and_placement (d : Dialect) :
    (∀ textures, newlines (preamble d textures).toList = Preamble.size d textures) ∧
      ∀ source, (Program.ofSource d source).lineOffset =
          Preamble.size d (Program.ofSource d source).textures ∧
        (lines (Program.ofSource d source).text.toList).drop (Program.ofSource d source).lineOffset =
          lines (userText d source.toList ++
            '\n' :: (driver d (decide (d.mask.toList <:+: source.toList))).toList) := by
  refine ⟨Preamble.newlines_preamble d, fun source => ⟨?_, ?_⟩⟩
  · rw [Program.lineOffset_ofSource, Preamble.newlines_preamble]
    rfl
  · have hmask : mentionsMask d source = decide (d.mask.toList <:+: source.toList) := by
      rw [Bool.eq_iff_iff, mentionsMask, mentions_iff, decide_eq_true_iff]
    obtain ⟨front, hfront, htext⟩ := lines_text d source
    rw [htext, ← hfront, List.drop_left, lines_append_newline, hmask]

-- a break in the name of a texture is counted in its declaration and twice in its function
example : Preamble.size .standard [] = 23 ∧ Preamble.size .standard ["a", "b\nc"] = 37 := by
  decide

end ShaderPreview
