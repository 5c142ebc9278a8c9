import ShaderPreview.Program.Driver
import ShaderPreview.Adapt.Stages
import ShaderPreview.Warning

/-!
# Generated programs

A generated program is the preamble, the shader's adapted text and the driver.  The number of lines
of the preamble is kept with it: compiler messages count them, users do not.

* `Program`: a generated program;
* `Program.ofSource`: the program that a dialect makes of a shader.
-/

namespace ShaderPreview

/-- A program generated from a shader. -/
structure Program where
  /-- The whole text of the program. -/
  text : String
  /-- The number of lines in front of the shader's text. -/
  lineOffset : Nat
  /-- The advisories about the shader. -/
  warnings : List Warning
  /-- The textures that the preamble declares for the shader. -/
  textures : List String
  /-- Whether the shader mentions the mask and so has to apply it itself. -/
  masksItself : Bool
  deriving DecidableEq

/-- Whether the text holds the characters `w` one after the other. -/
def mentions (w : List Char) : List Char → Bool
  | [] => w.isEmpty
  | c :: cs => w.isPrefixOf (c :: cs) || mentions w cs

/-- Whether the shader mentions the mask anywhere, be it in a comment. -/
def mentionsMask (d : Dialect) (source : String) : Bool :=
  mentions d.mask.toList source.toList

/-- Characters are mentioned when they are a contiguous part of the text. -/
theorem mentions_iff {w cs : List Char} : mentions w cs = true ↔ w <:+: cs := by
  induction cs with
  | nil => simp [mentions]
  | cons c cs ih =>
    rw [mentions, Bool.or_eq_true, ih, List.isPrefixOf_iff_prefix, List.infix_cons_iff]

/-- The program that a dialect makes of a shader. -/
def Program.ofSource (d : Dialect) (source : String) : Program :=
  let textures := userTextures d source.toList
  let masksItself := mentionsMask d source
  let head := preamble d textures
  { text := head ++ String.ofList (userText d source.toList) ++ "\n" ++ driver d masksItself
    lineOffset := Text.newlines head.toList
    warnings := Warning.ofSource source.toList
    textures
    masksItself }

end ShaderPreview
