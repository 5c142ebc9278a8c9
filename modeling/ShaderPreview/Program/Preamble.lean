import ShaderPreview.Dialect.Basic
import ShaderPreview.Text.Lines

/-!
# The preamble

The code in front of the shader's text declares what an AGSL runtime provides implicitly: the
built-in uniforms, the spellings of types and variables, helper functions, and the textures with a
function each that samples them in pixels.

* `Preamble.sampling`: the function that samples a texture;
* `Preamble.lines`, `preamble`: the preamble for some textures.
-/

namespace ShaderPreview
namespace Preamble

/-- One step of indentation. -/
def indent : String := "    "

/-- A definition that lets one spelling stand for another. -/
def spell (spelling meaning : String) : String :=
  "#define " ++ spelling ++ " " ++ meaning

/-- The declaration of a uniform. -/
def uniform (type name : String) : String :=
  "uniform " ++ type ++ " " ++ name ++ ";"

/-- The functions that every shader may use. -/
def standardFunctions : List String :=
  ["#define saturate(x) clamp(x, 0.0, 1.0)",
   "",
   "vec3 toLinearSrgb(vec3 color) \x7b return pow(color, vec3(2.2)); \x7d",
   "vec3 fromLinearSrgb(vec3 color) \x7b return pow(color, vec3(1.0 / 2.2)); \x7d"]

/-- The function that samples the texture `name` at a point given in pixels. -/
def sampling (d : Dialect) (name : String) : List String :=
  ["vec4 " ++ name ++ "_eval(vec2 p) \x7b",
   indent ++ "return texture2D(" ++ name ++ ", p / " ++ d.resolution ++ ".xy);",
   "\x7d"]

/-- The declarations of the textures, followed by their sampling functions. -/
def textureLines (d : Dialect) (textures : List String) : List String :=
  if textures.isEmpty then []
  else "" :: textures.map (uniform "sampler2D") ++ textures.flatMap fun name => "" :: sampling d name

/-- The lines of the preamble. -/
def lines (d : Dialect) (textures : List String) : List String :=
  "precision mediump float;" :: d.builtins.map (fun b => uniform b.1 b.2) ++
  "" :: d.typeAliases.map (fun a => spell a.1 a.2) ++ d.builtinAliases.map (fun a => spell a.1 a.2) ++
  "" :: d.resolutionAliases.map (fun a => spell a d.resolution) ++
  "" :: standardFunctions ++ textureLines d textures ++ [""]

end Preamble

/-- The code in front of the shader's text. -/
def preamble (d : Dialect) (textures : List String) : String :=
  Text.unlines (Preamble.lines d textures)

end ShaderPreview
