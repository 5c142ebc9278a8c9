import ShaderPreview.Program.Preamble

/-!
# The driver

The code behind the shader's text is the program's own `main`.  It turns the vertical axis round and
calls the shader's entry function.  A shader that does not look at the mask itself is masked here:
fragments outside the shape are discarded and the alpha is scaled by the mask.

* `Driver.lines`, `driver`: the driver, with or without the masking.
-/

namespace ShaderPreview
namespace Driver

open Preamble (indent)

/-- Discards the fragments at which the mask is below the threshold. -/
def discardOutside (d : Dialect) : List String :=
  [indent ++ "if (maskAlpha < " ++ d.threshold.literal ++ ") \x7b",
   indent ++ indent ++ "discard;",
   indent ++ "\x7d"]

/-- The lines of the driver. -/
def lines (d : Dialect) (masksItself : Bool) : List String :=
  ["void main() \x7b",
   indent ++ "vec2 deviceCoord = gl_FragCoord.xy;",
   indent ++ "deviceCoord.y = " ++ d.resolution ++ ".y - gl_FragCoord.y;",
   indent ++ "vec2 uv = deviceCoord / " ++ d.resolution ++ ".xy;",
   indent ++ "float maskAlpha = texture2D(" ++ d.mask ++ ", uv).r;"] ++
  (if masksItself then [] else discardOutside d) ++
  [indent ++ "gl_FragColor = " ++ d.userEntry ++ "(deviceCoord);"] ++
  (if masksItself then [] else [indent ++ "gl_FragColor.a *= maskAlpha;"]) ++
  ["\x7d"]

end Driver

/-- The code behind the shader's text. -/
def driver (d : Dialect) (masksItself : Bool) : String :=
  Text.unlines (Driver.lines d masksItself)

end ShaderPreview
