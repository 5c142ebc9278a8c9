import ShaderPreview.Decimal.Double
import ShaderPreview.Text.Word

/-!
# Dialects

A dialect says which names a preview provides on its own (resolution, time, mouse, shape mask), how
the shader's entry function is called and renamed, and which AGSL spellings stand for which GLSL
ones.  The names are pasted into generated code and compared with words of the shader, so a dialect
carries the proof that they are identifiers.

* `Vocabulary`: the names and spellings, not yet checked;
* `Threshold`: a number from zero to one;
* `Dialect`: a checked vocabulary with the mask's threshold;
* `Dialect.standard`: the dialect that the commands use.
-/

namespace ShaderPreview

/-- The names a preview provides and the spellings it bridges. -/
structure Vocabulary where
  /-- The uniform that holds the size of the picture. -/
  resolution : String := "iResolution"
  /-- Other spellings of the resolution. -/
  resolutionAliases : List String := ["resolution", "uResolution"]
  /-- The uniform that holds the elapsed time. -/
  time : String := "iTime"
  /-- The uniform that holds the state of the mouse. -/
  mouse : String := "iMouse"
  /-- The texture that holds the shape mask. -/
  mask : String := "uShapeMask"
  /-- The shader's entry function. -/
  entryPoint : String := "main"
  /-- What the entry function is renamed to. -/
  userEntry : String := "userMain"
  /-- AGSL type names, each with its GLSL spelling. -/
  typeAliases : List (String × String) :=
    [("half", "float"), ("half2", "vec2"), ("half3", "vec3"), ("half4", "vec4"),
     ("float2", "vec2"), ("float3", "vec3"), ("float4", "vec4")]
  /-- AGSL built-in variables, each with its GLSL spelling. -/
  builtinAliases : List (String × String) := [("sk_FragCoord", "gl_FragCoord")]

namespace Vocabulary

/-- The names that have to be identifiers, in the order in which they are checked. -/
def names (v : Vocabulary) : List String :=
  v.resolution :: v.resolutionAliases ++ [v.time, v.mouse, v.mask, v.entryPoint, v.userEntry]

/-- The names that are never reported as uniforms of the shader. -/
def reserved (v : Vocabulary) : List String :=
  v.resolution :: v.resolutionAliases ++ [v.time, v.mask]

/-- The uniforms that every generated program declares, as pairs of a GLSL type and a name. -/
def builtins (v : Vocabulary) : List (String × String) :=
  [("vec2", v.resolution), ("float", v.time), ("vec4", v.mouse), ("sampler2D", v.mask)]

end Vocabulary

/-- A number as it is configured: whole or a double. -/
inductive Number where
  | whole (n : Int)
  | double (x : Float)

namespace Number

/-- The number lies between zero and one, both included. -/
def InUnit : Number → Prop
  | whole n => 0 ≤ n ∧ n ≤ 1
  | double x => 0.0 ≤ x ∧ x ≤ 1.0

instance : (n : Number) → Decidable n.InUnit
  | whole n => inferInstanceAs (Decidable (0 ≤ n ∧ n ≤ 1))
  | double x => inferInstanceAs (Decidable (0.0 ≤ x ∧ x ≤ 1.0))

/-- The number as a double. -/
def toFloat : Number → Float
  | whole n => Float.ofInt n
  | double x => x

end Number

/-- The opacity of the mask below which a fragment is discarded. -/
structure Threshold where
  number : Number
  inUnit : number.InUnit

/-- The threshold as a literal of generated code. -/
def Threshold.literal (t : Threshold) : String :=
  Double.text t.number.toFloat

/-- A vocabulary whose names can be used in patterns and in generated code. -/
structure Dialect extends Vocabulary where
  threshold : Threshold
  /-- Every name is an identifier. -/
  identifiers : ∀ name ∈ toVocabulary.names, Text.isIdentifier name = true
  /-- The entry function is renamed to something else. -/
  userEntry_ne : userEntry ≠ entryPoint
  /-- The resolution is no alias of itself. -/
  resolution_not_alias : resolution ∉ resolutionAliases

/-- The dialect with all defaults. -/
def Dialect.standard : Dialect where
  threshold := ⟨.double 0.1, by decide⟩
  identifiers := by decide
  userEntry_ne := by decide
  resolution_not_alias := by decide

end ShaderPreview
