import ShaderPreview.Dialect.Basic
import ShaderPreview.Uniform.Statement

/-!
# Hiding redeclared built-ins

A generated program declares the built-in uniforms itself.  Where the shader declares one of them
too, the statement gives way to a comment that keeps its name.

* `Builtin`: some types and the names that are built in at these types;
* `Builtin.ofDialect`: the five of a dialect, in the order in which they are hidden;
* `hideBuiltins`: the text with all of them hidden.
-/

namespace ShaderPreview

/-- Names that are built in, and the types at which a shader may declare them again. -/
structure Builtin where
  types : List String
  names : List String

namespace Builtin

/-- The statements that declare the built-in again. -/
def pattern (b : Builtin) : Pattern Statement :=
  Statement.pattern.filter fun s => b.types.contains s.type && b.names.contains s.name

/-- The comment that stands for a hidden statement. -/
def comment (s : Statement) : List Char :=
  "// ".toList ++ s.name.toList ++ " removed".toList

/-- The text with every redeclaration of the built-in hidden. -/
def hide (b : Builtin) (cs : List Char) : List Char :=
  b.pattern.replace comment cs

/-- The aliases of the resolution, the resolution, the time, the mouse and the mask.  Without any
alias, the statement with no name at all takes their place. -/
def ofDialect (d : Dialect) : List Builtin :=
  [⟨["vec2", "float2"], if d.resolutionAliases.isEmpty then [""] else d.resolutionAliases⟩,
   ⟨["vec2", "float2"], [d.resolution]⟩,
   ⟨["float"], [d.time]⟩,
   ⟨["vec2", "float2", "vec4", "float4"], [d.mouse]⟩,
   ⟨["sampler2D"], [d.mask]⟩]

end Builtin

/-- The text with every redeclaration of a built-in uniform hidden. -/
def hideBuiltins (d : Dialect) (cs : List Char) : List Char :=
  (Builtin.ofDialect d).foldl (fun cs b => b.hide cs) cs

end ShaderPreview
