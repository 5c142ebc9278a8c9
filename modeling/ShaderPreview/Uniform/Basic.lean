import ShaderPreview.Adapt.ColorLayouts
import ShaderPreview.Control.Kind
import ShaderPreview.Dialect.Basic
import ShaderPreview.Text.Lines
import ShaderPreview.Uniform.Statement

/-!
# Uniforms of a shader

A shader is read line by line.  A line that is not a comment declares at most one uniform: the first
statement on it with a known type.  A colour annotation anywhere on the line belongs to it.  Reserved
names, and names that were declared before, are skipped.

* `Uniform`: a uniform of the shader;
* `Uniform.ofLine?`: what a line declares;
* `Finding`, `Finding.ofSource`: what becomes of each declaring line;
* `Uniform.ofSource`: the uniforms of a shader.
-/

namespace ShaderPreview

/-- A uniform that a shader declares. -/
structure Uniform where
  name : String
  /-- The type as it is written. -/
  type : String
  /-- Whether the line has a colour annotation. -/
  annotated : Bool := false
  deriving DecidableEq, Repr

namespace Uniform

/-- The kind of control the uniform has. -/
def kind (u : Uniform) : ControlKind :=
  ControlKind.ofDeclared u.type u.annotated

/-- The types a uniform may be declared with. -/
def types : List String :=
  ["float", "half", "int", "bool", "vec2", "half2", "vec3", "half3", "vec4", "half4",
   "shader", "sampler2D"]

/-- The statements that declare a uniform. -/
def pattern : Pattern Statement :=
  Statement.pattern.filter fun s => types.contains s.type && s.name != ""

/-- Whether a line is a comment; comments that go over several lines are not recognised. -/
def isComment (line : List Char) : Bool :=
  (Read.literal? "//" line).isSome

/-- What a line declares. -/
def ofLine? (line : List Char) : Option Uniform :=
  let line := Text.trim line
  if isComment line then none
  else (pattern.first? line).map fun s =>
    { name := s.name, type := s.type, annotated := ColorLayout.pattern.occursIn line }

end Uniform

/-- What becomes of a line that declares a uniform. -/
inductive Finding where
  | declared (u : Uniform)
  | skipped (name : String)
  deriving DecidableEq, Repr

namespace Finding

/-- The uniform, if the line was not skipped. -/
def uniform? : Finding → Option Uniform
  | declared u => some u
  | skipped _ => none

/-- The name that was skipped. -/
def skipped? : Finding → Option String
  | declared _ => none
  | skipped name => some name

/-- Skips the reserved names and those already seen. -/
def sift (reserved : List String) : List String → List Uniform → List Finding
  | _, [] => []
  | seen, u :: us =>
    if u.name ∈ reserved ∨ u.name ∈ seen then skipped u.name :: sift reserved seen us
    else declared u :: sift reserved (u.name :: seen) us

/-- What becomes of each declaring line of a shader. -/
def ofSource (d : Dialect) (source : String) : List Finding :=
  sift d.reserved [] ((Text.lines source.toList).filterMap Uniform.ofLine?)

end Finding

/-- The uniforms of a shader, in the order in which they first occur. -/
def Uniform.ofSource (d : Dialect) (source : String) : List Uniform :=
  (Finding.ofSource d source).filterMap Finding.uniform?

end ShaderPreview
