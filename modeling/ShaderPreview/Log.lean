import ShaderPreview.Program.Basic
import ShaderPreview.Uniform.Basic

/-!
# Log records

What is worth telling while a shader is read and a program generated, as records with a level.

* `Level`, `Record`: log records;
* `Finding.records`: the declarations that were skipped;
* `Program.records`: how a program was generated;
* `Program.advice`: the advisories about its shader.
-/

namespace ShaderPreview

/-- How important a record is. -/
inductive Level where
  | debug
  | info
  | warning
  | error
  deriving DecidableEq, Repr

/-- The name of a level. -/
def Level.name : Level → String
  | debug => "DEBUG"
  | info => "INFO"
  | warning => "WARNING"
  | error => "ERROR"

/-- A message with its level. -/
structure Record where
  level : Level
  message : String
  deriving DecidableEq, Repr

/-- The declarations that were skipped, in their order. -/
def Finding.records (fs : List Finding) : List Record :=
  (fs.filterMap Finding.skipped?).map fun name =>
    ⟨.debug, "Skipping uniform declaration: " ++ name⟩

/-- The textures that were moved, if any, and the size of the program. -/
def Program.records (p : Program) : List Record :=
  (if p.textures = [] then []
    else [⟨.debug, "Extracted texture uniforms: " ++ quotedList p.textures⟩]) ++
  [⟨.debug, "Transpiled shader: " ++ Decimal.natText p.lineOffset ++ " preamble lines, " ++
    Decimal.natText p.textures.length ++ " textures, " ++
    Decimal.natText p.warnings.length ++ " warnings"⟩]

/-- The advisories about the program's shader. -/
def Program.advice (p : Program) : List Record :=
  p.warnings.map fun w => ⟨.warning, "AGSL: " ++ w.message⟩

end ShaderPreview
