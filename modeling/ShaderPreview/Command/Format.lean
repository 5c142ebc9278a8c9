import ShaderPreview.Calendar
import ShaderPreview.Files.Path
import ShaderPreview.Program.Basic

/-!
# Formats of exported code

Code is exported as it is, or below a header of comments that says when and from which file it was
generated and at which line the user's text starts.  The header shifts the user's lines further down,
which matters when a compiler log is mapped back.

* `Format`, `Format.ofName?`: the two formats;
* `Header.lines`, `Header.height`: the header of comments;
* `Program.formatted`, `Program.offsetIn`: the exported code, and the lines in front of the user's.
-/

namespace ShaderPreview

/-- How code is exported. -/
inductive Format where
  /-- As it is. -/
  | plain
  /-- Below a header of comments. -/
  | commented
  deriving DecidableEq, Repr

/-- The format of a name. -/
def Format.ofName? (name : String) : Option Format :=
  if name = "plain" then some .plain
  else if name = "commented" then some .commented
  else none

/-- The format of a name; a name that is not known stands for the plain format. -/
def Format.ofName (name : String) : Format :=
  (ofName? name).getD .plain

namespace Header

/-- The number of lines of the header, the blank one below it included. -/
def height : Nat := 5

/-- The comments of the header. -/
def lines (p : Program) (shader : String) (now : Int) : List String :=
  ["// Generated by agsl2glsl v0.1.0",
   "// Generation time: " ++ timestamp now,
   "// Source file: " ++ Files.Path.baseName shader,
   "// User source starts at line " ++ Decimal.natText (height + p.lineOffset + 1)]

end Header

namespace Program

/-- The program's text as it is exported from the shader of a path at a time. -/
def formatted (p : Program) (format : Format) (shader : String) (now : Int) : String :=
  match format with
  | .plain => p.text
  | .commented => Text.unlines (Header.lines p shader now) ++ "\n" ++ p.text

/-- The lines in front of the user's text in code exported in a format. -/
def offsetIn (p : Program) (format : Format) : Nat :=
  match format with
  | .plain => p.lineOffset
  | .commented => p.lineOffset + Header.height

end Program
end ShaderPreview
