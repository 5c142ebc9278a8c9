import ShaderPreview.Decimal.Whole
import ShaderPreview.Pattern.Basic
import ShaderPreview.Pattern.Read

/-!
# Compiler diagnostics

A compiler's log refers to lines of the generated program as `ERROR: 0:57:`.  Subtracting the lines
in front of the shader's text gives the user's line.  References to other parts of the program come
out as lines that the user does not have, and are left so.

* `Diagnostic.pattern`: a line reference, with the digits of its line;
* `Diagnostic.lines`: the lines that a log refers to;
* `Diagnostic.toUserLines`: the log with references to the user's lines.
-/

namespace ShaderPreview
namespace Diagnostic

/-- Reads `ERROR:`, blanks, digits, a colon, the digits of the line and a colon. -/
def read? (cs : List Char) : Option (List Char × List Char) := do
  let cs ← Read.literal? "ERROR:" cs
  let cs ← Read.blanks1? cs
  let (_, cs) ← Read.run1? Char.isDigit cs
  let cs ← Read.literal? ":" cs
  let (line, cs) ← Read.run1? Char.isDigit cs
  let cs ← Read.literal? ":" cs
  return (line, cs)

/-- A line reference; its value is the digits of the line. -/
def pattern : Pattern (List Char) where
  read? := read?
  proper h := by
    simp only [read?, Option.bind_eq_bind, Option.bind_eq_some_iff, Option.pure_def,
      Option.some.injEq, Prod.mk.injEq] at h
    obtain ⟨_, h₁, _, h₂, ⟨_, _⟩, h₃, _, h₄, ⟨_, _⟩, h₅, _, h₆, -, rfl⟩ := h
    exact Read.proper_of_literal? h₁ (by decide) <|
      (Read.literal?_suffix h₆).trans <| (Read.run1?_suffix h₅).trans <|
      (Read.literal?_suffix h₄).trans <| (Read.run1?_suffix h₃).trans (Read.blanks1?_suffix h₂)

/-- The user's line for a line of the generated program. -/
def userLine (line offset : Int) : Int :=
  line - offset

/-- The lines of the generated program that a log refers to, in its order. -/
def lines (log : List Char) : Except DigitFault (List Nat) :=
  (pattern.values log).mapM Decimal.readNat

/-- A line reference in the user's terms. -/
def label (line : String) : List Char :=
  "ERROR: Line ".toList ++ line.toList ++ ":".toList

/-- A piece of a log in the user's terms. -/
def userPiece (offset : Int) : Piece (List Char) → Except DigitFault (List Char)
  | .plain c => .ok [c]
  | .found _ ds => do
    let line ← Decimal.readNat ds
    let text ← Decimal.writeInt (userLine line offset)
    return label text

/-- The log with every reference to a line of the generated program turned into one to the user's. -/
def toUserLines (log : List Char) (offset : Int) : Except DigitFault (List Char) := do
  let parts ← (pattern.segments log).mapM (userPiece offset)
  return parts.flatten

end Diagnostic
end ShaderPreview
