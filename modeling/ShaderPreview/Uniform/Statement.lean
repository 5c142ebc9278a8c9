import ShaderPreview.Pattern.Basic
import ShaderPreview.Pattern.Read

/-!
# Uniform statements

The statement `uniform <type> <name>;` wherever it stands in a shader, with any blanks between its
parts.  What is done with a statement depends on its two words only, so every use of it is this one
pattern, restricted to some types and names.

* `Statement`: the two words;
* `Statement.pattern`: the statement as a pattern.
-/

namespace ShaderPreview

/-- The words of `uniform <type> <name>;`.  The name may be missing. -/
structure Statement where
  type : String
  name : String
  deriving DecidableEq, Repr

namespace Statement

/-- Reads `uniform`, blanks, a word, blanks, a word that may be empty, and a semicolon. -/
def read? (cs : List Char) : Option (Statement × List Char) := do
  let cs ← Read.literal? "uniform" cs
  let cs ← Read.blanks1? cs
  let (type, cs) ← Read.word? (fun _ => true) cs
  let cs ← Read.blanks1? cs
  let (name, cs) ← Read.word? (fun _ => true) cs
  let cs ← Read.literal? ";" (Read.blanks cs)
  return (⟨type, name⟩, cs)

/-- The statement as a pattern. -/
def pattern : Pattern Statement where
  read? := read?
  proper h := by
    simp only [read?, Option.bind_eq_bind, Option.bind_eq_some_iff, Option.pure_def,
      Option.some.injEq, Prod.mk.injEq] at h
    obtain ⟨_, h₁, _, h₂, ⟨_, _⟩, h₃, _, h₄, ⟨_, _⟩, h₅, _, h₆, -, rfl⟩ := h
    exact Read.proper_of_literal? h₁ (by decide) <|
      (Read.literal?_suffix h₆).trans <| (Read.blanks_suffix _).trans <|
      (Read.word?_suffix h₅).trans <| (Read.blanks1?_suffix h₄).trans <|
      (Read.word?_suffix h₃).trans (Read.blanks1?_suffix h₂)

end Statement
end ShaderPreview
