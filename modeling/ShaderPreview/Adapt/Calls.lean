import ShaderPreview.Pattern.Basic
import ShaderPreview.Pattern.Read

/-!
# Flattening texture calls

AGSL samples a texture with the method call `t.eval(p)`.  GLSL has no methods, so the preamble offers
the function `t_eval`, and every such call becomes a call of it.

* `EvalCall.pattern`: the head of a method call;
* `flattenCalls`: the text with function calls instead.
-/

namespace ShaderPreview
namespace EvalCall

/-- Reads a word, `.eval`, blanks and an opening parenthesis; the value is the word. -/
def read? (cs : List Char) : Option (String × List Char) := do
  let (texture, cs) ← Read.word? (· != "") cs
  let cs ← Read.literal? ".eval" cs
  let cs ← Read.literal? "(" (Read.blanks cs)
  return (texture, cs)

/-- The head of a method call. -/
def pattern : Pattern String where
  read? := read?
  proper h := by
    simp only [read?, Option.bind_eq_bind, Option.bind_eq_some_iff, Option.pure_def,
      Option.some.injEq, Prod.mk.injEq] at h
    obtain ⟨⟨_, _⟩, h₁, _, h₂, _, h₃, -, rfl⟩ := h
    exact Read.proper_of_word? h₁ (by decide) <|
      (Read.literal?_suffix h₃).trans <| (Read.blanks_suffix _).trans (Read.literal?_suffix h₂)

/-- The head of the function call. -/
def flat (texture : String) : List Char :=
  texture.toList ++ "_eval(".toList

end EvalCall

/-- The text with every method call `t.eval(` turned into the function call `t_eval(`. -/
def flattenCalls (cs : List Char) : List Char :=
  EvalCall.pattern.replace EvalCall.flat cs

end ShaderPreview
