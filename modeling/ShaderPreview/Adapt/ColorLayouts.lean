import ShaderPreview.Pattern.Basic
import ShaderPreview.Pattern.Read

/-!
# Dropping colour annotations

`layout(color)` marks a uniform as a colour.  GLSL does not know it.

* `ColorLayout.pattern`: the annotation with the blanks behind it;
* `dropColorLayouts`: the text without annotations.
-/

namespace ShaderPreview
namespace ColorLayout

/-- Reads `layout(color)` with any blanks inside and behind. -/
def read? (cs : List Char) : Option (Unit × List Char) := do
  let cs ← Read.literal? "layout" cs
  let cs ← Read.literal? "(" (Read.blanks cs)
  let cs ← Read.literal? "color" (Read.blanks cs)
  let cs ← Read.literal? ")" (Read.blanks cs)
  return ((), Read.blanks cs)

/-- The annotation with the blanks behind it. -/
def pattern : Pattern Unit where
  read? := read?
  proper h := by
    simp only [read?, Option.bind_eq_bind, Option.bind_eq_some_iff, Option.pure_def,
      Option.some.injEq, Prod.mk.injEq] at h
    obtain ⟨_, h₁, _, h₂, _, h₃, _, h₄, -, rfl⟩ := h
    exact Read.proper_of_literal? h₁ (by decide) <|
      (Read.blanks_suffix _).trans <|
      (Read.literal?_suffix h₄).trans <| (Read.blanks_suffix _).trans <|
      (Read.literal?_suffix h₃).trans <| (Read.blanks_suffix _).trans <|
      (Read.literal?_suffix h₂).trans (Read.blanks_suffix _)

end ColorLayout

/-- The text without colour annotations. -/
def dropColorLayouts (cs : List Char) : List Char :=
  ColorLayout.pattern.replace (fun _ => []) cs

end ShaderPreview
