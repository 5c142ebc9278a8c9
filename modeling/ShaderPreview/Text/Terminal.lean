import ShaderPreview.Pattern.Basic
import ShaderPreview.Pattern.Read

/-!
# Terminal control sequences

Text for a terminal may change colours and styles with sequences that start with an escape.  Where
output does not go to a terminal they are left out.

* `Text.Terminal.pattern`: a control sequence;
* `Text.withoutControls`: a text without them.
-/

namespace ShaderPreview
namespace Text
namespace Terminal

/-- The characters of the parameters of a control sequence. -/
def isParameter (c : Char) : Bool :=
  c.isDigit || c == ';' || c == '?'

/-- Reads an escape, an opening bracket, parameters and a letter. -/
def read? (cs : List Char) : Option (Unit × List Char) := do
  let cs ← Read.literal? "\x1b[" cs
  match (Read.run isParameter cs).2 with
  | c :: rest => if c.isAlpha then some ((), rest) else none
  | [] => none

/-- A control sequence. -/
def pattern : Pattern Unit where
  read? := read?
  proper {cs _ rest} h := by
    simp only [read?, Option.bind_eq_bind, Option.bind_eq_some_iff] at h
    obtain ⟨mid, h₁, h₂⟩ := h
    split at h₂
    · next c tail heq =>
      split at h₂
      · simp only [Option.some.injEq, Prod.mk.injEq] at h₂
        obtain ⟨-, rfl⟩ := h₂
        refine Read.proper_of_literal? h₁ (by decide) ?_
        have hs := Read.run_suffix isParameter mid
        rw [heq] at hs
        exact (List.suffix_cons c tail).trans hs
      · simp at h₂
    · simp at h₂

end Terminal

/-- The text without control sequences. -/
def withoutControls (s : String) : String :=
  String.ofList (Terminal.pattern.replace (fun _ => []) s.toList)

end Text
end ShaderPreview
