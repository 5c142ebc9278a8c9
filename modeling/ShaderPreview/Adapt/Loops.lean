import ShaderPreview.Pattern.Basic
import ShaderPreview.Pattern.Read

/-!
# Counting loops in whole numbers

WebGL compilers want loops that count in integers.  The header `for (float i = A.0; i < B.0; i++)`
with literal bounds gets an integer counter; no other loop is touched.

* `FloatLoop`: counter and bounds of such a header;
* `FloatLoop.pattern`: the header as a pattern;
* `countInWholeNumbers`: the text with integer headers instead.
-/

namespace ShaderPreview

/-- The counter and the digits of the two bounds of a loop header. -/
structure FloatLoop where
  counter : String
  start : String
  stop : String
  deriving DecidableEq, Repr

namespace FloatLoop

/-- Reads digits that are followed by `.0`. -/
def bound? (cs : List Char) : Option (String × List Char) := do
  let (ds, cs) ← Read.run1? Char.isDigit cs
  let cs ← Read.literal? ".0" cs
  return (String.ofList ds, cs)

/-- Reads a whole loop header; the counter has to be the same word in all three places. -/
def read? (cs : List Char) : Option (FloatLoop × List Char) := do
  let cs ← Read.literal? "for" cs
  let cs ← Read.literal? "(" (Read.blanks cs)
  let cs ← Read.literal? "float" (Read.blanks cs)
  let cs ← Read.blanks1? cs
  let (counter, cs) ← Read.word? (· != "") cs
  let cs ← Read.literal? "=" (Read.blanks cs)
  let (start, cs) ← bound? (Read.blanks cs)
  let cs ← Read.literal? ";" (Read.blanks cs)
  let (_, cs) ← Read.word? (· == counter) (Read.blanks cs)
  let cs ← Read.literal? "<" (Read.blanks cs)
  let (stop, cs) ← bound? (Read.blanks cs)
  let cs ← Read.literal? ";" (Read.blanks cs)
  let (_, cs) ← Read.word? (· == counter) (Read.blanks cs)
  let cs ← Read.literal? "++" (Read.blanks cs)
  let cs ← Read.literal? ")" (Read.blanks cs)
  return (⟨counter, start, stop⟩, cs)

theorem bound?_suffix {cs rest : List Char} {s : String} (h : bound? cs = some (s, rest)) :
    rest <:+ cs := by
  simp only [bound?, Option.bind_eq_bind, Option.bind_eq_some_iff, Option.pure_def,
    Option.some.injEq, Prod.mk.injEq] at h
  obtain ⟨⟨_, _⟩, h₁, _, h₂, -, rfl⟩ := h
  exact (Read.literal?_suffix h₂).trans (Read.run1?_suffix h₁)

/-- The header as a pattern. -/
def pattern : Pattern FloatLoop where
  read? := read?
  proper h := by
    simp only [read?, Option.bind_eq_bind, Option.bind_eq_some_iff, Option.pure_def,
      Option.some.injEq, Prod.mk.injEq] at h
    obtain ⟨_, h₁, _, h₂, _, h₃, _, h₄, ⟨_, _⟩, h₅, _, h₆, ⟨_, _⟩, h₇, _, h₈, ⟨_, _⟩, h₉, _, h₁₀,
      ⟨_, _⟩, h₁₁, _, h₁₂, ⟨_, _⟩, h₁₃, _, h₁₄, _, h₁₅, -, rfl⟩ := h
    exact Read.proper_of_literal? h₁ (by decide) <|
      (Read.literal?_suffix h₁₅).trans <| (Read.blanks_suffix _).trans <|
      (Read.literal?_suffix h₁₄).trans <| (Read.blanks_suffix _).trans <|
      (Read.word?_suffix h₁₃).trans <| (Read.blanks_suffix _).trans <|
      (Read.literal?_suffix h₁₂).trans <| (Read.blanks_suffix _).trans <|
      (bound?_suffix h₁₁).trans <| (Read.blanks_suffix _).trans <|
      (Read.literal?_suffix h₁₀).trans <| (Read.blanks_suffix _).trans <|
      (Read.word?_suffix h₉).trans <| (Read.blanks_suffix _).trans <|
      (Read.literal?_suffix h₈).trans <| (Read.blanks_suffix _).trans <|
      (bound?_suffix h₇).trans <| (Read.blanks_suffix _).trans <|
      (Read.literal?_suffix h₆).trans <| (Read.blanks_suffix _).trans <|
      (Read.word?_suffix h₅).trans <| (Read.blanks1?_suffix h₄).trans <|
      (Read.literal?_suffix h₃).trans <| (Read.blanks_suffix _).trans <|
      (Read.literal?_suffix h₂).trans (Read.blanks_suffix _)

/-- The header with an integer counter. -/
def header (l : FloatLoop) : List Char :=
  "for (int ".toList ++ l.counter.toList ++ " = ".toList ++ l.start.toList ++ "; ".toList ++
    l.counter.toList ++ " < ".toList ++ l.stop.toList ++ "; ".toList ++
    l.counter.toList ++ "++)".toList

end FloatLoop

/-- The text with an integer counter in every literal ascending loop. -/
def countInWholeNumbers (cs : List Char) : List Char :=
  FloatLoop.pattern.replace FloatLoop.header cs

end ShaderPreview
