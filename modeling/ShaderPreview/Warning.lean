import ShaderPreview.Adapt.ColorLayouts

/-!
# Warnings

Three constructs are handled only in part by the preview and are pointed out: colour annotations,
which are dropped, macro definitions, and loops whose bound is no literal.

* `Warning`, `Warning.message`: the three advisories;
* `DynamicLoop.occursIn`: loops whose condition compares with a name;
* `Warning.ofSource`: the advisories a shader gives rise to.
-/

namespace ShaderPreview

/-- An advisory about a construct that the preview handles only in part. -/
inductive Warning where
  | layoutColor
  | define
  | dynamicLoop
  deriving DecidableEq, Repr

namespace Warning

/-- The wording of an advisory. -/
def message : Warning → String
  | layoutColor => "Stripped 'layout(color)'."
  | define => "'#define' is not supported in AGSL."
  | dynamicLoop => "Dynamic loops may fail in WebGL."

end Warning

namespace MacroDefinition

/-- Reads `#define` and the blanks behind it, of which there is at least one. -/
def read? (cs : List Char) : Option (Unit × List Char) := do
  let cs ← Read.literal? "#define" cs
  let cs ← Read.blanks1? cs
  return ((), cs)

/-- The start of a macro definition. -/
def pattern : Pattern Unit where
  read? := read?
  proper h := by
    simp only [read?, Option.bind_eq_bind, Option.bind_eq_some_iff, Option.pure_def,
      Option.some.injEq, Prod.mk.injEq] at h
    obtain ⟨_, h₁, _, h₂, -, rfl⟩ := h
    exact Read.proper_of_literal? h₁ (by decide) (Read.blanks1?_suffix h₂)

end MacroDefinition

namespace DynamicLoop

/-- The characters of comparison operators. -/
def isComparison (c : Char) : Bool :=
  c == '<' || c == '>' || c == '='

/-- Whether the text starts with a word that is compared with a name. -/
def comparesWithName (cs : List Char) : Bool :=
  match Read.word? (· != "") (Read.blanks cs) with
  | none => false
  | some (_, cs) =>
    match Read.run1? isComparison (Read.blanks cs) with
    | none => false
    | some (_, cs) =>
      match Read.blanks cs with
      | [] => false
      | c :: _ => Text.isLetter c

/-- Whether some semicolon on the first line of the text is followed by such a comparison. -/
def clauseAhead : List Char → Bool
  | [] => false
  | c :: cs => c != '\n' && (c == ';' && comparesWithName cs || clauseAhead cs)

/-- Whether the text starts with `for (` and such a comparison lies ahead on that line. -/
def startsAt (cs : List Char) : Bool :=
  match Read.literal? "for" cs with
  | none => false
  | some cs =>
    match Read.literal? "(" (Read.blanks cs) with
    | none => false
    | some cs => clauseAhead cs

/-- Whether such a loop starts anywhere in the text. -/
def occursIn : List Char → Bool
  | [] => false
  | c :: cs => startsAt (c :: cs) || occursIn cs

end DynamicLoop

/-- The advisories that a shader gives rise to, each at most once and in a fixed order. -/
def Warning.ofSource (cs : List Char) : List Warning :=
  (if ColorLayout.pattern.occursIn cs then [.layoutColor] else []) ++
  (if MacroDefinition.pattern.occursIn cs then [.define] else []) ++
  (if DynamicLoop.occursIn cs then [.dynamicLoop] else [])

end ShaderPreview
