import ShaderPreview.Dialect.Basic
import ShaderPreview.Pattern.Basic
import ShaderPreview.Pattern.Read

/-!
# Renaming the entry function

A generated program has its own `main`, which calls the shader's entry function by another name.  The
first signature that fits the entry function gets the other name; its parameter keeps its own.

* `Entry.pattern`: the signature of an entry function;
* `renameEntry`: the text with the first one renamed.
-/

namespace ShaderPreview
namespace Entry

/-- The types an entry function may return. -/
def colorTypes : List String := ["half4", "vec4", "float4"]

/-- The types an entry function's coordinate may have. -/
def coordinateTypes : List String := ["float2", "vec2"]

/-- Reads the type of the parameter, with the qualifier `in` before it or not. -/
def parameterType? (cs : List Char) : Option (String × List Char) :=
  match Read.word? (· == "in") cs with
  | some (_, cs) => do
    let cs ← Read.blanks1? cs
    Read.word? coordinateTypes.contains cs
  | none => Read.word? coordinateTypes.contains cs

/-- Reads the signature of the entry function `name`; the value is its parameter. -/
def read? (name : String) (cs : List Char) : Option (String × List Char) := do
  let (_, cs) ← Read.word? colorTypes.contains cs
  let cs ← Read.blanks1? cs
  let (_, cs) ← Read.word? (· == name) cs
  let cs ← Read.literal? "(" (Read.blanks cs)
  let (_, cs) ← parameterType? (Read.blanks cs)
  let cs ← Read.blanks1? cs
  let (parameter, cs) ← Read.word? (· != "") cs
  let cs ← Read.literal? ")" (Read.blanks cs)
  return (parameter, cs)

theorem parameterType?_suffix {cs rest : List Char} {s : String}
    (h : parameterType? cs = some (s, rest)) : rest <:+ cs := by
  unfold parameterType? at h
  split at h
  · next h₁ =>
    simp only [Option.bind_eq_bind, Option.bind_eq_some_iff] at h
    obtain ⟨_, h₂, h₃⟩ := h
    exact (Read.word?_suffix h₃).trans <| (Read.blanks1?_suffix h₂).trans (Read.word?_suffix h₁)
  · exact Read.word?_suffix h

/-- The signature of the entry function `name`. -/
def pattern (name : String) : Pattern String where
  read? := read? name
  proper h := by
    simp only [read?, Option.bind_eq_bind, Option.bind_eq_some_iff, Option.pure_def,
      Option.some.injEq, Prod.mk.injEq] at h
    obtain ⟨⟨_, _⟩, h₁, _, h₂, ⟨_, _⟩, h₃, _, h₄, ⟨_, _⟩, h₅, _, h₆, ⟨_, _⟩, h₇, _, h₈, -, rfl⟩ := h
    exact Read.proper_of_word? h₁ (by decide) <|
      (Read.literal?_suffix h₈).trans <| (Read.blanks_suffix _).trans <|
      (Read.word?_suffix h₇).trans <| (Read.blanks1?_suffix h₆).trans <|
      (parameterType?_suffix h₅).trans <| (Read.blanks_suffix _).trans <|
      (Read.literal?_suffix h₄).trans <| (Read.blanks_suffix _).trans <|
      (Read.word?_suffix h₃).trans (Read.blanks1?_suffix h₂)

/-- The renamed signature. -/
def signature (name parameter : String) : List Char :=
  "vec4 ".toList ++ name.toList ++ "(vec2 ".toList ++ parameter.toList ++ ")".toList

end Entry

/-- The text with the first signature of the entry function renamed. -/
def renameEntry (d : Dialect) (cs : List Char) : List Char :=
  (Entry.pattern d.entryPoint).replaceFirst (Entry.signature d.userEntry) cs

end ShaderPreview
