import ShaderPreview.Uniform.Basic

/-!
# Control values over edits

The preview keeps a value for every uniform it has ever seen, in the order in which it first saw
them.  A name that is declared anew gets the first value of its kind; a name that has a value keeps
it, and a name that is no longer declared is not forgotten.

* `Controls`: names with their values, in order;
* `Controls.set`: gives a name a value;
* `Controls.declareAll`: the controls after the shader was edited;
* `names_set`, `get?_set_self`, `get?_set_of_ne`: what setting a value does.
-/

namespace ShaderPreview

/-- Names with their values, in the order in which they were first given one. -/
abbrev Controls := List (String × Value)

namespace Controls

/-- The names that have a value. -/
def names (c : Controls) : List String :=
  c.map Prod.fst

/-- The value of a name. -/
def get? (c : Controls) (name : String) : Option Value :=
  (c.find? fun entry => entry.1 == name).map Prod.snd

/-- Gives a name a value; a new name goes last. -/
def set : Controls → String → Value → Controls
  | [], name, v => [(name, v)]
  | (n, w) :: c, name, v => if n = name then (name, v) :: c else (n, w) :: set c name v

/-- Adds a declared uniform with the first value of its kind, unless its name has a value. -/
def declare (c : Controls) (u : Uniform) : Controls :=
  if u.name ∈ c.names then c else c ++ [(u.name, u.kind.initial)]

/-- The controls after an edit that leaves the given uniforms. -/
def declareAll (c : Controls) (us : List Uniform) : Controls :=
  us.foldl declare c

/-- The controls with the given values, set one after the other. -/
def ofList (entries : List (String × Value)) : Controls :=
  entries.foldl (fun c entry => c.set entry.1 entry.2) []

/-- Setting a value keeps the names and their order; a new name goes last. -/
theorem names_set (c : Controls) (name : String) (v : Value) :
    (c.set name v).names = if name ∈ c.names then c.names else c.names ++ [name] := by
  induction c with
  | nil => simp [set, names]
  | cons e c ih =>
    obtain ⟨n, w⟩ := e
    by_cases h : n = name
    · simp [set, names, h]
    · simp only [names] at ih
      by_cases hm : name ∈ c.map Prod.fst <;> simp [set, names, h, Ne.symm h, ih, hm]

@[simp] theorem get?_set_self (c : Controls) (name : String) (v : Value) :
    (c.set name v).get? name = some v := by
  induction c with
  | nil => simp [set, get?]
  | cons e c ih =>
    obtain ⟨n, w⟩ := e
    simp only [get?] at ih ⊢
    by_cases h : n = name
    · simp [set, h]
    · simp [set, h, ih]

theorem get?_set_of_ne (c : Controls) {name other : String} (v : Value) (h : other ≠ name) :
    (c.set name v).get? other = c.get? other := by
  induction c with
  | nil => simp [set, get?, Ne.symm h]
  | cons e c ih =>
    obtain ⟨n, w⟩ := e
    simp only [get?] at ih ⊢
    by_cases hn : n = name
    · simp [set, hn, Ne.symm h]
    · rw [set, if_neg hn]
      by_cases ho : n = other <;> simp [ho, ih]

end Controls
end ShaderPreview
