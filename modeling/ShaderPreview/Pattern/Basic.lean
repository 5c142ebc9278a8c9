/-!
# Patterns and the segments of a text

A pattern reads a value off the front of a text.  Looking for it at every position, from left to
right and without overlap, cuts the text into pieces: single characters that belong to no
occurrence, and occurrences with the value read from them.  Searching, listing and replacing are
views of this one list of pieces.

* `Pattern`: a reader whose rest is a proper suffix of what it was given;
* `Pattern.segments`: the pieces of a text;
* `Pattern.values`, `Pattern.first?`, `Pattern.replace`, `Pattern.replaceFirst`: its views;
* `flatMap_text_segments`: the pieces are the text;
* `head?_values`: the first occurrence is the first of all values.
-/

namespace ShaderPreview

/-- A pattern reads a value off the front of a text, or refuses; what it leaves is a proper suffix. -/
structure Pattern (α : Type) where
  /-- The value at the front of the text, and the text behind it. -/
  read? : List Char → Option (α × List Char)
  /-- An occurrence is never empty, and nothing behind it changes. -/
  proper : ∀ {cs : List Char} {a : α} {rest : List Char},
    read? cs = some (a, rest) → rest <:+ cs ∧ rest.length < cs.length

/-- A piece of a text: a character outside all occurrences, or an occurrence with its value. -/
inductive Piece (α : Type) where
  | plain (c : Char)
  | found (text : List Char) (value : α)
  deriving DecidableEq

namespace Piece

variable {α : Type}

/-- The characters of the piece as they stand in the text. -/
def text : Piece α → List Char
  | plain c => [c]
  | found t _ => t

/-- The value of an occurrence. -/
def value? : Piece α → Option α
  | plain _ => none
  | found _ a => some a

/-- The piece with an occurrence replaced by what `put` makes of its value. -/
def render (put : α → List Char) : Piece α → List Char
  | plain c => [c]
  | found _ a => put a

/-- The pieces with only the first occurrence replaced. -/
def renderFirst (put : α → List Char) : List (Piece α) → List Char
  | [] => []
  | plain c :: ps => c :: renderFirst put ps
  | found _ a :: ps => put a ++ ps.flatMap text

@[simp] theorem text_plain (c : Char) : (plain c : Piece α).text = [c] := rfl

@[simp] theorem text_found (t : List Char) (a : α) : (found t a).text = t := rfl

@[simp] theorem render_plain (put : α → List Char) (c : Char) : (plain c).render put = [c] := rfl

@[simp] theorem render_found (put : α → List Char) (t : List Char) (a : α) :
    (found t a).render put = put a := rfl

end Piece

namespace Pattern

variable {α : Type}

/-- The pattern restricted to the values that pass a test. -/
def filter (p : Pattern α) (ok : α → Bool) : Pattern α where
  read? cs := (p.read? cs).filter fun r => ok r.1
  proper h := by
    obtain ⟨h, _⟩ := Option.filter_eq_some_iff.1 h
    exact p.proper h

/-- The pieces of a text: occurrences are taken from left to right, each as soon as it starts. -/
def segments (p : Pattern α) : List Char → List (Piece α)
  | [] => []
  | c :: cs =>
    match _h : p.read? (c :: cs) with
    | some (a, rest) =>
      .found ((c :: cs).take ((c :: cs).length - rest.length)) a :: segments p rest
    | none => .plain c :: segments p cs
termination_by cs => cs.length
decreasing_by
  · exact (p.proper _h).2
  · simp

/-- The values of all occurrences, in the order of the text. -/
def values (p : Pattern α) (cs : List Char) : List α :=
  (p.segments cs).filterMap Piece.value?

/-- The value of the occurrence that starts first. -/
def first? (p : Pattern α) : List Char → Option α
  | [] => none
  | c :: cs =>
    match p.read? (c :: cs) with
    | some (a, _) => some a
    | none => first? p cs

/-- Whether the text has an occurrence. -/
def occursIn (p : Pattern α) (cs : List Char) : Bool :=
  (p.first? cs).isSome

/-- The text with every occurrence replaced by what `put` makes of its value. -/
def replace (p : Pattern α) (put : α → List Char) (cs : List Char) : List Char :=
  (p.segments cs).flatMap (Piece.render put)

/-- The text with the first occurrence replaced, if there is one. -/
def replaceFirst (p : Pattern α) (put : α → List Char) (cs : List Char) : List Char :=
  Piece.renderFirst put (p.segments cs)

@[simp] theorem read?_nil (p : Pattern α) : p.read? [] = none := by
  cases h : p.read? [] with
  | none => rfl
  | some r => exact absurd (p.proper h).2 (by simp)

@[simp] theorem segments_nil (p : Pattern α) : p.segments [] = [] := by
  rw [segments]

theorem segments_of_read? {p : Pattern α} {cs rest : List Char} {a : α}
    (h : p.read? cs = some (a, rest)) :
    p.segments cs = .found (cs.take (cs.length - rest.length)) a :: p.segments rest := by
  cases cs with
  | nil => simp at h
  | cons c cs =>
    rw [segments]
    split
    · next a' rest' h' =>
      obtain ⟨rfl, rfl⟩ := Prod.mk.inj (Option.some.inj (h'.symm.trans h))
      rfl
    · next h' => simp [h'] at h

theorem segments_of_read?_eq_none {p : Pattern α} {c : Char} {cs : List Char}
    (h : p.read? (c :: cs) = none) : p.segments (c :: cs) = .plain c :: p.segments cs := by
  rw [segments]
  split
  · next h' => simp [h'] at h
  · rfl

/-- An occurrence is what stands in front of the rest. -/
theorem take_append_of_read? {p : Pattern α} {cs rest : List Char} {a : α}
    (h : p.read? cs = some (a, rest)) : cs.take (cs.length - rest.length) ++ rest = cs := by
  obtain ⟨m, rfl⟩ := (p.proper h).1
  simp

/-- Nothing is lost: the pieces, put together, are the text. -/
theorem flatMap_text_segments (p : Pattern α) (cs : List Char) :
    (p.segments cs).flatMap Piece.text = cs := by
  fun_induction segments p cs with
  | case1 => rfl
  | case2 c cs a rest h ih => rw [List.flatMap_cons, ih, Piece.text_found, take_append_of_read? h]
  | case3 c cs h ih => rw [List.flatMap_cons, ih, Piece.text_plain, List.singleton_append]

@[simp] theorem replace_nil (p : Pattern α) (put : α → List Char) : p.replace put [] = [] := by
  simp [replace]

/-- An occurrence at the front is replaced, and replacing goes on behind it. -/
theorem replace_of_read? {p : Pattern α} {cs rest : List Char} {a : α} (put : α → List Char)
    (h : p.read? cs = some (a, rest)) : p.replace put cs = put a ++ p.replace put rest := by
  rw [replace, segments_of_read? h, List.flatMap_cons, Piece.render_found, replace]

/-- A character at which nothing occurs is kept. -/
theorem replace_of_read?_eq_none {p : Pattern α} {c : Char} {cs : List Char}
    (put : α → List Char) (h : p.read? (c :: cs) = none) :
    p.replace put (c :: cs) = c :: p.replace put cs := by
  rw [replace, segments_of_read?_eq_none h, List.flatMap_cons, Piece.render_plain, replace]
  rfl

@[simp] theorem values_nil (p : Pattern α) : p.values [] = [] := by
  simp [values]

theorem values_of_read? {p : Pattern α} {cs rest : List Char} {a : α}
    (h : p.read? cs = some (a, rest)) : p.values cs = a :: p.values rest := by
  rw [values, segments_of_read? h, List.filterMap_cons, values]
  rfl

theorem values_of_read?_eq_none {p : Pattern α} {c : Char} {cs : List Char}
    (h : p.read? (c :: cs) = none) : p.values (c :: cs) = p.values cs := by
  rw [values, segments_of_read?_eq_none h, List.filterMap_cons, values]
  rfl

/-- The first occurrence is the first of all values. -/
theorem head?_values (p : Pattern α) (cs : List Char) : (p.values cs).head? = p.first? cs := by
  induction cs with
  | nil => simp [first?]
  | cons c cs ih =>
    rw [first?]
    split
    · next a rest h => rw [values_of_read? h, List.head?_cons]
    · next h => rw [values_of_read?_eq_none h, ih]

end Pattern
end ShaderPreview
