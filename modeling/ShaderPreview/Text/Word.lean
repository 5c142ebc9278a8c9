/-!
# Words and identifiers

Words are runs of ASCII letters, digits and underscores.  A word that does not start with a digit is
an identifier; names that a dialect chooses are identifiers, names found in a shader are words.

* `Text.isWordChar`, `Text.isLetter`: the two character classes;
* `Text.isIdentifier`: the test a configured name has to pass.
-/

namespace ShaderPreview
namespace Text

/-- The characters of words: ASCII letters, ASCII digits and the underscore. -/
def isWordChar (c : Char) : Bool :=
  c.isAlphanum || c == '_'

/-- The characters an identifier may start with. -/
def isLetter (c : Char) : Bool :=
  c.isAlpha || c == '_'

/-- An identifier is a nonempty word that does not start with a digit. -/
def isIdentifier (name : String) : Bool :=
  match name.toList with
  | [] => false
  | c :: cs => isLetter c && cs.all isWordChar

theorem isWordChar_of_isLetter {c : Char} (h : isLetter c = true) : isWordChar c = true := by
  simp only [isLetter, isWordChar, Char.isAlphanum, Bool.or_eq_true] at h ⊢
  rcases h with h | h
  · exact Or.inl (Or.inl h)
  · exact Or.inr h

theorem isWordChar_of_isDigit {c : Char} (h : c.isDigit = true) : isWordChar c = true := by
  simp [isWordChar, Char.isAlphanum, h]

/-- Every character of an identifier is a word character. -/
theorem isWordChar_of_mem_identifier {name : String} (h : isIdentifier name = true) {c : Char}
    (hc : c ∈ name.toList) : isWordChar c = true := by
  unfold isIdentifier at h
  split at h
  · exact absurd h (by simp)
  · next d ds heq =>
    rw [heq] at hc
    simp only [Bool.and_eq_true, List.all_eq_true] at h
    rcases List.mem_cons.1 hc with rfl | hc
    · exact isWordChar_of_isLetter h.1
    · exact h.2 c hc

theorem toList_ne_nil_of_isIdentifier {name : String} (h : isIdentifier name = true) :
    name.toList ≠ [] := by
  intro hnil
  simp [isIdentifier, hnil] at h

end Text
end ShaderPreview
