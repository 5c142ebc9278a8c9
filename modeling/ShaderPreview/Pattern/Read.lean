import ShaderPreview.Text.Blank
import ShaderPreview.Text.Word

/-!
# Reading off the front of a text

The steps that patterns are made of: a fixed text, and the longest run of characters of a class.
A run is always taken as long as possible; the classes that follow one another in a pattern are
disjoint, so no shorter run could succeed where the longest fails.

* `Read.literal?`: a fixed text;
* `Read.run`, `Read.run1?`: the longest run of a class, possibly empty or not;
* `Read.word?`: the longest word, if it passes a test;
* `Read.blanks`, `Read.blanks1?`: blanks, skipped;
* the `_suffix` lemmas: what a step leaves is a suffix of what it was given.
-/

namespace ShaderPreview
namespace Read

/-- The text behind the characters `ws`, if the text starts with them. -/
def chars? : List Char → List Char → Option (List Char)
  | [], cs => some cs
  | _ :: _, [] => none
  | w :: ws, c :: cs => if w = c then chars? ws cs else none

/-- The text behind the fixed text `w`, if the text starts with it. -/
def literal? (w : String) (cs : List Char) : Option (List Char) :=
  chars? w.toList cs

/-- The longest run of characters in the class `p`, and the text behind it. -/
def run (p : Char → Bool) (cs : List Char) : List Char × List Char :=
  (cs.takeWhile p, cs.dropWhile p)

/-- As `run`, refusing an empty run. -/
def run1? (p : Char → Bool) (cs : List Char) : Option (List Char × List Char) :=
  if (cs.takeWhile p).isEmpty then none else some (run p cs)

/-- The text behind any number of blanks. -/
def blanks (cs : List Char) : List Char :=
  cs.dropWhile Text.isBlank

/-- The text behind at least one blank. -/
def blanks1? (cs : List Char) : Option (List Char) :=
  (run1? Text.isBlank cs).map Prod.snd

/-- The longest word at the front of the text, if it passes the test, and the text behind it. -/
def word? (ok : String → Bool) (cs : List Char) : Option (String × List Char) :=
  let (w, rest) := run Text.isWordChar cs
  if ok (String.ofList w) then some (String.ofList w, rest) else none

theorem chars?_eq_some_iff {ws cs rest : List Char} :
    chars? ws cs = some rest ↔ cs = ws ++ rest := by
  induction ws generalizing cs with
  | nil => simp [chars?]
  | cons w ws ih =>
    cases cs with
    | nil => simp [chars?]
    | cons c cs =>
      by_cases h : w = c
      · simp [chars?, h, ih]
      · simp [chars?, h, Ne.symm h]

theorem literal?_eq_some_iff {w : String} {cs rest : List Char} :
    literal? w cs = some rest ↔ cs = w.toList ++ rest :=
  chars?_eq_some_iff

theorem run1?_eq_some_iff {p : Char → Bool} {cs w rest : List Char} :
    run1? p cs = some (w, rest) ↔ w ≠ [] ∧ w = cs.takeWhile p ∧ rest = cs.dropWhile p := by
  unfold run1? run
  by_cases h : cs.takeWhile p = []
  · simp only [h, List.isEmpty_nil, if_true, reduceCtorEq, false_iff]
    rintro ⟨hw, rfl, _⟩
    exact hw rfl
  · simp only [List.isEmpty_iff, h, if_false, Option.some.injEq, Prod.mk.injEq]
    exact ⟨fun ⟨h₁, h₂⟩ => ⟨h₁ ▸ h, h₁.symm, h₂.symm⟩, fun ⟨_, h₁, h₂⟩ => ⟨h₁.symm, h₂.symm⟩⟩

theorem word?_eq_some_iff {ok : String → Bool} {cs rest : List Char} {w : String} :
    word? ok cs = some (w, rest) ↔
      ok w = true ∧ w.toList = cs.takeWhile Text.isWordChar ∧
        rest = cs.dropWhile Text.isWordChar := by
  unfold word? run
  by_cases h : ok (String.ofList (cs.takeWhile Text.isWordChar)) = true
  · simp only [h, if_true, Option.some.injEq, Prod.mk.injEq]
    constructor
    · rintro ⟨rfl, rfl⟩
      exact ⟨h, String.toList_ofList, rfl⟩
    · rintro ⟨_, hw, rfl⟩
      exact ⟨by rw [← hw, String.ofList_toList], rfl⟩
  · simp only [h, if_false, reduceCtorEq, false_iff]
    rintro ⟨hok, hw, _⟩
    rw [← hw, String.ofList_toList] at h
    exact h hok

theorem literal?_suffix {w : String} {cs rest : List Char} (h : literal? w cs = some rest) :
    rest <:+ cs :=
  ⟨w.toList, (literal?_eq_some_iff.1 h).symm⟩

theorem run_suffix (p : Char → Bool) (cs : List Char) : (run p cs).2 <:+ cs :=
  List.dropWhile_suffix p

theorem run1?_suffix {p : Char → Bool} {cs w rest : List Char} (h : run1? p cs = some (w, rest)) :
    rest <:+ cs :=
  (run1?_eq_some_iff.1 h).2.2 ▸ List.dropWhile_suffix p

theorem word?_suffix {ok : String → Bool} {cs rest : List Char} {w : String}
    (h : word? ok cs = some (w, rest)) : rest <:+ cs :=
  (word?_eq_some_iff.1 h).2.2 ▸ List.dropWhile_suffix _

theorem blanks_suffix (cs : List Char) : blanks cs <:+ cs :=
  List.dropWhile_suffix _

theorem blanks1?_suffix {cs rest : List Char} (h : blanks1? cs = some rest) : rest <:+ cs := by
  obtain ⟨⟨w, r⟩, hr, rfl⟩ := Option.map_eq_some_iff.1 h
  exact run1?_suffix hr

/-- Reading a fixed text and going on leaves a proper suffix. -/
theorem proper_of_literal? {w : String} {cs mid rest : List Char} (h : literal? w cs = some mid)
    (hw : w.toList ≠ []) (hs : rest <:+ mid) : rest <:+ cs ∧ rest.length < cs.length := by
  refine ⟨hs.trans (literal?_suffix h), Nat.lt_of_le_of_lt hs.length_le ?_⟩
  rw [literal?_eq_some_iff.1 h, List.length_append]
  have := List.length_pos_iff.2 hw
  omega

/-- Reading a word that is not empty and going on leaves a proper suffix. -/
theorem proper_of_word? {ok : String → Bool} {cs mid rest : List Char} {w : String}
    (h : word? ok cs = some (w, mid)) (hw : ok "" = false) (hs : rest <:+ mid) :
    rest <:+ cs ∧ rest.length < cs.length := by
  refine ⟨hs.trans (word?_suffix h), Nat.lt_of_le_of_lt hs.length_le ?_⟩
  obtain ⟨hok, hw', rfl⟩ := word?_eq_some_iff.1 h
  have hsplit := congrArg List.length
    (List.takeWhile_append_dropWhile (p := Text.isWordChar) (l := cs))
  rw [List.length_append, ← hw'] at hsplit
  have hne : w.toList ≠ [] := by
    intro hnil
    rw [← String.ofList_toList (s := w), hnil] at hok
    exact absurd (hw.symm.trans hok) (by decide)
  have := List.length_pos_iff.2 hne
  omega

end Read
end ShaderPreview
