import ShaderPreview.Proofs.PassOrder
import ShaderPreview.Proofs.Pattern.Settling

/-!
# Loop headers are replaced where they stand

The reader of a loop header compares words that it has read before, and takes every run as long as it
gets.  What it accepts has a plain form all the same: fixed signs, one word in three places, digits in
front of `.0` in two, and blanks between them.  All texts of this form are replaced, and no other.

* `FloatLoop.IsHeader`: the form of a header that counts in floats;
* `FloatLoop.lasting`: neither such a header nor the one that replaces it has another one inside;
* `countInWholeNumbers_replaces_headers`: every text is cut at its headers, these are replaced, and none
  is left.
-/

namespace ShaderPreview

open Text

namespace FloatLoop

variable {l : FloatLoop} {m : List Char}

/-- The text is a header: `for (float c = A.0; c < B.0; c++)` with blanks wherever they may be.  The
counter has a sign or a blank on both sides of it in all three places, so it is a whole word there. -/
def IsHeader (l : FloatLoop) (m : List Char) : Prop :=
  l.Proper ∧ Reads l.parts m []

/-- The headers of a text. -/
def headers : Construct FloatLoop :=
  spelling.construct

theorem is_headers_iff {x : List Char} : headers.Is x m l ↔ l.IsHeader m := by
  constructor
  · rintro ⟨_, ⟨hl, rfl⟩, hm⟩
    exact ⟨hl, hm⟩
  · rintro ⟨hl, hm⟩
    exact ⟨_, ⟨hl, rfl⟩, hm⟩

/-- Behind its first letter a header does not open once more. -/
theorem missed_opening : Missed opening (String.ofList "for".toList.tail) where
  within := by decide
  at_front := misses_of_not_suffix (by decide)
  at_type ht _ := by
    have htypes : ∀ t ∈ ["float", "int"], ¬ "for".toList <:+ t.toList := by decide
    exact misses_of_not_suffix (htypes _ ht)
  at_bound hs := misses_of_not_suffix fun h =>
    absurd (h.mem (by decide)) (hs.within.not_mem (c := 'f') (by decide))

/-- Nothing that counts in whole numbers counts in floats. -/
theorem read?_header (l : FloatLoop) (k : List Char) : pattern.read? (l.header ++ k) = none := by
  unfold header
  simp only [List.append_assoc]
  rfl

theorem lasting : pattern.Lasting header opening where
  begins := beginsWith
  puts := putsWith
  tail h := by
    obtain ⟨hl, hr⟩ := reads_of_read? h
    exact ⟨_, outside_parts missed_opening hl, hr.tail ⟨by decide, by decide⟩⟩
  tail_put {_ _ l} h := by
    obtain ⟨hl, -⟩ := reads_of_read? h
    exact ⟨_, outside_wholeParts missed_opening hl, (reads_header l).tail ⟨by decide, by decide⟩⟩
  read?_put k _ := read?_header _ k

theorem finds_headers : pattern.Finds headers :=
  spelling.finds

theorem separate_headers : headers.Separate :=
  lasting.separate spelling

theorem settles_headers : headers.Settles header :=
  lasting.settles spelling

end FloatLoop

/-- Counting in whole numbers replaces the headers of a text, and nothing else: the text is cut in one
way at its headers, which are all texts in it of that form, and each of them gets a counter in whole
numbers.  Afterwards there is no header, so counting once more changes nothing. -/
theorem countInWholeNumbers_replaces_headers (cs : List Char) :
    ∃ d : Division FloatLoop, (∀ d', FloatLoop.headers.Cuts cs d' ↔ d' = d) ∧
      (∀ x m l, (x, m, l) ∈ d.places [] ↔ l.IsHeader m ∧ x ++ m <+: cs) ∧
      countInWholeNumbers cs = d.render FloatLoop.header ∧
      (¬ ∃ l m, FloatLoop.IsHeader l m ∧ m <:+: countInWholeNumbers cs) ∧
      countInWholeNumbers (countInWholeNumbers cs) = countInWholeNumbers cs := by
  obtain ⟨d, hcuts⟩ := FloatLoop.headers.exists_cuts_iff cs
  have hd := (hcuts d).2 rfl
  have hrender : countInWholeNumbers cs = d.render FloatLoop.header :=
    FloatLoop.finds_headers.replace_eq hd
  have habsent : FloatLoop.headers.Absent [] (countInWholeNumbers cs) [] := by
    rw [hrender]
    exact FloatLoop.settles_headers.absent_render hd.leftmost id
  refine ⟨d, hcuts, fun x m l => ?_, hrender, ?_, ?_⟩
  · rw [hd.mem_places_iff FloatLoop.separate_headers, FloatLoop.is_headers_iff]
  · rintro ⟨l, m, hm, x, k, heq⟩
    exact Construct.absent_iff.1 habsent x m l (FloatLoop.is_headers_iff.2 hm) ⟨k, heq⟩
  · exact FloatLoop.finds_headers.replace_eq (Construct.cuts_last habsent)

-- a counter called `for`, then a bound that does not end in `.0` and a counter that is no whole word
example : countInWholeNumbers
    "for(float for=1.0;for<02.0;for++)for(float i=0.0;i<9.00;i++)for(float i=0.0;i2<9.0;i++)".toList =
      ("for (int for = 1; for < 02; for++)" ++
        "for(float i=0.0;i<9.00;i++)for(float i=0.0;i2<9.0;i++)").toList := by
  decide +kernel

end ShaderPreview
