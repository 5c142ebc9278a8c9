import ShaderPreview.Pattern.Basic
import ShaderPreview.Pattern.Read

/-!
# Spellings in parts

A reader takes runs as long as they get, so what it does at one place depends on the character
behind a run.  What it accepts is simpler: fixed characters with blanks between them.  This module
says what the reading steps accept in that form, where no step looks ahead.

## Runs and where they stop

A run of a class is a stretch `Within` the class in front of a text that `Stops` it
(`run_eq_iff`).  Each step of a reader is restated with these two words: `blanks_eq_iff`,
`blanks1?_iff`, `run1?_iff` and `word?_iff`.

## Parts

`Reads ps cs rest` says that the parts `ps`, one after the other, lead from the text `cs` to its
suffix `rest`.  Unlike a reader, it puts no condition on `rest`: `reads_iff` splits off what was
read, and `Reads.append` puts any other text behind it.

A reader takes the same way as its parts, step by step.  The lemmas `Reads.of_literal?`,
`Reads.of_blanks`, `Reads.of_blanks1?` and `Reads.of_word?` lead from the reader to the parts, and
`Reads.literal?`, `Reads.blanks`, `Reads.blanks1?` and `Reads.word?` lead back.  On the way back the
longest run has to be the one that the parts took, which is where the conditions `solid` and
`endsWord` on the parts that follow come in.
-/

namespace ShaderPreview
namespace Text

/-! ## Runs -/

/-- Every character of the text lies in the class. -/
def Within (p : Char → Bool) (cs : List Char) : Prop :=
  ∀ c ∈ cs, p c = true

/-- The text is empty or starts outside the class. -/
def Stops (p : Char → Bool) : List Char → Prop
  | [] => True
  | c :: _ => p c = false

instance (p : Char → Bool) (cs : List Char) : Decidable (Within p cs) :=
  decidable_of_iff (cs.all p = true) List.all_eq_true

instance (p : Char → Bool) : (cs : List Char) → Decidable (Stops p cs)
  | [] => .isTrue trivial
  | c :: _ => inferInstanceAs (Decidable (p c = false))

variable {p q : Char → Bool} {c : Char} {a b cs : List Char}

@[simp] theorem within_nil : Within p [] := by
  intro c hc
  exact absurd hc (List.not_mem_nil)

@[simp] theorem within_cons : Within p (c :: cs) ↔ p c = true ∧ Within p cs :=
  List.forall_mem_cons

@[simp] theorem within_append : Within p (a ++ b) ↔ Within p a ∧ Within p b :=
  List.forall_mem_append

theorem Within.mono (h : Within p cs) (hpq : ∀ c, p c = true → q c = true) : Within q cs :=
  fun c hc => hpq c (h c hc)

/-- A character outside the class is not in a text within it. -/
theorem Within.not_mem (h : Within p cs) (hc : p c = false) : c ∉ cs := by
  intro hmem
  rw [h c hmem] at hc
  exact Bool.noConfusion hc

@[simp] theorem stops_nil : Stops p [] := trivial

@[simp] theorem stops_cons : Stops p (c :: cs) ↔ p c = false := Iff.rfl

/-- A text stops a class when its first character, if any, is outside. -/
theorem stops_iff : Stops p cs ↔ ∀ c ∈ cs.head?, p c = false := by
  cases cs with
  | nil => simp
  | cons c cs => simp

/-- A text that is not empty stops a class as its first character does. -/
theorem stops_append_of_ne_nil (ha : a ≠ []) : Stops p (a ++ b) ↔ Stops p a := by
  cases a with
  | nil => exact absurd rfl ha
  | cons c a => rw [List.cons_append, stops_cons, stops_cons]

/-- A stretch of one class stops another one if the two have nothing in common. -/
theorem Within.stops (h : Within q a) (hpq : ∀ c, q c = true → p c = false) : Stops p a :=
  stops_iff.2 fun c hc => hpq c (h c (List.mem_of_mem_head? hc))

/-- As `Within.stops`, where the stretch may be empty in front of a text that stops the class. -/
theorem Within.stops_append (h : Within q a) (hpq : ∀ c, q c = true → p c = false)
    (hb : Stops p b) : Stops p (a ++ b) := by
  by_cases ha : a = []
  · rwa [ha, List.nil_append]
  · rw [stops_append_of_ne_nil ha]
    exact h.stops hpq

theorem stops_dropWhile (p : Char → Bool) (cs : List Char) : Stops p (cs.dropWhile p) := by
  refine stops_iff.2 fun c hc => ?_
  have h := List.head?_dropWhile_not p cs
  rw [Option.mem_def.1 hc] at h
  exact h

theorem within_takeWhile (p : Char → Bool) (cs : List Char) : Within p (cs.takeWhile p) :=
  List.all_eq_true.1 List.all_takeWhile

theorem takeWhile_append_of_stops (ha : Within p a) (hb : Stops p b) :
    (a ++ b).takeWhile p = a := by
  rw [List.takeWhile_append_of_pos ha]
  cases b with
  | nil => simp
  | cons c b => simp [stops_cons.1 hb]

theorem dropWhile_append_of_stops (ha : Within p a) (hb : Stops p b) :
    (a ++ b).dropWhile p = b := by
  rw [List.dropWhile_append_of_pos ha]
  cases b with
  | nil => rfl
  | cons c b => simp [stops_cons.1 hb]

/-- A run is a stretch within its class in front of a text that stops it. -/
theorem run_eq_iff {w rest : List Char} :
    w = cs.takeWhile p ∧ rest = cs.dropWhile p ↔ Within p w ∧ Stops p rest ∧ cs = w ++ rest := by
  constructor
  · rintro ⟨rfl, rfl⟩
    exact ⟨within_takeWhile p cs, stops_dropWhile p cs, List.takeWhile_append_dropWhile.symm⟩
  · rintro ⟨hw, hr, rfl⟩
    exact ⟨(takeWhile_append_of_stops hw hr).symm, (dropWhile_append_of_stops hw hr).symm⟩

/-- A text is split into a run and what stops it in one way only. -/
theorem run_unique {a' b' : List Char} (h : a ++ b = a' ++ b') (ha : Within p a) (hb : Stops p b)
    (ha' : Within p a') (hb' : Stops p b') : a = a' ∧ b = b' := by
  have hrun : a = a' := by
    rw [← takeWhile_append_of_stops ha hb, h, takeWhile_append_of_stops ha' hb']
  rw [hrun, List.append_cancel_left_eq] at h
  exact ⟨hrun, h⟩

/-! ## The two classes of the patterns -/

/-- Word characters lie between the digit zero and the small letter z. -/
theorem toNat_of_isWordChar (h : isWordChar c = true) : 48 ≤ c.toNat ∧ c.toNat ≤ 122 := by
  have halpha : c.isAlpha = (c.isUpper || c.isLower) := rfl
  have hupper : c.isUpper = decide (c.val ≥ 'A'.val ∧ c.val ≤ 'Z'.val) := rfl
  have hlower : c.isLower = (decide (c.val ≥ 'a'.val) && decide (c.val ≤ 'z'.val)) := rfl
  simp only [isWordChar, Char.isAlphanum, halpha, hupper, hlower, Char.isDigit, Bool.or_eq_true,
    Bool.and_eq_true, decide_eq_true_eq, beq_iff_eq, UInt32.le_iff_toNat_le] at h
  have hc : c.toNat = c.val.toNat := rfl
  have hA : 'A'.val.toNat = 65 := rfl
  have hZ : 'Z'.val.toNat = 90 := rfl
  have ha : 'a'.val.toNat = 97 := rfl
  have hz : 'z'.val.toNat = 122 := rfl
  have h0 : '0'.val.toNat = 48 := rfl
  have h9 : '9'.val.toNat = 57 := rfl
  rcases h with ((h | h) | h) | rfl
  · omega
  · omega
  · omega
  · decide

/-- A word character is no blank. -/
theorem isBlank_of_isWordChar (h : isWordChar c = true) : isBlank c = false := by
  have hout : ∀ r ∈ blankRanges, r.2 < 48 ∨ 122 < r.1 := by decide
  have hc := toNat_of_isWordChar h
  rw [isBlank, List.any_eq_false]
  intro r hr
  have := hout r hr
  simp only [Bool.and_eq_true, decide_eq_true_eq]
  omega

/-- A blank is no word character. -/
theorem isWordChar_of_isBlank (h : isBlank c = true) : isWordChar c = false := by
  cases hw : isWordChar c with
  | false => rfl
  | true => rw [isBlank_of_isWordChar hw] at h; exact h.symm

end Text

open Text

namespace Read

/-! ## The steps of a reader -/

variable {cs rest : List Char}

theorem blanks_eq_iff :
    blanks cs = rest ↔ ∃ b, Within isBlank b ∧ Stops isBlank rest ∧ cs = b ++ rest := by
  constructor
  · rintro rfl
    exact ⟨_, run_eq_iff.1 ⟨rfl, rfl⟩⟩
  · rintro ⟨b, hb, hr, rfl⟩
    exact dropWhile_append_of_stops hb hr

theorem run1?_iff {p : Char → Bool} {w : List Char} :
    run1? p cs = some (w, rest) ↔ w ≠ [] ∧ Within p w ∧ Stops p rest ∧ cs = w ++ rest := by
  rw [run1?_eq_some_iff, run_eq_iff]

theorem blanks1?_iff :
    blanks1? cs = some rest ↔
      ∃ b, b ≠ [] ∧ Within isBlank b ∧ Stops isBlank rest ∧ cs = b ++ rest := by
  simp only [blanks1?, Option.map_eq_some_iff, Prod.exists, run1?_iff, exists_eq_right]

theorem word?_iff {ok : String → Bool} {w : String} :
    word? ok cs = some (w, rest) ↔
      ok w = true ∧ Within isWordChar w.toList ∧ Stops isWordChar rest ∧
        cs = w.toList ++ rest := by
  rw [word?_eq_some_iff, run_eq_iff]

end Read

/-- A word of a shader: not empty, and made of word characters. -/
structure IsWord (w : String) : Prop where
  ne_empty : w ≠ ""
  within : Within isWordChar w.toList

theorem IsWord.toList_ne_nil {w : String} (hw : IsWord w) : w.toList ≠ [] :=
  fun h => hw.ne_empty (String.toList_eq_nil_iff.1 h)

/-! ## Parts -/

/-- A part of a spelling. -/
inductive Part where
  /-- Fixed characters. -/
  | text (w : String)
  /-- Any number of blanks. -/
  | blanks
  /-- At least one blank. -/
  | gap

/-- The parts, one after the other, lead from the first text to the second, which is what is left of
it. -/
def Reads : List Part → List Char → List Char → Prop
  | [], cs, rest => cs = rest
  | .text w :: ps, cs, rest => ∃ mid, cs = w.toList ++ mid ∧ Reads ps mid rest
  | .blanks :: ps, cs, rest => ∃ b mid, Within isBlank b ∧ cs = b ++ mid ∧ Reads ps mid rest
  | .gap :: ps, cs, rest =>
    ∃ b mid, b ≠ [] ∧ Within isBlank b ∧ cs = b ++ mid ∧ Reads ps mid rest

section Reads

variable {w : String} {ps : List Part} {cs rest : List Char}

@[simp] theorem reads_nil : Reads [] cs rest ↔ cs = rest := Iff.rfl

@[simp] theorem reads_text :
    Reads (.text w :: ps) cs rest ↔ ∃ mid, cs = w.toList ++ mid ∧ Reads ps mid rest := Iff.rfl

@[simp] theorem reads_blanks :
    Reads (.blanks :: ps) cs rest ↔
      ∃ b mid, Within isBlank b ∧ cs = b ++ mid ∧ Reads ps mid rest := Iff.rfl

@[simp] theorem reads_gap :
    Reads (.gap :: ps) cs rest ↔
      ∃ b mid, b ≠ [] ∧ Within isBlank b ∧ cs = b ++ mid ∧ Reads ps mid rest := Iff.rfl

/-- Fixed characters are read off the front. -/
theorem Reads.text_append {mid : List Char} (h : Reads ps mid rest) :
    Reads (.text w :: ps) (w.toList ++ mid) rest :=
  ⟨mid, rfl, h⟩

/-- Parts that end in fixed characters. -/
theorem reads_text_last (w : String) : Reads [.text w] w.toList [] :=
  ⟨[], (List.append_nil _).symm, rfl⟩

/-- A space is read where blanks may be. -/
theorem Reads.space {mid : List Char} (h : Reads ps mid rest) :
    Reads (.blanks :: ps) (' ' :: mid) rest :=
  ⟨[' '], mid, by decide, rfl, h⟩

/-- A text behind what the parts read stays behind it. -/
theorem Reads.append (h : Reads ps cs rest) (k : List Char) : Reads ps (cs ++ k) (rest ++ k) := by
  induction ps generalizing cs with
  | nil => rw [reads_nil] at h ⊢; rw [h]
  | cons q ps ih =>
    cases q with
    | text w =>
      obtain ⟨mid, rfl, h⟩ := h
      exact ⟨mid ++ k, List.append_assoc .., ih h⟩
    | blanks =>
      obtain ⟨b, mid, hb, rfl, h⟩ := h
      exact ⟨b, mid ++ k, hb, List.append_assoc .., ih h⟩
    | gap =>
      obtain ⟨b, mid, hne, hb, rfl, h⟩ := h
      exact ⟨b, mid ++ k, hne, hb, List.append_assoc .., ih h⟩

/-- What the parts read is a spelling of them by itself. -/
theorem Reads.exists_append (h : Reads ps cs rest) : ∃ m, cs = m ++ rest ∧ Reads ps m [] := by
  induction ps generalizing cs with
  | nil => exact ⟨[], h, rfl⟩
  | cons q ps ih =>
    cases q with
    | text w =>
      obtain ⟨mid, rfl, h⟩ := h
      obtain ⟨m, rfl, hm⟩ := ih h
      exact ⟨w.toList ++ m, (List.append_assoc ..).symm, m, rfl, hm⟩
    | blanks =>
      obtain ⟨b, mid, hb, rfl, h⟩ := h
      obtain ⟨m, rfl, hm⟩ := ih h
      exact ⟨b ++ m, (List.append_assoc ..).symm, b, m, hb, rfl, hm⟩
    | gap =>
      obtain ⟨b, mid, hne, hb, rfl, h⟩ := h
      obtain ⟨m, rfl, hm⟩ := ih h
      exact ⟨b ++ m, (List.append_assoc ..).symm, b, m, hne, hb, rfl, hm⟩

/-- Parts read a spelling of them off the front of a text, whatever stands behind it. -/
theorem reads_iff : Reads ps cs rest ↔ ∃ m, cs = m ++ rest ∧ Reads ps m [] := by
  refine ⟨Reads.exists_append, ?_⟩
  rintro ⟨m, rfl, hm⟩
  exact hm.append rest

variable {qs : List Part} {mid : List Char}

/-- Parts are read one list after the other. -/
theorem Reads.trans (h : Reads ps cs mid) (h' : Reads qs mid rest) : Reads (ps ++ qs) cs rest := by
  induction ps generalizing cs with
  | nil =>
    rw [reads_nil] at h
    rwa [h]
  | cons q ps ih =>
    cases q with
    | text w =>
      obtain ⟨m, rfl, h⟩ := h
      exact ⟨m, rfl, ih h⟩
    | blanks =>
      obtain ⟨b, m, hb, rfl, h⟩ := h
      exact ⟨b, m, hb, rfl, ih h⟩
    | gap =>
      obtain ⟨b, m, hne, hb, rfl, h⟩ := h
      exact ⟨b, m, hne, hb, rfl, ih h⟩

/-! ## From the reader to the parts -/

theorem Reads.of_literal? (h : Read.literal? w cs = some mid) (hr : Reads ps mid rest) :
    Reads (.text w :: ps) cs rest :=
  ⟨mid, Read.literal?_eq_some_iff.1 h, hr⟩

theorem Reads.of_blanks (hr : Reads ps (Read.blanks cs) rest) : Reads (.blanks :: ps) cs rest := by
  obtain ⟨b, hb, -, hcs⟩ := Read.blanks_eq_iff.1 (rfl : Read.blanks cs = _)
  exact ⟨b, _, hb, hcs, hr⟩

theorem Reads.of_blanks1? (h : Read.blanks1? cs = some mid) (hr : Reads ps mid rest) :
    Reads (.gap :: ps) cs rest := by
  obtain ⟨b, hne, hb, -, hcs⟩ := Read.blanks1?_iff.1 h
  exact ⟨b, mid, hne, hb, hcs, hr⟩

theorem Reads.of_word? {ok : String → Bool} (h : Read.word? ok cs = some (w, mid))
    (hr : Reads ps mid rest) : Reads (.text w :: ps) cs rest :=
  ⟨mid, (Read.word?_iff.1 h).2.2.2, hr⟩

/-! ## From the parts to the reader -/

/-- The parts start with a character that is no blank. -/
def solid : List Part → Bool
  | .text w :: _ => w.toList.head?.any fun c => !isBlank c
  | _ => false

/-- The parts start, behind blanks if need be, with a sign that is neither blank nor part of a
word. -/
def fenced : List Part → Bool
  | .text w :: _ => w.toList.head?.any fun c => !isWordChar c && !isBlank c
  | .blanks :: ps => fenced ps
  | _ => false

/-- A word in front of the parts ends there. -/
def endsWord : List Part → Bool
  | .gap :: _ => true
  | ps => fenced ps

theorem endsWord_of_fenced (h : fenced ps = true) : endsWord ps = true := by
  unfold endsWord
  split
  · rfl
  · exact h

/-- Words are solid. -/
theorem IsWord.solid (hw : IsWord w) : solid (.text w :: ps) = true := by
  obtain ⟨c, k, hck⟩ := List.exists_cons_of_ne_nil hw.toList_ne_nil
  have hc : isWordChar c = true := hw.within c (by rw [hck]; exact List.mem_cons_self ..)
  simp [ShaderPreview.solid, hck, isBlank_of_isWordChar hc]

theorem Reads.stops_isBlank (h : Reads ps cs rest) (hs : solid ps = true) : Stops isBlank cs := by
  cases ps with
  | nil => exact absurd hs (by simp [solid])
  | cons q ps =>
    cases q with
    | text w =>
      obtain ⟨mid, rfl, -⟩ := h
      rw [solid] at hs
      cases hw : w.toList with
      | nil => simp [hw] at hs
      | cons c k => simpa [hw] using hs
    | blanks => exact absurd hs (by simp [solid])
    | gap => exact absurd hs (by simp [solid])

/-- What fenced parts read is blanks in front of a sign that is neither blank nor part of a word. -/
theorem Reads.exists_of_fenced (h : Reads ps cs rest) (hf : fenced ps = true) :
    ∃ b c k, Within isBlank b ∧ isWordChar c = false ∧ isBlank c = false ∧ cs = b ++ c :: k := by
  induction ps generalizing cs with
  | nil => exact absurd hf (by simp [fenced])
  | cons q ps ih =>
    cases q with
    | text w =>
      obtain ⟨mid, rfl, -⟩ := h
      rw [fenced] at hf
      cases hw : w.toList with
      | nil => simp [hw] at hf
      | cons c k =>
        simp only [hw, List.head?_cons, Option.any_some, Bool.and_eq_true, Bool.not_eq_true'] at hf
        exact ⟨[], c, k ++ mid, within_nil, hf.1, hf.2, rfl⟩
    | blanks =>
      obtain ⟨b, mid, hb, rfl, h⟩ := h
      obtain ⟨b', c, k, hb', hc, hc', rfl⟩ := ih h hf
      exact ⟨b ++ b', c, k, within_append.2 ⟨hb, hb'⟩, hc, hc', (List.append_assoc ..).symm⟩
    | gap => exact absurd hf (by simp [fenced])

theorem Reads.stops_isWordChar (h : Reads ps cs rest) (he : endsWord ps = true) :
    Stops isWordChar cs := by
  have hfenced : fenced ps = true → Stops isWordChar cs := by
    intro hf
    obtain ⟨b, c, k, hb, hc, -, rfl⟩ := h.exists_of_fenced hf
    exact hb.stops_append (fun _ => isWordChar_of_isBlank) (stops_cons.2 hc)
  cases ps with
  | nil => exact hfenced he
  | cons q ps =>
    cases q with
    | text w => exact hfenced he
    | blanks => exact hfenced he
    | gap =>
      obtain ⟨b, mid, hne, hb, rfl, -⟩ := h
      rw [stops_append_of_ne_nil hne]
      exact hb.stops fun _ => isWordChar_of_isBlank

theorem Reads.literal? (h : Reads (.text w :: ps) cs rest) :
    ∃ mid, Read.literal? w cs = some mid ∧ Reads ps mid rest := by
  obtain ⟨mid, hcs, h⟩ := h
  exact ⟨mid, Read.literal?_eq_some_iff.2 hcs, h⟩

theorem Reads.blanks (h : Reads (.blanks :: ps) cs rest) (hs : solid ps = true) :
    Reads ps (Read.blanks cs) rest := by
  obtain ⟨b, mid, hb, hcs, h⟩ := h
  rwa [Read.blanks_eq_iff.2 ⟨b, hb, h.stops_isBlank hs, hcs⟩]

theorem Reads.blanks1? (h : Reads (.gap :: ps) cs rest) (hs : solid ps = true) :
    ∃ mid, Read.blanks1? cs = some mid ∧ Reads ps mid rest := by
  obtain ⟨b, mid, hne, hb, hcs, h⟩ := h
  exact ⟨mid, Read.blanks1?_iff.2 ⟨b, hne, hb, h.stops_isBlank hs, hcs⟩, h⟩

theorem Reads.word? (h : Reads (.text w :: ps) cs rest) (ok : String → Bool) (hok : ok w = true)
    (hw : Within isWordChar w.toList) (he : endsWord ps = true) :
    ∃ mid, Read.word? ok cs = some (w, mid) ∧ Reads ps mid rest := by
  obtain ⟨mid, hcs, h⟩ := h
  exact ⟨mid, Read.word?_iff.2 ⟨hok, hw, h.stops_isWordChar he, hcs⟩, h⟩

end Reads

/-! ## Patterns with a spelling -/

/-- A pattern has a spelling when its occurrences are what certain lists of parts read. -/
structure Pattern.Spelling {α : Type} (p : Pattern α) where
  /-- The lists of parts that spell occurrences with a value. -/
  Forms : α → List Part → Prop
  /-- The pattern reads what these parts read. -/
  read?_iff : ∀ {cs : List Char} {a : α} {rest : List Char},
    p.read? cs = some (a, rest) ↔ ∃ ps, Forms a ps ∧ Reads ps cs rest

namespace Pattern

variable {α : Type} {p : Pattern α}

theorem read?_filter_iff {ok : α → Bool} {cs rest : List Char} {a : α} :
    (p.filter ok).read? cs = some (a, rest) ↔ p.read? cs = some (a, rest) ∧ ok a = true := by
  show (p.read? cs).filter _ = some (a, rest) ↔ _
  rw [Option.filter_eq_some_iff]

/-- A pattern that is restricted further has no more occurrences. -/
theorem read?_filter_eq_none_of_imp {f g : α → Bool} {cs : List Char}
    (h : (p.filter g).read? cs = none) (himp : ∀ a, f a = true → g a = true) :
    (p.filter f).read? cs = none := by
  rw [Option.eq_none_iff_forall_ne_some] at h ⊢
  rintro ⟨a, rest⟩ hread
  obtain ⟨hread, ha⟩ := read?_filter_iff.1 hread
  exact h (a, rest) (read?_filter_iff.2 ⟨hread, himp a ha⟩)

/-- A restricted pattern is spelled as the pattern is. -/
def Spelling.filter (s : p.Spelling) (ok : α → Bool) : (p.filter ok).Spelling where
  Forms a ps := s.Forms a ps ∧ ok a = true
  read?_iff := by
    intro cs a rest
    rw [read?_filter_iff, s.read?_iff]
    constructor
    · rintro ⟨⟨ps, hf, hr⟩, hok⟩
      exact ⟨ps, ⟨hf, hok⟩, hr⟩
    · rintro ⟨ps, ⟨hf, hok⟩, hr⟩
      exact ⟨⟨ps, hf, hr⟩, hok⟩

/-- An occurrence is one whatever stands behind it. -/
theorem Spelling.exists_of_read? (s : p.Spelling) {cs rest : List Char} {a : α}
    (h : p.read? cs = some (a, rest)) :
    ∃ m, cs = m ++ rest ∧ ∀ k, p.read? (m ++ k) = some (a, k) := by
  obtain ⟨ps, hf, hr⟩ := s.read?_iff.1 h
  obtain ⟨m, rfl, hm⟩ := reads_iff.1 hr
  exact ⟨m, rfl, fun k => s.read?_iff.2 ⟨ps, hf, hm.append k⟩⟩

theorem Spelling.read?_append (s : p.Spelling) {a : α} {m rest : List Char}
    (h : p.read? (m ++ rest) = some (a, rest)) (k : List Char) : p.read? (m ++ k) = some (a, k) := by
  obtain ⟨m', heq, hm'⟩ := s.exists_of_read? h
  rw [List.append_left_inj] at heq
  rw [heq]
  exact hm' k

end Pattern
end ShaderPreview
