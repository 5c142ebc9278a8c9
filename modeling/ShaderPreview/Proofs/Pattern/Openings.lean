import ShaderPreview.Proofs.Pattern.Commute

/-!
# How constructs open

A construct of a shader starts with a word, and a few characters behind the word tell it from the
others: a call goes on with a point, a loop with a parenthesis and a type, a signature with another
word.  This module finds all places inside a construct at which another one could open.

## 1.  Openings

An `Opening` says with which words a text may start, and how it goes on behind the word.

## 2.  Openings inside a construct

A text that opens starts with a word character, so inside a construct it can only start in one of the
words.  `Outside o ps` says that no text with the opening `o` starts inside what the parts read.  It
is shown part by part: blanks and signs are passed over (`Outside.blanks`, `Outside.gap`,
`Outside.sign`), and for a word it has to be known what stands behind it (`Outside.word`).  Behind
most words stands a sign that no opening has, and nothing else is to be shown: `Outside.closed`.

## 3.  From openings to occurrences

`undisturbed_of_outside` is the use of all this: if the occurrences of two patterns have openings, and
these are outside of what is found and of what is put in, then the one pattern is not disturbed by
replacing the other.
-/

namespace ShaderPreview

open Text

/-! ## 1.  Openings -/

/-- A way in which a text may start: with a word, and with what stands behind it. -/
structure Opening where
  /-- Whether a text may start with this word and go on with this text. -/
  Shape : List Char → List Char → Prop
  /-- Behind the word, and blanks if need be, stands a point, a parenthesis or another word. -/
  ahead : ∀ {w k : List Char}, Shape w k →
    ∃ b c k', Within isBlank b ∧ (c = '.' ∨ c = '(' ∨ isWordChar c = true) ∧ k = b ++ c :: k'

/-- The sign that the parts start with, behind blanks if need be, is one that no opening has. -/
def closes : List Part → Bool
  | .text w :: _ =>
    w.toList.head?.any fun c => !isWordChar c && !isBlank c && c != '.' && c != '('
  | .blanks :: ps => closes ps
  | _ => false

/-- A space is read where a gap has to be. -/
theorem Reads.space_gap {ps : List Part} {mid rest : List Char} (h : Reads ps mid rest) :
    Reads (.gap :: ps) (' ' :: mid) rest :=
  ⟨[' '], mid, by decide, by decide, rfl, h⟩

/-- Blanks may be missing. -/
theorem Reads.no_blanks {ps : List Part} {mid rest : List Char} (h : Reads ps mid rest) :
    Reads (.blanks :: ps) mid rest :=
  ⟨[], mid, within_nil, rfl, h⟩

section Closes

variable {ps : List Part} {cs rest : List Char}

theorem fenced_of_closes (h : closes ps = true) : fenced ps = true := by
  induction ps with
  | nil => exact h
  | cons q ps ih =>
    cases q with
    | text w =>
      rw [closes, Option.any_eq_true] at h
      obtain ⟨c, hc, h⟩ := h
      rw [fenced, hc, Option.any_some]
      simp only [Bool.and_eq_true] at h ⊢
      exact h.1.1
    | blanks => exact ih h
    | gap => exact h

theorem Reads.exists_of_closes (h : Reads ps cs rest) (hc : closes ps = true) :
    ∃ b c k, Within isBlank b ∧ isWordChar c = false ∧ isBlank c = false ∧ c ≠ '.' ∧ c ≠ '(' ∧
      cs = b ++ c :: k := by
  induction ps generalizing cs with
  | nil => exact absurd hc (by simp [closes])
  | cons q ps ih =>
    cases q with
    | text w =>
      obtain ⟨mid, rfl, -⟩ := h
      rw [closes] at hc
      cases hw : w.toList with
      | nil => simp [hw] at hc
      | cons c k =>
        simp only [hw, List.head?_cons, Option.any_some, Bool.and_eq_true, Bool.not_eq_true',
          bne_iff_ne] at hc
        exact ⟨[], c, k ++ mid, within_nil, hc.1.1.1, hc.1.1.2, hc.1.2, hc.2, rfl⟩
    | blanks =>
      obtain ⟨b, mid, hb, rfl, h⟩ := h
      obtain ⟨b', c, k, hb', hword, hblank, hpoint, hparen, rfl⟩ := ih h hc
      exact ⟨b ++ b', c, k, within_append.2 ⟨hb, hb'⟩, hword, hblank, hpoint, hparen,
        (List.append_assoc ..).symm⟩
    | gap => exact absurd hc (by simp [closes])

end Closes

namespace Opening

variable {o : Opening} {ps : List Part} {w : String} {x v T mid rest : List Char}

/-- The text starts with a word, taken as long as it gets, and goes on as the opening says. -/
def Begins (o : Opening) (cs : List Char) : Prop :=
  ∃ w k, w ≠ [] ∧ Within isWordChar w ∧ Stops isWordChar k ∧ o.Shape w k ∧ cs = w ++ k

/-- What the parts read, behind an end of the word, is not what stands behind the opening. -/
def Misses (o : Opening) (w : String) (ps : List Part) : Prop :=
  ∀ v mid rest : List Char, v <:+ w.toList → Reads ps mid rest → ¬ o.Shape v mid

/-- Behind a word of the opening stands a sign. -/
def Signed (o : Opening) : Prop :=
  ∀ w k : List Char, o.Shape w k →
    ∃ b c k', Within isBlank b ∧ isWordChar c = false ∧ isBlank c = false ∧ k = b ++ c :: k'

/-- Blanks end in front of the same character, however they are read. -/
theorem eq_of_blanks_append {b b' k k' : List Char} {c c' : Char} (hb : Within isBlank b)
    (hc : isBlank c = false) (hb' : Within isBlank b') (hc' : isBlank c' = false)
    (h : b ++ c :: k = b' ++ c' :: k') : b = b' ∧ c = c' ∧ k = k' := by
  obtain ⟨hbb, hck⟩ := run_unique h hb (stops_cons.2 hc) hb' (stops_cons.2 hc')
  obtain ⟨hcc, hkk⟩ := List.cons.inj hck
  exact ⟨hbb, hcc, hkk⟩

theorem misses_of_closes (h : closes ps = true) : o.Misses w ps := by
  intro v mid rest _ hr hshape
  obtain ⟨b, c, k, hb, hword, hblank, hpoint, hparen, rfl⟩ := hr.exists_of_closes h
  obtain ⟨b', c', k', hb', hc', heq⟩ := o.ahead hshape
  have hblank' : isBlank c' = false := by
    rcases hc' with rfl | rfl | hc'
    · decide
    · decide
    · exact isBlank_of_isWordChar hc'
  obtain ⟨-, rfl, -⟩ := eq_of_blanks_append hb hblank hb' hblank' heq
  rcases hc' with rfl | rfl | hc'
  · exact hpoint rfl
  · exact hparen rfl
  · exact Bool.noConfusion (hword.symm.trans hc')

/-- Where another word follows, an opening that has a sign is missed. -/
theorem Signed.misses_gap (ho : o.Signed) {w' : String} (hw' : IsWord w') :
    o.Misses w (.gap :: .text w' :: ps) := by
  intro v mid rest _ hr hshape
  obtain ⟨b, _, -, hb, rfl, _, rfl, -⟩ := hr
  obtain ⟨b', c', k', hb', hword', hblank', heq⟩ := ho _ _ hshape
  obtain ⟨c, t, hct⟩ := List.exists_cons_of_ne_nil hw'.toList_ne_nil
  have hc : isWordChar c = true := hw'.within c (by rw [hct]; exact List.mem_cons_self ..)
  rw [hct] at heq
  obtain ⟨-, rfl, -⟩ := eq_of_blanks_append hb (isBlank_of_isWordChar hc) hb' hblank' heq
  exact Bool.noConfusion (hword'.symm.trans hc)

/-! ## 2.  Openings inside a construct -/

/-- No text with the opening starts inside what the parts read. -/
def Outside (o : Opening) (ps : List Part) : Prop :=
  ∀ x T rest : List Char, o.Begins T → Reads ps (x ++ T) rest → T <:+ rest

/-- A text with an opening does not start among other characters than those of words. -/
theorem exists_append_of_begins {m : List Char} (hT : o.Begins T)
    (hm : ∀ c ∈ m, isWordChar c = false) (h : x ++ T = m ++ mid) : ∃ x', x' ++ T = mid := by
  rcases List.append_eq_append_iff.1 h with ⟨v, rfl, rfl⟩ | ⟨x', -, rfl⟩
  · cases v with
    | nil => exact ⟨[], rfl⟩
    | cons c v =>
      obtain ⟨w, k, hne, hw, -, -, heq⟩ := hT
      obtain ⟨d, w, rfl⟩ := List.exists_cons_of_ne_nil hne
      obtain ⟨rfl, -⟩ := List.cons.inj heq
      exact Bool.noConfusion ((hm c (by simp)).symm.trans (within_cons.1 hw).1)
  · exact ⟨x', rfl⟩

theorem outside_nil : o.Outside [] :=
  fun x _ _ _ h => ⟨x, h⟩

theorem Outside.sign (hw : Within (fun c => !isWordChar c) w.toList) (h : o.Outside ps) :
    o.Outside (.text w :: ps) := by
  rintro x T rest hT ⟨mid, heq, hr⟩
  obtain ⟨x', rfl⟩ := exists_append_of_begins hT (fun c hc => by simpa using hw c hc) heq
  exact h x' T rest hT hr

theorem Outside.blanks (h : o.Outside ps) : o.Outside (.blanks :: ps) := by
  rintro x T rest hT ⟨b, mid, hb, heq, hr⟩
  obtain ⟨x', rfl⟩ := exists_append_of_begins hT (fun c hc => isWordChar_of_isBlank (hb c hc)) heq
  exact h x' T rest hT hr

theorem Outside.gap (h : o.Outside ps) : o.Outside (.gap :: ps) := by
  rintro x T rest hT ⟨b, mid, -, hb, heq, hr⟩
  exact h.blanks x T rest hT ⟨b, mid, hb, heq, hr⟩

/-- Inside a word a text with the opening would start with the end of the word. -/
theorem Outside.word (hw : Within isWordChar w.toList) (he : endsWord ps = true)
    (hm : o.Misses w ps) (h : o.Outside ps) : o.Outside (.text w :: ps) := by
  rintro x T rest hT ⟨mid, heq, hr⟩
  rcases List.append_eq_append_iff.1 heq with ⟨v, hv, rfl⟩ | ⟨x', -, rfl⟩
  · cases v with
    | nil => exact h [] _ rest hT hr
    | cons c v =>
      obtain ⟨w', k, -, hw', hk, hshape, heq⟩ := hT
      rw [hv, within_append] at hw
      obtain ⟨rfl, rfl⟩ := run_unique heq hw.2 (hr.stops_isWordChar he) hw' hk
      exact absurd hshape (hm _ _ _ ⟨x, hv.symm⟩ hr)
  · exact h x' T rest hT hr

/-- Behind the word stands a sign that no opening has. -/
theorem Outside.closed (hw : Within isWordChar w.toList) (hc : closes ps = true)
    (h : o.Outside ps) : o.Outside (.text w :: ps) :=
  h.word hw (endsWord_of_fenced (fenced_of_closes hc)) (misses_of_closes hc)

/-- Fixed characters may be taken apart. -/
theorem Outside.joined (w₁ w₂ : String) (hw : w.toList = w₁.toList ++ w₂.toList)
    (h : o.Outside (.text w₁ :: .text w₂ :: ps)) : o.Outside (.text w :: ps) := by
  rintro x T rest hT ⟨mid, heq, hr⟩
  rw [hw, List.append_assoc] at heq
  exact h x T rest hT ⟨_, heq, mid, rfl, hr⟩

end Opening

/-! ## 3.  From openings to occurrences -/

namespace Pattern

variable {α β : Type} {p : Pattern α} {q : Pattern β} {put : β → List Char}

/-- The occurrences of the pattern have the opening. -/
def BeginsWith (p : Pattern α) (o : Opening) : Prop :=
  ∀ {cs rest : List Char} {a : α}, p.read? cs = some (a, rest) → o.Begins cs

/-- What is put in place of an occurrence has the opening. -/
def PutsWith (p : Pattern α) (put : α → List Char) (o : Opening) : Prop :=
  ∀ {cs rest : List Char} {a : α} (k : List Char), p.read? cs = some (a, rest) →
    o.Begins (put a ++ k)

/-- Nothing with the opening starts inside an occurrence. -/
def Excludes (p : Pattern α) (o : Opening) : Prop :=
  ∀ {cs rest : List Char} {a : α}, p.read? cs = some (a, rest) →
    ∃ ps, o.Outside ps ∧ Reads ps cs rest

/-- Nothing with the opening starts inside what is put in place of an occurrence. -/
def ExcludesPut (p : Pattern α) (put : α → List Char) (o : Opening) : Prop :=
  ∀ {cs rest : List Char} {a : α}, p.read? cs = some (a, rest) →
    ∃ ps, o.Outside ps ∧ Reads ps (put a) []

/-- Nothing with an opening starts inside a text that excludes it. -/
theorem BeginsWith.read?_eq_none {o : Opening} (hp : p.BeginsWith o) {ps : List Part}
    (ho : o.Outside ps) {t u v : List Char} (hr : Reads ps t []) (huv : t = u ++ v) (hv : v ≠ [])
    (k : List Char) : p.read? (v ++ k) = none := by
  rw [Option.eq_none_iff_forall_ne_some]
  rintro ⟨a, rest⟩ hread
  have hr := hr.append k
  rw [huv, List.append_assoc, List.nil_append] at hr
  have hlen := (ho u _ k (hp hread) hr).length_le
  have hpos := List.length_pos_iff.2 hv
  rw [List.length_append] at hlen
  omega

/-- A pattern is not disturbed by replacing another one, if the openings of both are outside. -/
theorem undisturbed_of_outside {o o' : Opening} (hp : p.BeginsWith o) (hq : q.Excludes o)
    (hput : q.ExcludesPut put o) (hput' : q.PutsWith put o') (hp' : p.Excludes o') :
    p.Undisturbed q put where
  inside := by
    intro m rest u v b k hread huv hv
    obtain ⟨ps, ho, hr⟩ := hq hread
    obtain ⟨m', heq, hr⟩ := reads_iff.1 hr
    rw [List.append_left_inj] at heq
    exact hp.read?_eq_none ho (heq ▸ hr) huv hv k
  inside_put := by
    intro cs rest u v b k hread huv hv
    obtain ⟨ps, ho, hr⟩ := hput hread
    exact hp.read?_eq_none ho hr huv hv k
  before_put := by
    intro cs rest x k rest' a b hread hread'
    obtain ⟨ps, ho, hr⟩ := hp' hread'
    exact ho x _ rest' (hput' k hread) hr

end Pattern
end ShaderPreview
