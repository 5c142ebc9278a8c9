import Mathlib.Logic.Function.Iterate
import ShaderPreview.Proofs.Pattern.Division
import ShaderPreview.Proofs.Pattern.Openings

/-!
# Replacing once and for all

What is put in the place of an occurrence could be an occurrence itself, or become one together with
the text around it.  Then replacing again would go on, and replacing one occurrence at a time would not
end where replacing all of them does.  For constructs that are written in parts, the openings of
`Pattern.Openings` exclude this.

## 1.  Constructs with a spelling

A pattern with a spelling finds the texts that are spelled, whatever stands around them:
`Spelling.construct` and `Spelling.finds`.

## 2.  Openings at the front only

`Lasting p put o` says that the opening `o` is at the front of what is found and of what is put in, and
nowhere else in these texts.  Then no occurrence starts inside another one (`Lasting.separate`), and
none comes of replacing (`Lasting.settles`).

## 3.  One occurrence at a time

One replacement settles the first occurrence of a text: it becomes, replaced, a part of the gaps
(`cuts_replaceFirst`).  So `n` replacements settle `n` occurrences (`cuts_iterate_replaceFirst`), and
`renderUpTo` is the text that they lead to.
-/

namespace ShaderPreview

open Text

variable {α : Type}

/-! ## 1.  Constructs with a spelling -/

namespace Pattern

variable {p : Pattern α} {a : α} {m k : List Char}

/-- The pattern finds what is spelled, and nothing else. -/
theorem Spelling.read?_append_iff (s : p.Spelling) :
    p.read? (m ++ k) = some (a, k) ↔ ∃ ps, s.Forms a ps ∧ Reads ps m [] := by
  rw [s.read?_iff]
  constructor
  · rintro ⟨ps, hforms, hr⟩
    obtain ⟨m', heq, hm'⟩ := reads_iff.1 hr
    rw [List.append_left_inj] at heq
    exact ⟨ps, hforms, heq ▸ hm'⟩
  · rintro ⟨ps, hforms, hm⟩
    exact ⟨ps, hforms, hm.append k⟩

/-- The texts that are spelled, wherever they stand. -/
def Spelling.construct (s : p.Spelling) : Construct α where
  Is _ m a := ∃ ps, s.Forms a ps ∧ Reads ps m []
  ne_nil h := by
    obtain ⟨-, hlt⟩ := p.proper (s.read?_append_iff (k := []).2 h)
    rintro rfl
    exact absurd hlt (Nat.lt_irrefl _)
  unique := by
    intro x m m' k k' a a' h h' heq
    have hread := s.read?_append_iff (k := k).2 h
    rw [heq, s.read?_append_iff (k := k').2 h', Option.some.injEq, Prod.mk.injEq] at hread
    obtain ⟨rfl, rfl⟩ := hread
    exact ⟨(List.append_left_inj _).1 heq, rfl⟩

theorem Spelling.finds (s : p.Spelling) : p.Finds s.construct :=
  s.read?_append_iff

end Pattern

/-! ## 2.  Openings at the front only -/

/-- Behind the first character of a word stand the other ones. -/
theorem Reads.tail {w : String} {ps : List Part} {cs rest : List Char} (hw : IsWord w)
    (h : Reads (.text w :: ps) cs rest) :
    Reads (.text (String.ofList w.toList.tail) :: ps) cs.tail rest := by
  obtain ⟨mid, rfl, hr⟩ := h
  refine ⟨mid, ?_, hr⟩
  rw [String.toList_ofList, List.tail_append_of_ne_nil hw.toList_ne_nil]

namespace Pattern

variable {p : Pattern α} {put : α → List Char} {a : α} {o : Opening}

/-- What is found and what is put in has the opening at its front, and nowhere else. -/
structure Lasting (p : Pattern α) (put : α → List Char) (o : Opening) : Prop where
  begins : p.BeginsWith o
  puts : p.PutsWith put o
  /-- Behind the first character of an occurrence nothing with the opening starts. -/
  tail : ∀ {c : Char} {cs rest : List Char} {a : α}, p.read? (c :: cs) = some (a, rest) →
    ∃ ps, o.Outside ps ∧ Reads ps cs rest
  /-- Nor behind the first character of what is put in its place. -/
  tail_put : ∀ {cs rest : List Char} {a : α}, p.read? cs = some (a, rest) →
    ∃ ps, o.Outside ps ∧ Reads ps (put a).tail []
  /-- What is put in is no occurrence, whatever follows. -/
  read?_put : ∀ {cs rest : List Char} {a : α} (k : List Char), p.read? cs = some (a, rest) →
    p.read? (put a ++ k) = none

/-- A text with the opening that stands behind the front of an occurrence stands behind all of it. -/
theorem Lasting.suffix_of_begins (h : p.Lasting put o) {v T rest : List Char} (hv : v ≠ [])
    (hread : p.read? (v ++ T) = some (a, rest)) (hT : o.Begins T) : T <:+ rest := by
  obtain ⟨c, v, rfl⟩ := List.exists_cons_of_ne_nil hv
  obtain ⟨ps, ho, hr⟩ := h.tail hread
  exact ho v T rest hT hr

/-- No occurrence starts inside another one. -/
theorem Lasting.separate (h : p.Lasting put o) (s : p.Spelling) : s.construct.Separate := by
  rintro x u v k m a b his hu hv ⟨r, hr⟩ his'
  have hbegins : o.Begins (v ++ k) := by
    rw [← hr]
    exact h.begins (s.finds.2 his')
  have hread := (s.finds (k := k)).2 his
  rw [List.append_assoc] at hread
  have hlen := (h.suffix_of_begins hu hread hbegins).length_le
  have hpos := List.length_pos_iff.2 hv
  rw [List.length_append] at hlen
  omega

/-- No occurrence comes of replacing. -/
theorem Lasting.settles (h : p.Lasting put o) (s : p.Spelling) : s.construct.Settles put where
  before := by
    rintro x m a his y v t k b hv his' ⟨r, hr⟩
    have hread := (s.finds (k := r)).2 his'
    rw [hr] at hread
    obtain ⟨z, rfl⟩ := h.suffix_of_begins hv hread (h.puts k ((s.finds (k := [])).2 his))
    rw [← List.append_assoc, List.append_left_inj] at hr
    exact ⟨z, hr⟩
  inside := by
    rintro x m a his y k u v t b heq hv ⟨r, hr⟩ his'
    have hfound := (s.finds (k := [])).2 his
    have hread := (s.finds (k := r)).2 his'
    rw [hr] at hread
    cases u with
    | nil =>
      rw [List.nil_append] at heq
      rw [← heq, h.read?_put k hfound] at hread
      cases hread
    | cons c u =>
      obtain ⟨ps, ho, hps⟩ := h.tail_put hfound
      rw [heq, List.cons_append, List.tail_cons] at hps
      rw [BeginsWith.read?_eq_none h.begins ho hps rfl hv k] at hread
      cases hread
  behind := fun _ _ _ _ _ his => his

end Pattern

/-! ## 3.  One occurrence at a time -/

namespace Division

/-- The text with its first `n` occurrences replaced, or with all of them if there are fewer. -/
def renderUpTo (put : α → List Char) : Nat → Division α → List Char
  | 0, d => d.text
  | _ + 1, last g => g
  | n + 1, next g _ a d => g ++ (put a ++ d.renderUpTo put n)

variable {put : α → List Char} {t x : List Char} {d : Division α} {C : Construct α}

theorem values_prepend : (d.prepend t).values = d.values := by
  cases d with
  | last g => rfl
  | next g m a d => rfl

theorem renderUpTo_prepend (n : Nat) : (d.prepend t).renderUpTo put n = t ++ d.renderUpTo put n := by
  cases n with
  | zero => exact text_prepend
  | succ n =>
    cases d with
    | last g => rfl
    | next g m a d => exact List.append_assoc ..

theorem values_settleFirst : (d.settleFirst put).values = d.values.tail := by
  cases d with
  | last g => rfl
  | next g m a d => exact values_prepend

theorem renderUpTo_settleFirst (n : Nat) :
    (d.settleFirst put).renderUpTo put n = d.renderUpTo put (n + 1) := by
  cases d with
  | last g =>
    cases n with
    | zero => rfl
    | succ n => rfl
  | next g m a d => rw [settleFirst, renderUpTo_prepend, renderUpTo, List.append_assoc]

theorem values_iterate_settleFirst (n : Nat) :
    ((settleFirst put)^[n] d).values = d.values.drop n := by
  induction n generalizing d with
  | zero => rfl
  | succ n ih => rw [Function.iterate_succ_apply, ih, values_settleFirst, List.drop_tail]

theorem text_iterate_settleFirst (n : Nat) :
    ((settleFirst put)^[n] d).text = d.renderUpTo put n := by
  induction n generalizing d with
  | zero => rfl
  | succ n ih => rw [Function.iterate_succ_apply, ih, renderUpTo_settleFirst]

/-- There are no more occurrences to replace than there are. -/
theorem renderUpTo_min_length (n : Nat) :
    d.renderUpTo put (min n (d.places x).length) = d.renderUpTo put n := by
  induction d generalizing n x with
  | last g =>
    cases n with
    | zero => rfl
    | succ n => rfl
  | next g m a d ih =>
    cases n with
    | zero => rw [Nat.zero_min]
    | succ n => rw [places, List.length_cons, Nat.succ_min_succ, renderUpTo, ih, renderUpTo]

theorem Leftmost.prepend (ht : C.Absent x t d.text) (hd : d.Leftmost C (x ++ t)) :
    (d.prepend t).Leftmost C x := by
  cases d with
  | last g => exact Construct.absent_append.2 ⟨by rwa [List.append_nil], hd⟩
  | next g m a d =>
    obtain ⟨hg, hm, hd⟩ := hd
    rw [List.append_assoc] at hm hd
    rw [← List.append_assoc t] at hd
    exact ⟨Construct.absent_append.2 ⟨ht, hg⟩, hm, hd⟩

end Division

/-- Whether a text is an occurrence does not depend on what stands in front of it. -/
def Construct.Anywhere (C : Construct α) : Prop :=
  ∀ {x y m a}, C.Is x m a → C.Is y m a

theorem Pattern.Spelling.anywhere {p : Pattern α} (s : p.Spelling) : s.construct.Anywhere :=
  id

section OneByOne

variable {C : Construct α} {p : Pattern α} {put : α → List Char} {d : Division α}
variable {x y cs : List Char}

theorem Division.Leftmost.anywhere (hC : C.Anywhere) (hd : d.Leftmost C x) : d.Leftmost C y := by
  induction d generalizing x y with
  | last g => exact fun u v m a heq hv hm his => hd u v m a heq hv hm (hC his)
  | next g m a d ih =>
    obtain ⟨hg, hm, hd⟩ := hd
    exact ⟨fun u v t b heq hv ht his => hg u v t b heq hv ht (hC his), hC hm, ih hd⟩

/-- With its first occurrence settled, a division is still cut at the leftmost occurrences. -/
theorem Division.Leftmost.settleFirst (hC : C.Anywhere) (hs : C.Settles put)
    (hd : d.Leftmost C x) : (d.settleFirst put).Leftmost C x := by
  cases d with
  | last g => exact hd
  | next g m a d =>
    obtain ⟨hg, hm, hd⟩ := hd
    refine .prepend (Construct.absent_append.2 ⟨?_, hs.inside hm _ _⟩) (hd.anywhere hC)
    intro u v t b heq hv ht his
    exact hg u v t b heq hv ((hs.before hm hv his ht).trans (List.prefix_append ..)) his

/-- Settling the first occurrence changes nothing if there is none, and otherwise the one that starts
first. -/
theorem Construct.Cuts.text_settleFirst (hd : C.Cuts cs d) (put : α → List Char) :
    (∀ x m a, C.Is x m a → ¬ x ++ m <+: cs) ∧ (d.settleFirst put).text = cs ∨
      ∃ u m a v, cs = u ++ (m ++ v) ∧ C.Is u m a ∧
        (∀ x m' a', C.Is x m' a' → x ++ m' <+: cs → u.length ≤ x.length) ∧
        (d.settleFirst put).text = u ++ (put a ++ v) := by
  obtain ⟨rfl, hd⟩ := hd
  cases d with
  | last g => exact Or.inl ⟨Construct.absent_iff.1 hd, rfl⟩
  | next g m a d =>
    obtain ⟨hg, hm, -⟩ := hd
    refine Or.inr ⟨g, m, a, d.text, rfl, hm, ?_, ?_⟩
    · rintro x m' a' his ⟨k, hk⟩
      rw [List.append_assoc] at hk
      exact hg.length_le (x := []) his hk.symm
    · rw [Division.settleFirst, Division.text_prepend, List.append_assoc]

namespace Pattern

theorem Finds.replace_eq (hp : p.Finds C) (hd : C.Cuts cs d) : p.replace put cs = d.render put := by
  rw [← hd.text_eq, replace, hp.segments_eq hd.leftmost, Division.flatMap_render_pieces]

theorem Finds.replaceFirst_eq (hp : p.Finds C) (hd : C.Cuts cs d) :
    p.replaceFirst put cs = (d.settleFirst put).text := by
  rw [← hd.text_eq, replaceFirst, hp.segments_eq hd.leftmost, Division.renderFirst_pieces]

/-- Replacing the first occurrence settles it. -/
theorem Finds.cuts_replaceFirst (hp : p.Finds C) (hC : C.Anywhere) (hs : C.Settles put)
    (hd : C.Cuts cs d) : C.Cuts (p.replaceFirst put cs) (d.settleFirst put) :=
  ⟨(hp.replaceFirst_eq hd).symm, hd.leftmost.settleFirst hC hs⟩

/-- Replacing one occurrence after the other settles as many of them. -/
theorem Finds.cuts_iterate_replaceFirst (hp : p.Finds C) (hC : C.Anywhere) (hs : C.Settles put)
    (hd : C.Cuts cs d) (n : Nat) :
    C.Cuts ((p.replaceFirst put)^[n] cs) ((Division.settleFirst put)^[n] d) := by
  induction n with
  | zero => exact hd
  | succ n ih =>
    rw [Function.iterate_succ_apply', Function.iterate_succ_apply']
    exact hp.cuts_replaceFirst hC hs ih

end Pattern

end OneByOne

end ShaderPreview
