import Mathlib.Algebra.Field.Rat
import Mathlib.Data.List.Induction
import Mathlib.Data.Nat.Cast.Order.Ring
import Mathlib.Tactic.FieldSimp
import ShaderPreview.Decimal.Whole
import ShaderPreview.Proofs.Pattern.Openings
import ShaderPreview.Proofs.Pattern.Spellings

/-!
# What a loop counts

A header that counts in floats gets an integer counter, and the digits of its bounds are copied.  But
digits do not stand for the same number in both kinds of literals: a whole number of several digits
that starts with a zero is octal.  So the two loops need not run through the same numbers, and the new
header may even be one that no compiler accepts.

* `Literal.whole?`, `Literal.decimal?`: the numbers that literals of both kinds stand for;
* `NumberType.header?`: reads a loop header that counts in a type of numbers;
* `Visits`: the numbers that such a loop runs through;
* `SameRun`: a header in whole numbers counts what a header in floats counts;
* `Literal.value_eq_iff`: the digits that stand for one number in both kinds of literals;
* `countInWholeNumbers_sameRun_iff`: the loops that keep their run.
-/

namespace ShaderPreview

open Text

/-! ## Literals -/

namespace Literal

open Decimal

/-- The number that digits stand for in a base. -/
def valueIn (base : Nat) (ds : List Char) : Nat :=
  ds.foldl (fun n c => base * n + digitValue c) 0

/-- A whole number of several digits that starts with a zero is octal. -/
def base (ds : List Char) : Nat :=
  if ds.head? = some '0' ∧ 1 < ds.length then 8 else 10

/-- All digits are below the base. -/
def WellFormed (ds : List Char) : Prop :=
  ∀ c ∈ ds, digitValue c < base ds

instance (ds : List Char) : Decidable (WellFormed ds) :=
  List.decidableBAll (fun c => digitValue c < base ds) ds

/-- The value of digits as a whole number. -/
def value (ds : List Char) : Nat :=
  valueIn (base ds) ds

/-- The number that a literal of whole numbers stands for. -/
def whole? (ds : List Char) : Option Nat :=
  if ds ≠ [] ∧ ds.all Char.isDigit ∧ WellFormed ds then some (value ds) else none

/-- The number that a literal with a decimal point stands for. -/
def decimal? (cs : List Char) : Option Rat :=
  match Read.run Char.isDigit cs with
  | (whole, '.' :: fraction) =>
    if whole ++ fraction ≠ [] ∧ fraction.all Char.isDigit then
      some (ofDigits (whole ++ fraction) / 10 ^ fraction.length)
    else none
  | _ => none

variable {ds : List Char} {c : Char} {s : String}

theorem valueIn_concat (base : Nat) (ds : List Char) (c : Char) :
    valueIn base (ds ++ [c]) = base * valueIn base ds + digitValue c := by
  rw [valueIn, List.foldl_append]
  rfl

theorem digitValue_eq_zero_iff (hc : c.isDigit = true) : digitValue c = 0 ↔ c = '0' := by
  have hbounds : '0'.toNat ≤ c.toNat ∧ c.toNat ≤ '9'.toNat := Char.isDigit_iff_toNat.1 hc
  rw [digitValue, ← Char.toNat_inj]
  omega

/-- Digits stand for zero when they are all zeros. -/
theorem valueIn_eq_zero_iff {b : Nat} (hb : 0 < b) (hds : Within Char.isDigit ds) :
    valueIn b ds = 0 ↔ ∀ c ∈ ds, c = '0' := by
  induction ds using List.reverseRecOn with
  | nil => simp [valueIn]
  | append_singleton ds c ih =>
    obtain ⟨hds, hc⟩ := within_append.1 hds
    have hc : c.isDigit = true := hc c (List.mem_singleton_self c)
    rw [valueIn_concat, Nat.add_eq_zero_iff, Nat.mul_eq_zero, ih hds, digitValue_eq_zero_iff hc]
    simp only [hb.ne', false_or, List.forall_mem_append, List.forall_mem_singleton]

/-- In a smaller base digits do not stand for more. -/
theorem valueIn_le_valueIn {b b' : Nat} (h : b ≤ b') (ds : List Char) : valueIn b ds ≤ valueIn b' ds := by
  induction ds using List.reverseRecOn with
  | nil => exact le_refl _
  | append_singleton ds c ih =>
    rw [valueIn_concat, valueIn_concat]
    exact Nat.add_le_add_right (Nat.mul_le_mul h ih) _

/-- Octal digits stand for what they stand for in decimal, if only the last is no zero. -/
theorem valueIn_eight_eq_iff (hds : Within Char.isDigit ds) :
    valueIn 8 ds = ofDigits ds ↔ ∀ c ∈ ds.dropLast, c = '0' := by
  change valueIn 8 ds = valueIn 10 ds ↔ _
  induction ds using List.reverseRecOn with
  | nil => simp [valueIn]
  | append_singleton ds c ih =>
    have hle := valueIn_le_valueIn (by decide : 8 ≤ 10) ds
    -- `8 * x = 10 * y` with `x ≤ y` leaves only `y = 0`
    rw [List.dropLast_concat, ← valueIn_eq_zero_iff (by decide : 0 < 10) (within_append.1 hds).1,
      valueIn_concat, valueIn_concat]
    omega

/-- Digits stand for the same number in both kinds of literals if they are not octal, or if only the
last of them is no zero. -/
theorem value_eq_iff (hds : Within Char.isDigit ds) :
    value ds = ofDigits ds ↔ base ds = 8 → ∀ c ∈ ds.dropLast, c = '0' := by
  unfold value
  rcases (by unfold base; split <;> simp : base ds = 8 ∨ base ds = 10) with hb | hb
  · rw [hb, valueIn_eight_eq_iff hds]
    simp
  · rw [hb]
    exact iff_of_true rfl (fun h => absurd h (by decide))

theorem whole?_eq_some_iff (hs : FloatLoop.IsNumeral s) {n : Nat} :
    whole? s.toList = some n ↔ WellFormed s.toList ∧ value s.toList = n := by
  have hall : s.toList.all Char.isDigit = true := List.all_eq_true.2 hs.within
  rw [whole?, ite_eq_iff]
  simp [hs.isWord.toList_ne_nil, hall]

/-- A whole number with `.0` behind it is that number in decimal. -/
theorem decimal?_numeral (hs : FloatLoop.IsNumeral s) :
    decimal? (s.toList ++ ".0".toList) = some (ofDigits s.toList : Rat) := by
  have hpoint : ".0".toList = ['.', '0'] := by decide
  have hrun : Read.run Char.isDigit (s.toList ++ ['.', '0']) = (s.toList, ['.', '0']) := by
    obtain ⟨htake, hdrop⟩ :=
      run_eq_iff.2 ⟨hs.within, (by decide : Stops Char.isDigit ['.', '0']), rfl⟩
    exact Prod.ext htake.symm hdrop.symm
  have hdigits : s.toList ++ ['0'] ≠ [] ∧ ['0'].all Char.isDigit = true := ⟨by simp, by decide⟩
  have hvalue : ofDigits (s.toList ++ ['0']) = 10 * ofDigits s.toList := valueIn_concat 10 _ _
  rw [hpoint, decimal?, hrun]
  refine (if_pos hdigits).trans (congrArg some ?_)
  rw [hvalue, List.length_singleton]
  push_cast
  field_simp

end Literal

/-! ## Headers -/

/-- The characters that literals are made of. -/
def isLiteralChar (c : Char) : Bool :=
  isWordChar c || c == '.'

/-- A type of numbers: its name, and the numbers that its literals stand for. -/
structure NumberType (K : Type) where
  name : String
  value? : List Char → Option K
  isWord : IsWord name

/-- The counter of a loop, and the numbers that bound it. -/
structure Count (K : Type) where
  counter : String
  start : K
  stop : K
  deriving DecidableEq

/-- Reads the header of a loop that counts up to a bound, one by one, with its literals as they
stand. -/
def Count.read? (type : String) (cs : List Char) : Option (Count (List Char) × List Char) := do
  let cs ← Read.literal? "for" cs
  let cs ← Read.literal? "(" (Read.blanks cs)
  let cs ← Read.literal? type (Read.blanks cs)
  let cs ← Read.blanks1? cs
  let (counter, cs) ← Read.word? (· != "") cs
  let cs ← Read.literal? "=" (Read.blanks cs)
  let (start, cs) ← Read.run1? isLiteralChar (Read.blanks cs)
  let cs ← Read.literal? ";" (Read.blanks cs)
  let (_, cs) ← Read.word? (· == counter) (Read.blanks cs)
  let cs ← Read.literal? "<" (Read.blanks cs)
  let (stop, cs) ← Read.run1? isLiteralChar (Read.blanks cs)
  let cs ← Read.literal? ";" (Read.blanks cs)
  let (_, cs) ← Read.word? (· == counter) (Read.blanks cs)
  let cs ← Read.literal? "++" (Read.blanks cs)
  let cs ← Read.literal? ")" (Read.blanks cs)
  return (⟨counter, start, stop⟩, cs)

namespace NumberType

/-- The whole numbers of a shader. -/
def int : NumberType Nat where
  name := "int"
  value? := Literal.whole?
  isWord := ⟨by decide, by decide⟩

/-- The floats of a shader, which are not rounded here. -/
def float : NumberType Rat where
  name := "float"
  value? := Literal.decimal?
  isWord := ⟨by decide, by decide⟩

variable {K : Type}

/-- Reads the header of a loop that counts in a type of numbers. -/
def header? (t : NumberType K) (cs : List Char) : Option (Count K × List Char) := do
  let (k, rest) ← Count.read? t.name cs
  return (⟨k.counter, ← t.value? k.start, ← t.value? k.stop⟩, rest)

end NumberType

namespace FloatLoop

variable {l : FloatLoop} {s ending : String} {ps : List Part} {cs rest : List Char}

/-- The parts of a header in a type of numbers whose literals have an ending behind their digits. -/
def typedParts (l : FloatLoop) (type ending : String) : List Part :=
  [.text "for", .blanks, .text "(", .blanks, .text type, .gap, .text l.counter, .blanks,
   .text "=", .blanks, .text l.start, .text ending, .blanks, .text ";", .blanks,
   .text l.counter, .blanks, .text "<", .blanks, .text l.stop, .text ending, .blanks, .text ";",
   .blanks, .text l.counter, .blanks, .text "++", .blanks, .text ")"]

/-- The header in whole numbers has nothing behind the digits of its literals. -/
theorem reads_typed_header (l : FloatLoop) : Reads (l.typedParts "int" "") l.header [] := by
  have hclose : "++)".toList = "++".toList ++ ")".toList := by decide
  have hempty {ps : List Part} {cs rest : List Char} (h : Reads ps cs rest) :
      Reads (.text "" :: .blanks :: ps) cs rest := ⟨cs, rfl, h.no_blanks⟩
  rw [header_eq, hclose]
  exact .text_append <| .space <| .text_append <| .no_blanks <| .text_append <| .space_gap <|
    .text_append <| .space <| .text_append <| .space <| .text_append <| hempty <| .text_append <|
    .space <| .text_append <| .space <| .text_append <| .space <| .text_append <| hempty <|
    .text_append <| .space <| .text_append <| .no_blanks <| .text_append <| .no_blanks <|
    reads_text_last _

/-- The digits of a bound and their ending are one literal. -/
theorem run1?_of_reads (hs : IsNumeral s) (hending : Within isLiteralChar ending.toList)
    (h : Reads (.text s :: .text ending :: .blanks :: .text ";" :: ps) cs rest) :
    ∃ mid, Read.run1? isLiteralChar cs = some (s.toList ++ ending.toList, mid) ∧
      Reads (.blanks :: .text ";" :: ps) mid rest := by
  obtain ⟨_, rfl, mid, rfl, h⟩ := h
  refine ⟨mid, Read.run1?_iff.2 ⟨?_, within_append.2 ⟨?_, hending⟩, ?_, ?_⟩, h⟩
  · simp [hs.isWord.toList_ne_nil]
  · exact hs.isWord.within.mono fun c hc => by simp [isLiteralChar, hc]
  · obtain ⟨b, _, hb, rfl, _, rfl, -⟩ := h
    refine hb.stops_append (fun c hc => ?_) (by exact rfl)
    rw [isLiteralChar, isWordChar_of_isBlank hc, Bool.false_or, beq_eq_false_iff_ne]
    rintro rfl
    exact absurd hc (by decide)
  · exact (List.append_assoc ..).symm

theorem count_read?_of_reads {type : String} (hl : l.Proper) (htype : IsWord type)
    (hending : Within isLiteralChar ending.toList) (h : Reads (l.typedParts type ending) cs rest) :
    Count.read? type cs =
      some (⟨l.counter, l.start.toList ++ ending.toList, l.stop.toList ++ ending.toList⟩, rest) := by
  have hc : (l.counter == l.counter) = true := beq_self_eq_true _
  obtain ⟨_, h₁, h⟩ := h.literal?
  obtain ⟨_, h₂, h⟩ := (h.blanks rfl).literal?
  obtain ⟨_, h₃, h⟩ := (h.blanks htype.solid).literal?
  obtain ⟨_, h₄, h⟩ := h.blanks1? hl.counter.solid
  obtain ⟨_, h₅, h⟩ := h.word? (· != "") (bne_iff_ne.2 hl.counter.ne_empty) hl.counter.within rfl
  obtain ⟨_, h₆, h⟩ := (h.blanks rfl).literal?
  obtain ⟨_, h₇, h⟩ := run1?_of_reads hl.start hending (h.blanks hl.start.isWord.solid)
  obtain ⟨_, h₈, h⟩ := (h.blanks rfl).literal?
  obtain ⟨_, h₉, h⟩ := (h.blanks hl.counter.solid).word? (· == l.counter) hc hl.counter.within rfl
  obtain ⟨_, h₁₀, h⟩ := (h.blanks rfl).literal?
  obtain ⟨_, h₁₁, h⟩ := run1?_of_reads hl.stop hending (h.blanks hl.stop.isWord.solid)
  obtain ⟨_, h₁₂, h⟩ := (h.blanks rfl).literal?
  obtain ⟨_, h₁₃, h⟩ := (h.blanks hl.counter.solid).word? (· == l.counter) hc hl.counter.within rfl
  obtain ⟨_, h₁₄, h⟩ := (h.blanks rfl).literal?
  obtain ⟨_, h₁₅, rfl⟩ := (h.blanks rfl).literal?
  simp only [Count.read?, h₁, h₂, h₃, h₄, h₅, h₆, h₇, h₈, h₉, h₁₀, h₁₁, h₁₂, h₁₃, h₁₄, h₁₅,
    Option.bind_eq_bind, Option.bind_some, Option.pure_def]

/-- The bounds of a header are the values of its literals, if they have values. -/
theorem header?_eq_some_iff {K : Type} {t : NumberType K} (hl : l.Proper)
    (hending : Within isLiteralChar ending.toList) (h : Reads (l.typedParts t.name ending) cs [])
    {k : Count K} :
    t.header? cs = some (k, []) ↔ k.counter = l.counter ∧
      t.value? (l.start.toList ++ ending.toList) = some k.start ∧
      t.value? (l.stop.toList ++ ending.toList) = some k.stop := by
  rw [NumberType.header?, count_read?_of_reads hl t.isWord hending h]
  simp only [Option.bind_eq_bind, Option.bind_some, Option.bind_eq_some_iff, Option.pure_def,
    Option.some.injEq, Prod.mk.injEq, and_true]
  constructor
  · rintro ⟨a, ha, b, hb, rfl⟩
    exact ⟨rfl, ha, hb⟩
  · rintro ⟨hcounter, hstart, hstop⟩
    exact ⟨_, hstart, _, hstop, by rw [← hcounter]⟩

/-- A header in floats bounds its counter by what its digits stand for in decimal. -/
theorem header?_float {m : List Char} (hl : l.Proper) (hm : Reads l.parts m []) :
    NumberType.float.header? m =
      some (⟨l.counter, Decimal.ofDigits l.start.toList, Decimal.ofDigits l.stop.toList⟩, []) := by
  have hm' : Reads (l.typedParts NumberType.float.name ".0") m [] := hm
  exact (header?_eq_some_iff hl (by decide) hm').2
    ⟨rfl, Literal.decimal?_numeral hl.start, Literal.decimal?_numeral hl.stop⟩

/-- The header in whole numbers bounds its counter by what the digits stand for as whole numbers, if
they are well formed. -/
theorem header?_header (hl : l.Proper) {k : Count Nat} :
    NumberType.int.header? l.header = some (k, []) ↔
      (Literal.WellFormed l.start.toList ∧ Literal.WellFormed l.stop.toList) ∧
        k = ⟨l.counter, Literal.value l.start.toList, Literal.value l.stop.toList⟩ := by
  have hm : Reads (l.typedParts NumberType.int.name "") l.header [] := l.reads_typed_header
  rw [header?_eq_some_iff hl (by decide) hm, String.toList_empty, List.append_nil, List.append_nil]
  obtain ⟨counter, start, stop⟩ := k
  simp only [NumberType.int, Literal.whole?_eq_some_iff hl.start, Literal.whole?_eq_some_iff hl.stop,
    Count.mk.injEq]
  constructor
  · rintro ⟨rfl, ⟨hstart, rfl⟩, hstop, rfl⟩
    exact ⟨⟨hstart, hstop⟩, rfl, rfl, rfl⟩
  · rintro ⟨⟨hstart, hstop⟩, rfl, rfl, rfl⟩
    exact ⟨rfl, ⟨hstart, rfl⟩, hstop, rfl⟩

end FloatLoop

/-! ## Runs -/

section Visits

variable {K : Type} [LT K] [Add K] [One K]

/-- A loop whose counter stands at a number and goes up, one by one, as long as it is below a bound,
runs through a list of numbers. -/
inductive Visits (bound : K) : K → List K → Prop
  | done {i : K} : ¬ i < bound → Visits bound i []
  | next {i : K} {is : List K} : i < bound → Visits bound (i + 1) is → Visits bound i (i :: is)

variable {bound i j : K} {is : List K}

@[simp] theorem visits_nil : Visits bound i [] ↔ ¬ i < bound :=
  ⟨fun | .done h => h, .done⟩

@[simp] theorem visits_cons :
    Visits bound i (j :: is) ↔ j = i ∧ i < bound ∧ Visits bound (i + 1) is := by
  constructor
  · rintro (_ | ⟨hlt, h⟩)
    exact ⟨rfl, hlt, h⟩
  · rintro ⟨rfl, hlt, h⟩
    exact .next hlt h

end Visits

/-- Whole numbers are visited one after the other. -/
theorem visits_iff {a b : Nat} {is : List Nat} : Visits b a is ↔ is = List.range' a (b - a) := by
  induction is generalizing a with
  | nil =>
    rw [visits_nil, eq_comm, List.range'_eq_nil_iff]
    omega
  | cons i is ih =>
    rw [visits_cons, ih]
    by_cases hlt : a < b
    · obtain ⟨n, hn⟩ : ∃ n, b - a = n + 1 := ⟨b - a - 1, by omega⟩
      rw [hn, List.range'_succ, List.cons.injEq, show b - (a + 1) = n by omega]
      simp [hlt]
    · rw [show b - a = 0 by omega]
      simp [hlt]

/-- Between whole bounds the floats that are visited are whole numbers. -/
theorem visits_cast_iff {a b : Nat} {is : List Nat} :
    Visits (b : Rat) (a : Rat) (is.map Nat.cast) ↔ Visits b a is := by
  induction is generalizing a with
  | nil => simp
  | cons i is ih =>
    rw [List.map_cons, visits_cons, visits_cons, ← ih, Nat.cast_inj, Nat.cast_lt, Nat.cast_add_one]

/-- Two ranges are equal if their bounds are, or if both are empty. -/
theorem range'_sub_eq_iff {a b a' b' : Nat} :
    List.range' a (b - a) = List.range' a' (b' - a') ↔ a = a' ∧ b = b' ∨ b ≤ a ∧ b' ≤ a' := by
  constructor
  · intro h
    have hlength : b - a = b' - a' := by simpa using congrArg List.length h
    by_cases hlt : a < b
    · have hmem : a ∈ List.range' a' (b' - a') ∧ a' ∈ List.range' a (b - a) :=
        ⟨h ▸ List.mem_range'_1.2 (by omega), h ▸ List.mem_range'_1.2 (by omega)⟩
      rw [List.mem_range'_1, List.mem_range'_1] at hmem
      omega
    · omega
  · rintro (⟨rfl, rfl⟩ | ⟨h, h'⟩)
    · rfl
    · rw [Nat.sub_eq_zero_of_le h, Nat.sub_eq_zero_of_le h']
      rfl

/-- The loop with a header runs its counter through a list of numbers. -/
def NumberType.Runs {K : Type} [LT K] [Add K] [One K] (t : NumberType K) (m : List Char)
    (counter : String) (is : List K) : Prop :=
  ∃ start stop, t.header? m = some (⟨counter, start, stop⟩, []) ∧ Visits stop start is

/-- Two headers, the one in floats and the other in whole numbers, run the same counter through the
same whole numbers. -/
def SameRun (m m' : List Char) : Prop :=
  ∃ (counter : String) (is : List Nat),
    NumberType.float.Runs m counter (is.map Nat.cast) ∧ NumberType.int.Runs m' counter is

section SameRun

variable {l : FloatLoop} {m : List Char}

/-- A header that is replaced keeps its run if both bounds keep their values, or if there is nothing to
run through before and after. -/
theorem FloatLoop.sameRun_iff (h : FloatLoop.pattern.read? m = some (l, [])) :
    SameRun m l.header ↔
      (Literal.WellFormed l.start.toList ∧ Literal.WellFormed l.stop.toList) ∧
        (Literal.value l.start.toList = Decimal.ofDigits l.start.toList ∧
          Literal.value l.stop.toList = Decimal.ofDigits l.stop.toList ∨
          Literal.value l.stop.toList ≤ Literal.value l.start.toList ∧
            Decimal.ofDigits l.stop.toList ≤ Decimal.ofDigits l.start.toList) := by
  obtain ⟨hl, hm⟩ := reads_of_read? h
  rw [← range'_sub_eq_iff]
  constructor
  · rintro ⟨counter, is, ⟨a, b, hfloat, hvisits⟩, a', b', hint, hvisits'⟩
    rw [header?_float hl hm] at hfloat
    obtain ⟨hformed, heq⟩ := (header?_header hl).1 hint
    cases hfloat
    cases heq
    rw [visits_cast_iff, visits_iff] at hvisits
    exact ⟨hformed, (visits_iff.1 hvisits').symm.trans hvisits⟩
  · rintro ⟨hformed, heq⟩
    exact ⟨l.counter, _, ⟨_, _, header?_float hl hm, visits_cast_iff.2 (visits_iff.2 rfl)⟩,
      _, _, (header?_header hl).2 ⟨hformed, rfl⟩, visits_iff.2 heq.symm⟩

/-- The digits are well formed as a whole number, and stand for the same number with and without a
decimal point: if they are octal, only the last of them is no zero. -/
def Literal.Alike (ds : List Char) : Prop :=
  WellFormed ds ∧ (base ds = 8 → ∀ c ∈ ds.dropLast, c = '0')

instance (ds : List Char) : Decidable (Literal.Alike ds) :=
  letI : Decidable (∀ c ∈ ds.dropLast, c = '0') := List.decidableBAll (· = '0') ds.dropLast
  inferInstanceAs (Decidable (_ ∧ _))

theorem Literal.alike_iff {ds : List Char} (hds : Within Char.isDigit ds) :
    Alike ds ↔ WellFormed ds ∧ value ds = Decimal.ofDigits ds := by
  rw [Alike, value_eq_iff hds]

/-- A piece with an occurrence is read where it stands. -/
theorem Pattern.exists_read?_of_mem_segments {α : Type} {p : Pattern α} {cs m : List Char} {a : α}
    (h : Piece.found m a ∈ p.segments cs) : ∃ rest, p.read? (m ++ rest) = some (a, rest) := by
  fun_induction segments p cs with
  | case1 => exact absurd h List.not_mem_nil
  | case2 c cs b rest hread ih =>
    rcases List.mem_cons.1 h with heq | h
    · obtain ⟨rfl, rfl⟩ := Piece.found.inj heq
      exact ⟨rest, by rwa [take_append_of_read? hread]⟩
    · exact ih h
  | case3 c cs hread ih =>
    rcases List.mem_cons.1 h with heq | h
    · cases heq
    · exact ih h

/-- Each header that is replaced, be it in the middle of a text, is replaced by one in whole numbers.
That is a header if no octal bound has an eight or a nine.  Its loop runs through the same numbers as
before if the bounds are alike with and without a decimal point, or if both loops run through none. -/
theorem countInWholeNumbers_sameRun_iff {cs : List Char} {ps qs : List (Piece FloatLoop)}
    (h : FloatLoop.pattern.segments cs = ps ++ .found m l :: qs) :
    cs = ps.flatMap Piece.text ++ (m ++ qs.flatMap Piece.text) ∧
      countInWholeNumbers cs = ps.flatMap (Piece.render FloatLoop.header) ++
        (l.header ++ qs.flatMap (Piece.render FloatLoop.header)) ∧
      ((∃ k, NumberType.int.header? l.header = some (k, [])) ↔
        Literal.WellFormed l.start.toList ∧ Literal.WellFormed l.stop.toList) ∧
      (SameRun m l.header ↔
        Literal.Alike l.start.toList ∧ Literal.Alike l.stop.toList ∨
          (Literal.WellFormed l.start.toList ∧ Literal.WellFormed l.stop.toList) ∧
            Literal.value l.stop.toList ≤ Literal.value l.start.toList ∧
            Decimal.ofDigits l.stop.toList ≤ Decimal.ofDigits l.start.toList) := by
  obtain ⟨rest, hread⟩ := Pattern.exists_read?_of_mem_segments (h ▸ List.mem_append_cons_self)
  have hm := FloatLoop.spelling.read?_append hread []
  rw [List.append_nil] at hm
  obtain ⟨hl, -⟩ := FloatLoop.reads_of_read? hm
  refine ⟨?_, ?_, ?_, ?_⟩
  · rw [← FloatLoop.pattern.flatMap_text_segments cs, h, List.flatMap_append, List.flatMap_cons,
      Piece.text_found]
  · rw [countInWholeNumbers, Pattern.replace, h, List.flatMap_append, List.flatMap_cons,
      Piece.render_found]
  · simp only [FloatLoop.header?_header hl, exists_and_left, exists_eq, and_true]
  · rw [FloatLoop.sameRun_iff hm, Literal.alike_iff hl.start.within,
      Literal.alike_iff hl.stop.within, and_or_left]
    exact or_congr_left and_and_and_comm

/-- A bound with zeros in front keeps the run if one digit is left of it. -/
theorem countInWholeNumbers_sameRun_of_zeros :
    FloatLoop.pattern.segments ";for(float k=007.0;k<12.0 ;k ++ )".toList =
        [.plain ';'] ++ [.found "for(float k=007.0;k<12.0 ;k ++ )".toList ⟨"k", "007", "12"⟩] ∧
      SameRun "for(float k=007.0;k<12.0 ;k ++ )".toList "for (int k = 007; k < 12; k++)".toList := by
  have hsegments : FloatLoop.pattern.segments ";for(float k=007.0;k<12.0 ;k ++ )".toList =
      [.plain ';'] ++ [.found "for(float k=007.0;k<12.0 ;k ++ )".toList ⟨"k", "007", "12"⟩] := by
    decide +kernel
  obtain ⟨-, -, -, hrun⟩ := countInWholeNumbers_sameRun_iff hsegments
  exact ⟨hsegments, hrun.2 (Or.inl ⟨by decide, by decide⟩)⟩

/-- A loop from zero up to `010.0` runs ten times.  Its counter in whole numbers goes up to `010`, which
is eight; and `08` is no number at all. -/
theorem octal_bound_changes_run :
    countInWholeNumbers "for (float i = 0.0; i < 010.0; i++)".toList =
        "for (int i = 0; i < 010; i++)".toList ∧
      NumberType.float.Runs "for (float i = 0.0; i < 010.0; i++)".toList "i"
        ((List.range 10).map Nat.cast) ∧
      NumberType.int.Runs "for (int i = 0; i < 010; i++)".toList "i" (List.range 8) ∧
      ¬ SameRun "for (float i = 0.0; i < 010.0; i++)".toList "for (int i = 0; i < 010; i++)".toList ∧
      countInWholeNumbers "for (float i = 0.0; i < 08.0; i++)".toList =
        "for (int i = 0; i < 08; i++)".toList ∧
      NumberType.int.header? "for (int i = 0; i < 08; i++)".toList = none := by
  have hread : FloatLoop.pattern.read? "for (float i = 0.0; i < 010.0; i++)".toList =
      some (⟨"i", "0", "010"⟩, []) := by
    decide +kernel
  obtain ⟨hl, hm⟩ := FloatLoop.reads_of_read? hread
  refine ⟨by decide +kernel, ⟨0, 10, FloatLoop.header?_float hl hm, ?_⟩,
    ⟨0, 8, by decide +kernel, visits_iff.2 rfl⟩, ?_, by decide +kernel, by decide +kernel⟩
  · exact_mod_cast visits_cast_iff.2 (visits_iff.2 rfl)
  · exact fun h => absurd ((FloatLoop.sameRun_iff hread).1 h) (by decide)

end SameRun

end ShaderPreview
