import Mathlib.Algebra.Ring.Nat
import Mathlib.Data.List.Induction
import ShaderPreview.Proofs.Diagnostic
import ShaderPreview.Proofs.Pattern.Division

/-!
# Mapping a whole log back

A log refers to any number of lines, with any text between the references.  Listing the lines and
mapping them back are two searches of their own; both cut the log in the same way, at all of its
references, and mapping back puts a label in the place of each.  A label is no reference and makes none
with its surroundings, so a log that was mapped back has none left.

* `Decimal.length_digits_le_iff`, `Decimal.ofDigits_lt`: how large a number of so many digits is;
* `Diagnostic.Convertible`: what it takes to map one line back;
* `Diagnostic.settles_reference`: labels make no references;
* `Diagnostic.toUserLines_eq_render`, `Diagnostic.lines_eq_values`: the two searches;
* `Diagnostic.toUserLines_eq_error_iff`: with a sensible offset, both fail alike;
* `Diagnostic.toUserLines_exact`: all of this, for every log.
-/

namespace ShaderPreview

open Text

/-! ## Numbers and their digits -/

namespace Decimal

variable {n count : Nat} {ds : List Char}

theorem length_digits_le_iff (hcount : 0 < count) :
    (digits n).length ≤ count ↔ n < 10 ^ count := by
  induction count generalizing n with
  | zero => exact absurd hcount (Nat.lt_irrefl 0)
  | succ count ih =>
    have hpos : 0 < 10 ^ count := Nat.pow_pos (by decide)
    rw [digits, Nat.pow_succ]
    split
    · next h =>
      rw [List.length_singleton]
      omega
    · next h =>
      rw [List.length_append, List.length_singleton, Nat.succ_le_succ_iff]
      by_cases hzero : count = 0
      · have hne := List.length_pos_iff.2 (digits_ne_nil (n / 10))
        rw [hzero] at hpos ⊢
        omega
      · rw [ih (Nat.pos_of_ne_zero hzero)]
        omega

theorem ofDigits_lt (h : Within Char.isDigit ds) : ofDigits ds < 10 ^ ds.length := by
  induction ds using List.reverseRecOn with
  | nil => decide
  | append_singleton ds c ih =>
    obtain ⟨hds, hc⟩ := within_append.1 h
    have hbounds : 48 ≤ c.toNat ∧ c.toNat ≤ 57 := Char.isDigit_iff_toNat.1 (within_cons.1 hc).1
    have hzero : '0'.toNat = 48 := rfl
    have hvalue : ofDigits (ds ++ [c]) = 10 * ofDigits ds + digitValue c := List.foldl_append
    have hlt := ih hds
    rw [hvalue, digitValue, List.length_append, List.length_singleton, Nat.pow_succ]
    omega

theorem readNat_of_le (h : ds.length ≤ digitLimit) : readNat ds = .ok (ofDigits ds) :=
  if_neg (Nat.not_lt.2 h)

theorem readNat_of_lt (h : digitLimit < ds.length) : readNat ds = .error (.reading ds.length) :=
  if_pos h

theorem writeInt_of_lt {z : Int} (h : z.natAbs < 10 ^ digitLimit) : writeInt z = .ok (intText z) :=
  if_neg (Nat.not_lt.2 ((length_digits_le_iff (by decide)).2 h))

theorem writeInt_of_le {z : Int} (h : 10 ^ digitLimit ≤ z.natAbs) :
    writeInt z = .error .writing := by
  refine if_pos (Nat.not_le.1 fun hle => ?_)
  exact absurd ((length_digits_le_iff (by decide)).1 hle) (Nat.not_lt.2 h)

end Decimal

namespace Diagnostic

open Decimal

variable {log m k ds : List Char} {offset : Int} {d : Division (List Char)}

/-! ## References and labels -/

theorem Refers.exists_cons (h : Refers m ds) : ∃ t, m = 'E' :: t ∧ 'E' ∉ t := by
  obtain ⟨b, n, -, hb, -, hn, -, hds, rfl⟩ := h
  have hblank : 'E' ∉ b := hb.not_mem (by decide)
  have hdigit : 'E' ∉ n := hn.not_mem (by decide)
  have hdigit' : 'E' ∉ ds := hds.not_mem (by decide)
  exact ⟨"RROR:".toList ++ (b ++ (n ++ ':' :: (ds ++ [':']))), rfl,
    by simp [hblank, hdigit, hdigit']⟩

/-- The references to lines, with the digits of the line. -/
def reference : Construct (List Char) where
  Is _ m ds := Refers m ds
  ne_nil h := by
    obtain ⟨t, rfl, -⟩ := h.exists_cons
    exact List.cons_ne_nil _ _
  unique := by
    intro x m m' k k' ds ds' h h' heq
    have hread := read?_append_iff (k := k).2 h
    rw [heq, read?_append_iff (k := k').2 h', Option.some.injEq, Prod.mk.injEq] at hread
    obtain ⟨rfl, rfl⟩ := hread
    exact ⟨(List.append_left_inj _).1 heq, rfl⟩

theorem finds_reference : pattern.Finds reference :=
  read?_append_iff

theorem startsWith_reference : reference.StartsWith 'E' :=
  Refers.exists_cons

/-- The label of the user's line for the digits of a line. -/
def userLabel (offset : Int) (ds : List Char) : List Char :=
  label (intText (ofDigits ds - offset))

/-- A number is written without a capital letter. -/
theorem not_mem_intText (z : Int) : 'E' ∉ (intText z).toList := by
  have hdigits (n : Nat) : 'E' ∉ digits n := (within_digits n).not_mem (by decide)
  cases z with
  | ofNat n => simpa [intText] using hdigits n
  | negSucc n => simpa [intText] using hdigits (n + 1)

theorem exists_userLabel_eq (offset : Int) (ds : List Char) :
    ∃ t, userLabel offset ds = 'E' :: ("RROR: L".toList ++ t) ∧ 'E' ∉ t := by
  refine ⟨"ine ".toList ++ (intText (ofDigits ds - offset)).toList ++ ":".toList, rfl, ?_⟩
  simp [not_mem_intText]

/-- A label is no reference: behind its blank stands no digit. -/
theorem not_refers_of_prefix_label {t : List Char} (hm : m <+: 'E' :: ("RROR: L".toList ++ t)) :
    ¬ Refers m ds := by
  rintro ⟨b, n, -, hblank, hn, hdigit, -, -, rfl⟩
  obtain ⟨k, hk⟩ := hm
  have hsplit : 'E' :: ("RROR: L".toList ++ t) = "ERROR:".toList ++ ([' '] ++ 'L' :: t) := rfl
  rw [hsplit, List.append_assoc, List.append_cancel_left_eq, List.append_assoc] at hk
  obtain ⟨c, n, rfl⟩ := List.exists_cons_of_ne_nil hn
  have hc : c.isDigit = true := (within_cons.1 hdigit).1
  have hstops : isBlank c = false := isBlank_of_isWordChar (isWordChar_of_isDigit hc)
  obtain ⟨-, heq⟩ := run_unique hk hblank (stops_cons.2 hstops) (by decide)
    (stops_cons.2 (by decide))
  obtain ⟨rfl, -⟩ := List.cons.inj heq
  exact absurd hc (by decide)

/-- Labels make no references. -/
theorem settles_reference (offset : Int) : reference.Settles (userLabel offset) where
  before := by
    intro x m ds _ y v t k b hv his ht
    obtain ⟨l, hl, -⟩ := exists_userLabel_eq offset ds
    obtain ⟨t, rfl, hnot⟩ := Refers.exists_cons his
    rw [hl] at ht
    exact prefix_of_prefix_append_cons hv hnot ht
  inside := by
    intro x m ds _ y k
    obtain ⟨l, hl, hnot⟩ := exists_userLabel_eq offset ds
    rw [hl]
    refine Construct.absent_cons.2 ⟨fun m ds' hm => ?_, startsWith_reference.absent ?_⟩
    · exact not_refers_of_prefix_label (t := l ++ k) (by rwa [← List.append_assoc])
    · simp [hnot]
  behind := fun _ _ _ _ _ h => h

/-! ## The two searches -/

/-- The line can be read, and the user's line can be written. -/
structure Convertible (offset : Int) (ds : List Char) : Prop where
  length_le : ds.length ≤ digitLimit
  natAbs_lt : (ofDigits ds - offset).natAbs < 10 ^ digitLimit

theorem userPiece_found_of_convertible (h : Convertible offset ds) (m : List Char) :
    userPiece offset (.found m ds) = .ok (userLabel offset ds) := by
  rw [userPiece, readNat_of_le h.length_le]
  show (do let text ← writeInt (ofDigits ds - offset); return label text) = _
  rw [writeInt_of_lt h.natAbs_lt]
  rfl

theorem convertible_of_userPiece_found {t : List Char}
    (h : userPiece offset (.found m ds) = .ok t) : Convertible offset ds := by
  rw [userPiece] at h
  have hlength : ds.length ≤ digitLimit := by
    refine Nat.not_lt.1 fun hlt => ?_
    rw [readNat_of_lt hlt] at h
    cases h
  refine ⟨hlength, Nat.not_le.1 fun hle => ?_⟩
  rw [readNat_of_le hlength] at h
  change (do let text ← writeInt (ofDigits ds - offset); return label text) = _ at h
  rw [writeInt_of_le hle] at h
  cases h

section Traversal

variable {ε β γ : Type} {f : β → Except ε γ}

/-- A traversal that fails nowhere collects the results. -/
theorem mapM_eq_ok {g : β → γ} {bs : List β} (h : ∀ b ∈ bs, f b = .ok (g b)) :
    bs.mapM f = .ok (bs.map g) := by
  induction bs with
  | nil => rfl
  | cons b bs ih =>
    rw [List.mapM_cons, h b (List.mem_cons_self ..), ih fun c hc => h c (List.mem_cons_of_mem _ hc)]
    rfl

/-- A traversal that succeeds has failed nowhere. -/
theorem exists_eq_ok_of_mapM {bs : List β} {cs : List γ} (h : bs.mapM f = .ok cs) {b : β}
    (hb : b ∈ bs) : ∃ c, f b = .ok c := by
  induction bs generalizing cs with
  | nil => exact absurd hb List.not_mem_nil
  | cons b' bs ih =>
    rw [List.mapM_cons] at h
    cases hfirst : f b' with
    | error e =>
      rw [hfirst] at h
      cases h
    | ok c =>
      cases hrest : bs.mapM f with
      | error e =>
        rw [hfirst, hrest] at h
        cases h
      | ok cs' =>
        rcases List.mem_cons.1 hb with rfl | hb
        · exact ⟨c, hfirst⟩
        · exact ih hrest hb

/-- A traversal fails with the first failure. -/
theorem mapM_cons_eq_error_iff {b : β} {bs : List β} {e : ε} :
    (b :: bs).mapM f = .error e ↔ f b = .error e ∨ (∃ c, f b = .ok c) ∧ bs.mapM f = .error e := by
  rw [List.mapM_cons]
  cases hfirst : f b with
  | error e' =>
    show Except.error e' = .error e ↔ _
    simp
  | ok c =>
    cases hrest : bs.mapM f with
    | error e' =>
      show Except.error e' = .error e ↔ _
      simp
    | ok cs =>
      show Except.ok (c :: cs) = .error e ↔ _
      simp

end Traversal

/-- If every line can be converted, the references become labels and nothing else changes. -/
theorem toUserLines_eq_render (hd : reference.Cuts log d)
    (h : ∀ ds ∈ d.values, Convertible offset ds) :
    toUserLines log offset = .ok (d.render (userLabel offset)) := by
  have hpieces : ∀ p ∈ d.pieces,
      userPiece offset p = .ok (p.render (userLabel offset)) := by
    intro p hp
    cases p with
    | plain c => rfl
    | found m ds =>
      have hds : ds ∈ d.values := by
        rw [← Division.filterMap_value?_pieces]
        exact List.mem_filterMap.2 ⟨_, hp, rfl⟩
      exact userPiece_found_of_convertible (h ds hds) m
  rw [toUserLines, ← hd.text_eq, finds_reference.segments_eq hd.leftmost, mapM_eq_ok hpieces,
    ← Division.flatMap_render_pieces, List.flatMap_def]
  rfl

theorem exists_toUserLines_eq_ok_iff (hd : reference.Cuts log d) :
    (∃ text, toUserLines log offset = .ok text) ↔ ∀ ds ∈ d.values, Convertible offset ds := by
  refine ⟨?_, fun h => ⟨_, toUserLines_eq_render hd h⟩⟩
  rintro ⟨text, htext⟩ ds hds
  rw [← Division.filterMap_value?_pieces, List.mem_filterMap] at hds
  obtain ⟨p, hp, hvalue⟩ := hds
  rw [toUserLines, ← hd.text_eq, finds_reference.segments_eq hd.leftmost] at htext
  cases hparts : d.pieces.mapM (userPiece offset) with
  | error f =>
    rw [hparts] at htext
    cases htext
  | ok parts =>
    obtain ⟨t, ht⟩ := exists_eq_ok_of_mapM hparts hp
    cases p with
    | plain c => cases hvalue
    | found m ds' =>
      obtain rfl := Option.some.inj hvalue
      exact convertible_of_userPiece_found ht

theorem lines_eq_mapM_values (hd : reference.Cuts log d) : lines log = d.values.mapM readNat := by
  rw [lines, ← hd.text_eq, finds_reference.values_eq hd.leftmost]

/-- If every line can be read, the lines are those of the references. -/
theorem lines_eq_values (hd : reference.Cuts log d) (h : ∀ ds ∈ d.values, ds.length ≤ digitLimit) :
    lines log = .ok (d.values.map ofDigits) := by
  rw [lines_eq_mapM_values hd]
  exact mapM_eq_ok fun ds hds => readNat_of_le (h ds hds)

theorem exists_lines_eq_error_iff (hd : reference.Cuts log d) :
    (∃ f, lines log = .error f) ↔ ∃ ds ∈ d.values, digitLimit < ds.length := by
  constructor
  · rintro ⟨f, hf⟩
    refine Classical.byContradiction fun hnone => ?_
    have hle : ∀ ds ∈ d.values, ds.length ≤ digitLimit := fun ds hds =>
      Nat.not_lt.1 fun hlt => hnone ⟨ds, hds, hlt⟩
    rw [lines_eq_values hd hle] at hf
    cases hf
  · rintro ⟨ds, hds, hlt⟩
    cases hlines : lines log with
    | error f => exact ⟨f, rfl⟩
    | ok ns =>
      rw [lines_eq_mapM_values hd] at hlines
      obtain ⟨n, hn⟩ := exists_eq_ok_of_mapM hlines hds
      rw [readNat_of_lt hlt] at hn
      cases hn

/-- Within the limit, a number and an offset are not too far apart. -/
theorem Refers.convertible (h : Refers m ds) (hlength : ds.length ≤ digitLimit) (hpos : 0 ≤ offset)
    (hlt : offset < (10 ^ digitLimit : Nat)) : Convertible offset ds := by
  obtain ⟨_, _, -, -, -, -, -, hdigits, -⟩ := h
  have hbound : ofDigits ds < 10 ^ digitLimit :=
    Nat.lt_of_lt_of_le (ofDigits_lt hdigits) (Nat.pow_le_pow_right (by decide) hlength)
  exact ⟨hlength, by omega⟩

/-- If only reading can fail, mapping a reference back fails as reading its line does. -/
theorem userPiece_found_cases (m : List Char)
    (h : ds.length ≤ digitLimit → Convertible offset ds) :
    (∃ n t, readNat ds = .ok n ∧ userPiece offset (.found m ds) = .ok t) ∨
      ∃ f, readNat ds = .error f ∧ userPiece offset (.found m ds) = .error f := by
  by_cases hle : ds.length ≤ digitLimit
  · exact Or.inl ⟨_, _, readNat_of_le hle, userPiece_found_of_convertible (h hle) m⟩
  · have hread := readNat_of_lt (Nat.not_le.1 hle)
    refine Or.inr ⟨_, hread, ?_⟩
    rw [userPiece, hread]
    rfl

theorem mapM_userPiece_eq_error_iff {ps : List (Piece (List Char))} {f : DigitFault}
    (hps : ∀ ds ∈ ps.filterMap Piece.value?, ds.length ≤ digitLimit → Convertible offset ds) :
    ps.mapM (userPiece offset) = .error f ↔
      (ps.filterMap Piece.value?).mapM readNat = .error f := by
  induction ps with
  | nil =>
    show Except.ok [] = .error f ↔ Except.ok [] = .error f
    simp
  | cons p ps ih =>
    cases p with
    | plain c =>
      rw [List.filterMap_cons_none rfl] at hps ⊢
      have hplain : userPiece offset (.plain c) = .ok [c] := rfl
      rw [mapM_cons_eq_error_iff, hplain, ih hps]
      simp
    | found m ds =>
      have hvalue : Piece.value? (.found m ds) = some ds := rfl
      rw [List.filterMap_cons_some hvalue] at hps ⊢
      rw [mapM_cons_eq_error_iff, mapM_cons_eq_error_iff,
        ih fun ds hds => hps ds (List.mem_cons_of_mem _ hds)]
      rcases userPiece_found_cases m (hps ds (List.mem_cons_self ..)) with
        ⟨n, t, hn, ht⟩ | ⟨f', hn, ht⟩
      · simp [hn, ht]
      · simp [hn, ht]

/-- With an offset that could be a line itself, mapping back fails as listing the lines does. -/
theorem toUserLines_eq_error_iff (hd : reference.Cuts log d) (hpos : 0 ≤ offset)
    (hlt : offset < (10 ^ digitLimit : Nat)) {f : DigitFault} :
    toUserLines log offset = .error f ↔ lines log = .error f := by
  have hvalues : ∀ ds ∈ d.pieces.filterMap Piece.value?, ds.length ≤ digitLimit →
      Convertible offset ds := by
    intro ds hds hlength
    rw [Division.filterMap_value?_pieces] at hds
    obtain ⟨_, m, hrefers⟩ := hd.leftmost.of_mem_values hds
    exact Refers.convertible hrefers hlength hpos hlt
  have hparts := mapM_userPiece_eq_error_iff (f := f) hvalues
  rw [Division.filterMap_value?_pieces, ← lines_eq_mapM_values hd] at hparts
  rw [← hparts, toUserLines, ← hd.text_eq, finds_reference.segments_eq hd.leftmost]
  cases d.pieces.mapM (userPiece offset) with
  | error f' =>
    show Except.error f' = .error f ↔ Except.error f' = .error f
    simp
  | ok parts =>
    show Except.ok parts.flatten = .error f ↔ Except.ok parts = .error f
    simp

/-- Every log is cut in one way at its references, which are all texts in it that refer to a line.  If
all lines can be converted, listing the lines gives those of the references, and mapping them back puts
a label in the place of each reference and changes nothing else.  The result has no reference, so its
list of lines is empty and mapping it back, with whatever offset, changes nothing.  With an offset that
could be a line itself, both fail alike, and they do so if some line has too many digits. -/
theorem toUserLines_exact (log : List Char) :
    ∃ d : Division (List Char), (∀ d', reference.Cuts log d' ↔ d' = d) ∧
      (∀ x m ds, (x, m, ds) ∈ d.places [] ↔ Refers m ds ∧ x ++ m <+: log) ∧
      (∀ offset : Int, (∃ text, toUserLines log offset = .ok text) ↔
        ∀ ds ∈ d.values, Convertible offset ds) ∧
      (∀ offset : Int, (∀ ds ∈ d.values, Convertible offset ds) →
        lines log = .ok (d.values.map ofDigits) ∧
        ∃ text, text = d.render (userLabel offset) ∧ toUserLines log offset = .ok text ∧
          (¬ ∃ m ds, Refers m ds ∧ m <:+: text) ∧ lines text = .ok [] ∧
          ∀ offset', toUserLines text offset' = .ok text) ∧
      ∀ offset : Int, 0 ≤ offset → offset < (10 ^ digitLimit : Nat) →
        (∀ f, toUserLines log offset = .error f ↔ lines log = .error f) ∧
        ((∃ f, lines log = .error f) ↔ ∃ ds ∈ d.values, digitLimit < ds.length) := by
  obtain ⟨d, hcuts⟩ := reference.exists_cuts_iff log
  have hd := (hcuts d).2 rfl
  refine ⟨d, hcuts, fun x m ds => hd.mem_places_iff startsWith_reference.separate,
    fun offset => exists_toUserLines_eq_ok_iff hd, fun offset hconv => ?_, fun offset hpos hlt =>
    ⟨fun f => toUserLines_eq_error_iff hd hpos hlt, exists_lines_eq_error_iff hd⟩⟩
  have habsent := (settles_reference offset).absent_render hd.leftmost id
  have hlast := Construct.cuts_last habsent
  refine ⟨lines_eq_values hd fun ds hds => (hconv ds hds).length_le, _, rfl,
    toUserLines_eq_render hd hconv, ?_, lines_eq_values hlast ?_, fun offset' => ?_⟩
  · rintro ⟨m, ds, hrefers, x, k, heq⟩
    exact Construct.absent_iff.1 habsent x m ds hrefers ⟨k, heq⟩
  · exact fun ds hds => absurd hds List.not_mem_nil
  · exact toUserLines_eq_render hlast fun ds hds => absurd hds List.not_mem_nil

/-- A reference behind another one that is cut short, and one with leading zeros and another blank. -/
theorem toUserLines_exact_of_two :
    lines "ERROR: ERROR: 0:57: x\nERROR:\u2003 1:0060:7:".toList = .ok [57, 60] ∧
      toUserLines "ERROR: ERROR: 0:57: x\nERROR:\u2003 1:0060:7:".toList 58 =
        .ok "ERROR: ERROR: Line -1: x\nERROR: Line 2:7:".toList ∧
      (¬ ∃ m ds, Refers m ds ∧ m <:+: "ERROR: ERROR: Line -1: x\nERROR: Line 2:7:".toList) ∧
      ∀ f, toUserLines "ERROR: ERROR: 0:57: x\nERROR:\u2003 1:0060:7:".toList 58 ≠ .error f := by
  have hlines : lines "ERROR: ERROR: 0:57: x\nERROR:\u2003 1:0060:7:".toList = .ok [57, 60] := by
    decide +kernel
  have hmapped : toUserLines "ERROR: ERROR: 0:57: x\nERROR:\u2003 1:0060:7:".toList 58 =
      .ok "ERROR: ERROR: Line -1: x\nERROR: Line 2:7:".toList := by
    decide +kernel
  obtain ⟨d, -, -, hok, hexact, hfails⟩ :=
    toUserLines_exact "ERROR: ERROR: 0:57: x\nERROR:\u2003 1:0060:7:".toList
  obtain ⟨-, text, -, htext, hnone, -⟩ := hexact 58 ((hok 58).1 ⟨_, hmapped⟩)
  obtain rfl := Except.ok.inj (hmapped.symm.trans htext)
  refine ⟨hlines, hmapped, hnone, fun f hf => ?_⟩
  have hfault := ((hfails 58 (by decide) (by decide +kernel)).1 f).1 hf
  rw [hlines] at hfault
  cases hfault

end Diagnostic
end ShaderPreview
