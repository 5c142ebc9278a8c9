import ShaderPreview.Diagnostic
import ShaderPreview.Proofs.Pattern.Lines
import ShaderPreview.Text.Terminal

/-!
# Mapping one line reference back

A compiler writes `ERROR: 0:57: …` for a line of the generated program.  Mapping it back reads the
digits, subtracts the offset and writes the difference, and it fails if there are too many digits.

* `Decimal.within_digits`, `Decimal.length_digits_le`: the digits of a number;
* `Decimal.readNat_digits`, `Decimal.writeInt_natCast`: reading and writing within the limit;
* `Diagnostic.Refers`, `Diagnostic.read?_append_iff`: how a reference is written;
* `Diagnostic.read?_reference`: the reference is found in front of any message;
* `Diagnostic.toUserLines_reference`, `Diagnostic.toUserLines_of_limit`: what becomes of it;
* `withoutControls_of_occursIn_eq_false`: text without control sequences is printed as it is.
-/

namespace ShaderPreview

open Text

/-! ## Numbers -/

namespace Decimal

variable {k n : Nat}

theorem digits_ne_nil (n : Nat) : digits n ≠ [] := by
  rw [digits]
  split <;> simp

theorem within_digits (n : Nat) : Within Char.isDigit (digits n) := by
  induction n using Nat.strongRecOn with
  | ind n ih =>
    rw [digits]
    split
    · next h => exact within_cons.2 ⟨isDigit_digitChar h, within_nil⟩
    · next h =>
      have hlast := isDigit_digitChar (Nat.mod_lt n (by decide : 0 < 10))
      exact within_append.2 ⟨ih _ (by omega), within_cons.2 ⟨hlast, within_nil⟩⟩

/-- A smaller number has no more digits. -/
theorem length_digits_le (h : k ≤ n) : (digits k).length ≤ (digits n).length := by
  induction n using Nat.strongRecOn generalizing k with
  | ind n ih =>
    rw [digits, digits.eq_def n]
    split
    · exact List.length_pos_iff.2 (digits.eq_def n ▸ digits_ne_nil n)
    · rw [if_neg (by omega), List.length_append, List.length_append, List.length_singleton,
        List.length_singleton]
      exact Nat.succ_le_succ (ih _ (by omega) (Nat.div_le_div_right h))

theorem readNat_digits (h : (digits n).length ≤ digitLimit) : readNat (digits n) = .ok n := by
  rw [readNat, if_neg (Nat.not_lt.2 h), ofDigits_digits]

theorem toList_natText (n : Nat) : (natText n).toList = digits n :=
  String.toList_ofList

theorem writeInt_natCast (h : (digits k).length ≤ digitLimit) :
    writeInt (k : Int) = .ok (natText k) := by
  rw [writeInt, Int.natAbs_natCast, if_neg (Nat.not_lt.2 h)]
  rfl

end Decimal

/-! ## References -/

namespace Diagnostic

open Decimal

variable {k n offset : Nat} {msg : List Char}

/-- The text is `ERROR:`, blanks, digits, a colon, the digits `ds` of a line and a colon. -/
def Refers (m ds : List Char) : Prop :=
  ∃ b n, b ≠ [] ∧ Within isBlank b ∧ n ≠ [] ∧ Within Char.isDigit n ∧ ds ≠ [] ∧
    Within Char.isDigit ds ∧ m = "ERROR:".toList ++ (b ++ (n ++ ':' :: (ds ++ [':'])))

/-- References are what the pattern reads, whatever stands behind them. -/
theorem read?_append_iff {m k ds : List Char} :
    pattern.read? (m ++ k) = some (ds, k) ↔ Refers m ds := by
  show read? (m ++ k) = some (ds, k) ↔ _
  constructor
  · intro h
    simp only [read?, Option.bind_eq_bind, Option.bind_eq_some_iff, Option.pure_def,
      Option.some.injEq, Prod.mk.injEq] at h
    obtain ⟨_, h₁, _, h₂, ⟨n, _⟩, h₃, _, h₄, ⟨ds, _⟩, h₅, k, h₆, rfl, rfl⟩ := h
    obtain ⟨b, hb, hblank, -, rfl⟩ := Read.blanks1?_iff.1 h₂
    obtain ⟨hn, hdigit, -, rfl⟩ := Read.run1?_iff.1 h₃
    obtain rfl := Read.literal?_eq_some_iff.1 h₄
    obtain ⟨hds, hdigit', -, rfl⟩ := Read.run1?_iff.1 h₅
    obtain rfl := Read.literal?_eq_some_iff.1 h₆
    refine ⟨b, n, hb, hblank, hn, hdigit, hds, hdigit', (List.append_left_inj k).1 ?_⟩
    rw [Read.literal?_eq_some_iff.1 h₁]
    simp
  · rintro ⟨b, n, hb, hblank, hn, hdigit, hds, hdigit', rfl⟩
    have hstops : Stops isBlank (n ++ ':' :: (ds ++ ':' :: k)) := by
      rw [stops_append_of_ne_nil hn]
      exact hdigit.stops fun _ hc => isBlank_of_isWordChar (isWordChar_of_isDigit hc)
    have h₁ : Read.literal? "ERROR:" ("ERROR:".toList ++ (b ++ (n ++ ':' :: (ds ++ [':']))) ++ k) =
        some (b ++ (n ++ ':' :: (ds ++ ':' :: k))) := Read.literal?_eq_some_iff.2 (by simp)
    have h₂ := Read.blanks1?_iff.2 ⟨b, hb, hblank, hstops, rfl⟩
    have h₃ : Read.run1? Char.isDigit (n ++ ':' :: (ds ++ ':' :: k)) =
        some (n, ':' :: (ds ++ ':' :: k)) :=
      Read.run1?_iff.2 ⟨hn, hdigit, stops_cons.2 (by decide), rfl⟩
    have h₄ : Read.literal? ":" (':' :: (ds ++ ':' :: k)) = some (ds ++ ':' :: k) :=
      Read.literal?_eq_some_iff.2 rfl
    have h₅ : Read.run1? Char.isDigit (ds ++ ':' :: k) = some (ds, ':' :: k) :=
      Read.run1?_iff.2 ⟨hds, hdigit', stops_cons.2 (by decide), rfl⟩
    have h₆ : Read.literal? ":" (':' :: k) = some k := Read.literal?_eq_some_iff.2 rfl
    simp only [read?, h₁, h₂, h₃, h₄, h₅, h₆, Option.bind_eq_bind, Option.bind_some, Option.pure_def]

/-- A reference to line `n` is found in front of any message, with the digits of `n`. -/
theorem read?_reference (n : Nat) (msg : List Char) :
    pattern.read? ("ERROR: 0:".toList ++ (digits n ++ ':' :: msg)) = some (digits n, msg) := by
  have hrefers : Refers ("ERROR: 0:".toList ++ (digits n ++ [':'])) (digits n) :=
    ⟨[' '], ['0'], by decide, by decide, by decide, by decide, digits_ne_nil n, within_digits n, rfl⟩
  have hread := read?_append_iff (k := msg).2 hrefers
  simpa only [List.append_assoc, List.singleton_append] using hread

/-- A reference starts with its first letter. -/
theorem read?_cons_of_ne {c : Char} (h : c ≠ 'E') (cs : List Char) : pattern.read? (c :: cs) = none := by
  rw [Option.eq_none_iff_forall_ne_some]
  rintro ⟨ds, rest⟩ hread
  have hread : read? (c :: cs) = some (ds, rest) := hread
  simp only [read?, Option.bind_eq_bind, Option.bind_eq_some_iff] at hread
  obtain ⟨mid, hliteral, -⟩ := hread
  exact h (List.cons.inj (Read.literal?_eq_some_iff.1 hliteral)).1

/-- The pieces of a log that is one reference and a message without any. -/
theorem segments_reference (hmsg : pattern.occursIn msg = false) (n : Nat) :
    pattern.segments ("ERROR: 0:".toList ++ (digits n ++ ':' :: msg)) =
      .found ("ERROR: 0:".toList ++ (digits n ++ [':'])) (digits n) :: msg.map .plain := by
  have hsplit : "ERROR: 0:".toList ++ (digits n ++ ':' :: msg) =
      "ERROR: 0:".toList ++ (digits n ++ [':']) ++ msg := by
    simp only [List.append_assoc, List.singleton_append]
  have hread := read?_reference n msg
  rw [hsplit] at hread ⊢
  rw [Pattern.segments_append hread, Pattern.segments_of_occursIn_eq_false hmsg]

theorem mapM_userPiece_plain (offset : Int) (cs : List Char) :
    (cs.map Piece.plain).mapM (userPiece offset) = .ok (cs.map fun c => [c]) := by
  induction cs with
  | nil => rfl
  | cons c cs ih =>
    rw [List.map_cons, List.mapM_cons, ih]
    rfl

/-- A reference behind the offset becomes one to the user's line. -/
theorem toUserLines_reference (hlimit : (digits (offset + k)).length ≤ digitLimit)
    (hmsg : pattern.occursIn msg = false) :
    toUserLines ("ERROR: 0:".toList ++ (digits (offset + k) ++ ':' :: msg)) offset =
      .ok ("ERROR: Line ".toList ++ (digits k ++ ':' :: msg)) := by
  have hline : userLine ((offset + k : Nat) : Int) offset = k := by
    rw [userLine]
    omega
  have hk := Nat.le_trans (length_digits_le (Nat.le_add_left k offset)) hlimit
  have hfound : userPiece offset (.found ("ERROR: 0:".toList ++ (digits (offset + k) ++ [':']))
      (digits (offset + k))) = .ok (label (natText k)) := by
    rw [userPiece, readNat_digits hlimit]
    show (do let text ← writeInt (userLine ((offset + k : Nat) : Int) offset); return label text) = _
    rw [hline, writeInt_natCast hk]
    rfl
  rw [toUserLines, segments_reference hmsg, List.mapM_cons, hfound, mapM_userPiece_plain]
  have hflat : (msg.map fun c => [c]).flatten = msg := by
    rw [← List.flatMap_def]
    exact List.flatMap_singleton' msg
  have hlabel : label (natText k) = "ERROR: Line ".toList ++ (digits k ++ [':']) := by
    unfold label
    rw [toList_natText, List.append_assoc]
    rfl
  show Except.ok (label (natText k) ++ (msg.map fun c => [c]).flatten) = _
  rw [hflat, hlabel, List.append_assoc, List.append_assoc, List.singleton_append]

/-- A reference with too many digits is refused. -/
theorem toUserLines_of_limit (hlimit : digitLimit < (digits n).length)
    (hmsg : pattern.occursIn msg = false) (offset : Int) :
    toUserLines ("ERROR: 0:".toList ++ (digits n ++ ':' :: msg)) offset =
      .error (.reading (digits n).length) := by
  rw [toUserLines, segments_reference hmsg, List.mapM_cons, userPiece, readNat, if_pos hlimit]
  rfl

end Diagnostic

/-! ## Printing -/

/-- An escape is what every control sequence starts with. -/
theorem Text.Terminal.occursIn_append {a : List Char} (h : '\x1b' ∉ a) (b : List Char) :
    Terminal.pattern.occursIn (a ++ b) = Terminal.pattern.occursIn b := by
  induction a with
  | nil => rfl
  | cons c a ih =>
    rw [List.mem_cons, not_or] at h
    have hnone : Terminal.pattern.read? (c :: (a ++ b)) = none := by
      rw [Option.eq_none_iff_forall_ne_some]
      rintro r hread
      obtain ⟨mid, hliteral, -⟩ := Option.bind_eq_some_iff.1 hread
      exact h.1 (List.cons.inj (Read.literal?_eq_some_iff.1 hliteral)).1.symm
    rw [List.cons_append, Pattern.occursIn_cons hnone, ih h.2]

/-- Text without control sequences is printed as it is. -/
theorem withoutControls_of_occursIn_eq_false {s : String}
    (h : Terminal.pattern.occursIn s.toList = false) : withoutControls s = s := by
  rw [withoutControls, Pattern.replace_of_occursIn_eq_false h, String.ofList_toList]

end ShaderPreview
