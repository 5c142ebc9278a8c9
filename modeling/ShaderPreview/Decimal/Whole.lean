/-!
# Whole numbers in decimal

Whole numbers are read from runs of ASCII digits and written in decimal.  Both directions refuse
numbers of more than `digitLimit` digits; when reading, leading zeros count.

* `Decimal.digits`, `Decimal.ofDigits`: the decimal digits of a number, and back;
* `Decimal.readNat`, `Decimal.writeInt`: the same with the limit;
* `DigitFault`: why a conversion was refused;
* `ofDigits_digits`: writing, then reading, gives the number back.
-/

namespace ShaderPreview

/-- A whole number was too long to be converted. -/
inductive DigitFault where
  /-- A text of so many digits was to be read. -/
  | reading (count : Nat)
  /-- A number was to be written. -/
  | writing
  deriving DecidableEq, Repr

namespace Decimal

/-- The most digits a number may have to be read or written. -/
def digitLimit : Nat := 4300

/-- The character of a digit below ten. -/
def digitChar (d : Nat) : Char :=
  Char.ofNat ('0'.toNat + d)

/-- The digit that a character stands for. -/
def digitValue (c : Char) : Nat :=
  c.toNat - '0'.toNat

/-- The decimal digits of a number, without leading zeros. -/
def digits (n : Nat) : List Char :=
  if n < 10 then [digitChar n] else digits (n / 10) ++ [digitChar (n % 10)]

/-- The number that a run of digits stands for. -/
def ofDigits (cs : List Char) : Nat :=
  cs.foldl (fun n c => 10 * n + digitValue c) 0

/-- The decimal text of an integer. -/
def intText : Int → String
  | .ofNat n => String.ofList (digits n)
  | .negSucc n => String.ofList ('-' :: digits (n + 1))

/-- The decimal text of a natural number. -/
def natText (n : Nat) : String :=
  String.ofList (digits n)

/-- Reads a run of digits of at most the limit's length. -/
def readNat (cs : List Char) : Except DigitFault Nat :=
  if digitLimit < cs.length then .error (.reading cs.length) else .ok (ofDigits cs)

/-- Writes an integer whose digits keep within the limit. -/
def writeInt (n : Int) : Except DigitFault String :=
  if digitLimit < (digits n.natAbs).length then .error .writing else .ok (intText n)

theorem digitValue_digitChar {d : Nat} (h : d < 10) : digitValue (digitChar d) = d := by
  have all : ∀ d, d < 10 → digitValue (digitChar d) = d := by decide
  exact all d h

theorem isDigit_digitChar {d : Nat} (h : d < 10) : (digitChar d).isDigit = true := by
  have all : ∀ d, d < 10 → (digitChar d).isDigit = true := by decide
  exact all d h

/-- Reading the written digits gives the number back. -/
theorem ofDigits_digits (n : Nat) : ofDigits (digits n) = n := by
  rw [digits]
  split
  · next h => simp [ofDigits, digitValue_digitChar h]
  · have ih := ofDigits_digits (n / 10)
    simp only [ofDigits, List.foldl_append, List.foldl_cons, List.foldl_nil] at ih ⊢
    rw [ih, digitValue_digitChar (Nat.mod_lt n (by decide))]
    omega

end Decimal

/-- The wording of a refused conversion. -/
def DigitFault.message : DigitFault → String
  | .reading count =>
    "Exceeds the limit (" ++ Decimal.natText Decimal.digitLimit ++
      " digits) for integer string conversion: value has " ++ Decimal.natText count ++
      " digits; use sys.set_int_max_str_digits() to increase the limit"
  | .writing =>
    "Exceeds the limit (" ++ Decimal.natText Decimal.digitLimit ++
      " digits) for integer string conversion; " ++
      "use sys.set_int_max_str_digits() to increase the limit"

end ShaderPreview
