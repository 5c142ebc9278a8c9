import ShaderPreview.Decimal.Whole

/-!
# The shortest decimal of a double

A double stands for an interval of real numbers: those that round to it.  Its shortest decimal is a
number with as few significant digits as possible inside that interval and, among those, the one
nearest to the double.  Everything is computed in exact arithmetic from the double's bits.

* `Binary`: a positive number `significand * 2 ^ exponent`, with the shape of its interval;
* `Scientific`: a number `digits * 10 ^ exponent`;
* `Binary.shortest`: the shortest decimal of a double;
* `Binary.ofBits`: the double with given fraction and exponent fields.
-/

namespace ShaderPreview

/-- A positive double `significand * 2 ^ exponent`. -/
structure Binary where
  significand : Nat
  exponent : Int
  /-- Whether the double below is half as far away as the one above. -/
  narrow : Bool
  deriving DecidableEq, Repr

/-- The number `digits * 10 ^ exponent`. -/
structure Scientific where
  digits : Nat
  exponent : Int
  deriving DecidableEq, Repr

namespace Binary

/-- The double whose bits hold these fraction and exponent fields, both fields not zero at once. -/
def ofBits (fraction field : Nat) : Binary :=
  if field = 0 then ⟨fraction, -1074, false⟩
  else ⟨fraction + 0x10000000000000, (field : Int) - 1075, fraction = 0 && 1 < field⟩

/-- The exponent of a quarter of the double's unit, of which the ends of the interval are multiples. -/
def quarterExponent (b : Binary) : Int :=
  b.exponent - 2

/-- The double in quarters of its unit. -/
def center (b : Binary) : Nat :=
  4 * b.significand

/-- The lower end of the interval in quarters of the unit. -/
def lower (b : Binary) : Nat :=
  b.center - if b.narrow then 1 else 2

/-- The upper end of the interval in quarters of the unit. -/
def upper (b : Binary) : Nat :=
  b.center + 2

/-- The power of ten that follows the leading digit: the double lies in `[10 ^ (p - 1), 10 ^ p)`. -/
def magnitude (b : Binary) : Int :=
  let whole := b.center * Nat.pow 2 b.quarterExponent.toNat / Nat.pow 2 (-b.quarterExponent).toNat
  if 0 < whole then (Decimal.digits whole).length
  else
    let inverse := Nat.pow 2 (-b.quarterExponent).toNat
    1 - ((Decimal.digits ((inverse + b.center - 1) / b.center - 1)).length : Int)

/-- What one step of the grid of multiples of `10 ^ t` weighs against `quarterWeight`. -/
def gridWeight (b : Binary) (t : Int) : Nat :=
  Nat.pow 10 t.toNat * Nat.pow 2 (-b.quarterExponent).toNat

/-- What a quarter of the unit weighs against one step of the grid of multiples of `10 ^ t`. -/
def quarterWeight (b : Binary) (t : Int) : Nat :=
  Nat.pow 2 b.quarterExponent.toNat * Nat.pow 10 (-t).toNat

/-- Whether `c * 10 ^ t` rounds to the double; the ends belong to it when the significand is even. -/
def admits (b : Binary) (t : Int) (c : Nat) : Bool :=
  let x := c * b.gridWeight t
  let lo := b.lower * b.quarterWeight t
  let hi := b.upper * b.quarterWeight t
  if b.significand % 2 = 0 then lo ≤ x && x ≤ hi else lo < x && x < hi

/-- The multiple of `10 ^ t` nearest to the double among its two neighbours that round to it; of two
equally near the even one. -/
def onGrid? (b : Binary) (t : Int) : Option Nat :=
  let value := b.center * b.quarterWeight t
  let c := value / b.gridWeight t
  match b.admits t c, b.admits t (c + 1) with
  | true, false => some c
  | false, true => some (c + 1)
  | false, false => none
  | true, true =>
    let rest := 2 * (value - c * b.gridWeight t)
    if rest < b.gridWeight t then some c
    else if b.gridWeight t < rest then some (c + 1)
    else if c % 2 = 0 then some c else some (c + 1)

/-- The decimal of fewest digits that rounds to the double.  Seventeen digits always suffice. -/
def shortest (b : Binary) : Scientific :=
  let p := b.magnitude
  let tries := (List.range 17).findSome? fun n =>
    let t := p - (n + 1 : Nat)
    (b.onGrid? t).map fun c => (⟨c, t⟩ : Scientific)
  tries.getD ⟨b.center * b.quarterWeight (p - 17) / b.gridWeight (p - 17), p - 17⟩

end Binary
end ShaderPreview
