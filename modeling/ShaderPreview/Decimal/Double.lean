import ShaderPreview.Decimal.Shortest
import ShaderPreview.Text.Blank
import ShaderPreview.Text.Digit

/-!
# Doubles in decimal

A double is written with the fewest digits that read back as the same double: positionally, with at
least one digit after the point, when its leading digit stands for `10 ^ -4` to `10 ^ 15`, and with
an exponent of at least two digits otherwise.  Zero keeps its sign.

* `Double.text`: the written form;
* `Double.ofText?`: reads decimal notation, `inf` and `nan`.
-/

namespace ShaderPreview
namespace Double

/-- The digits of a scientific number without trailing zeros, and the place of the point: the number
is `0.d₁d₂… * 10 ^ point`. -/
def significant (s : Scientific) : List Char × Int :=
  let ds := Decimal.digits s.digits
  ((ds.reverse.dropWhile (· == '0')).reverse, s.exponent + ds.length)

/-- Digits with the point among them or zeros around them. -/
def positional (ds : List Char) (point : Int) : List Char :=
  if 0 < point then
    let n := point.toNat
    if ds.length ≤ n then ds ++ List.replicate (n - ds.length) '0' ++ ['.', '0']
    else ds.take n ++ '.' :: ds.drop n
  else '0' :: '.' :: List.replicate (-point).toNat '0' ++ ds

/-- One digit before the point, and an exponent with its sign and at least two digits. -/
def exponential (ds : List Char) (exponent : Int) : List Char :=
  let mantissa := match ds with
    | d :: e :: es => d :: '.' :: e :: es
    | ds => ds
  let places := Decimal.digits exponent.natAbs
  let padded := if places.length < 2 then '0' :: places else places
  mantissa ++ 'e' :: (if exponent < 0 then '-' else '+') :: padded

/-- The text of a positive double. -/
def magnitudeText (b : Binary) : List Char :=
  let (ds, point) := significant b.shortest
  if -4 ≤ point - 1 ∧ point - 1 < 16 then positional ds point else exponential ds (point - 1)

/-- The exponent field of infinities and of values that are no number. -/
def specialField : Nat := 0x7FF

/-- The text of a double without its sign, by the fields of its bits. -/
def unsignedText (fraction field : Nat) : List Char :=
  if field = specialField then if fraction = 0 then "inf".toList else "nan".toList
  else if field = 0 ∧ fraction = 0 then "0.0".toList
  else magnitudeText (Binary.ofBits fraction field)

/-- The written form of a double.  What is no number has no sign. -/
def text (x : Float) : String :=
  let bits := x.toBits.toNat
  let fraction := bits % 0x10000000000000
  let field := bits / 0x10000000000000 % 0x800
  let unsigned := unsignedText fraction field
  if bits < 0x8000000000000000 ∨ (field = specialField ∧ fraction ≠ 0) then String.ofList unsigned
  else String.ofList ('-' :: unsigned)

/-- The double nearest to `digits * 10 ^ exponent`. -/
def ofScientific (s : Scientific) : Float :=
  let reach := s.exponent + (Decimal.digits s.digits).length
  if s.digits = 0 ∨ reach < -400 then 0.0
  else if 400 < reach then 1.0 / 0.0
  else Float.ofScientific s.digits (s.exponent < 0) s.exponent.natAbs

/-- Reads an exponent with an optional sign, up to the end of the text. -/
def exponentOf? (cs : List Char) : Option Int :=
  let (negative, ds) := match cs with
    | '-' :: ds => (true, ds)
    | '+' :: ds => (false, ds)
    | ds => (false, ds)
  if ds.isEmpty || !ds.all Char.isDigit then none
  else
    let n : Int := Decimal.ofDigits ds
    some (if negative then -n else n)

/-- Reads an unsigned decimal: digits around an optional point, and an optional exponent. -/
def unsignedOf? (cs : List Char) : Option Float := do
  let word := String.ofList (cs.map Char.toLower)
  if word = "inf" ∨ word = "infinity" then return 1.0 / 0.0
  if word = "nan" then return 0.0 / 0.0
  let whole := cs.takeWhile Char.isDigit
  let cs := cs.dropWhile Char.isDigit
  let (fraction, cs) := match cs with
    | '.' :: cs => (cs.takeWhile Char.isDigit, cs.dropWhile Char.isDigit)
    | cs => ([], cs)
  if whole.isEmpty && fraction.isEmpty then none
  let exponent ← match cs with
    | [] => some 0
    | c :: cs => if c.toLower = 'e' then exponentOf? cs else none
  return ofScientific ⟨Decimal.ofDigits (whole ++ fraction), exponent - fraction.length⟩

/-- The text without the underscores that stand between two digits. -/
def joinGroups : List Char → List Char
  | [] => []
  | [c] => [c]
  | [c, d] => [c, d]
  | c :: d :: e :: cs =>
    if c.isDigit && d == '_' && e.isDigit then c :: joinGroups (e :: cs)
    else c :: joinGroups (d :: e :: cs)

/-- Reads a double with an optional sign and blanks around it.  Its digits may be those of any script,
and an underscore may stand between two of them. -/
def ofText? (text : String) : Option Float :=
  match joinGroups ((Text.trim text.toList).map Text.toAsciiDigit) with
  | '-' :: cs => (unsignedOf? cs).map fun x => -x
  | '+' :: cs => unsignedOf? cs
  | cs => unsignedOf? cs

/-! The borders of positional notation, written and read back. -/

example : text 0.0001 = "0.0001" ∧ text 0.00001 = "1e-05" := by decide +kernel

example : text 1e15 = "1000000000000000.0" ∧ text 1e16 = "1e+16" := by decide +kernel

example : (ofText? "0.1000000000000000055").map text = some "0.1" := by decide +kernel

example : (ofText? "1_000.5").map text = some "1000.5" ∧ (ofText? "1__0").isNone := by decide +kernel

example : (ofText? "٠.٥").map text = some "0.5" ∧ (ofText? "१_٢").map text = some "12.0" := by
  decide +kernel

end Double
end ShaderPreview
