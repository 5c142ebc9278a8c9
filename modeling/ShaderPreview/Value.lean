import ShaderPreview.Decimal.Double
import ShaderPreview.Text.Quoted

/-!
# Control values

The values a control of the preview can hold: nothing, a switch, a number, a text such as an image
address, or a list of values such as the components of a vector.

* `Value`: control values;
* `Value.written`: the written form, refused if a whole number in it is too long.
-/

namespace ShaderPreview

/-- A value that a control can hold. -/
inductive Value where
  | null
  | bool (b : Bool)
  | int (n : Int)
  | float (x : Float)
  | text (s : String)
  | list (vs : List Value)
  deriving Inhabited

namespace Value

mutual

/-- The written form of a value. -/
def written : Value → Except DigitFault String
  | .null => .ok "None"
  | .bool true => .ok "True"
  | .bool false => .ok "False"
  | .int n => Decimal.writeInt n
  | .float x => .ok (Double.text x)
  | .text s => .ok (Text.Quoted.encode s)
  | .list vs => do
    let parts ← writtenAll vs
    return "[" ++ ", ".intercalate parts ++ "]"

/-- The written forms of several values; the first refusal wins. -/
def writtenAll : List Value → Except DigitFault (List String)
  | [] => .ok []
  | v :: vs => do
    let part ← written v
    let parts ← writtenAll vs
    return part :: parts

end

end Value

/-- The written form of a list of texts. -/
def quotedList (texts : List String) : String :=
  "[" ++ ", ".intercalate (texts.map Text.Quoted.encode) ++ "]"

end ShaderPreview
