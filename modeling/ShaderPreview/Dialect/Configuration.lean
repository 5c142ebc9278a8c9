import ShaderPreview.Dialect.Basic
import ShaderPreview.Value

/-!
# Configuring a dialect

A configuration is a vocabulary with any value for the mask's threshold.  Checking it gives a dialect
or the first fault, in a fixed order: names that are no identifiers, an entry function that keeps
its name, a resolution among its own aliases, a threshold that is no number, a threshold out of
range.

* `Configuration`: what a dialect is made from;
* `Fault`, `Fault.kind`, `Fault.message`: what can be wrong with it;
* `Configuration.check`: the dialect, or the first fault.
-/

namespace ShaderPreview

/-- A vocabulary with a threshold that is not yet known to be a number. -/
structure Configuration extends Vocabulary where
  maskThreshold : Value := .float 0.1

/-- What is wrong with a configuration. -/
inductive Fault where
  /-- A name is no identifier. -/
  | invalidIdentifier (name : String)
  /-- The entry function would keep its name. -/
  | userEntryIsEntryPoint
  /-- The resolution is among its aliases. -/
  | aliasIsResolution (name : String)
  /-- The threshold, written out, is no number. -/
  | thresholdNotNumber (written : String)
  /-- The threshold, written out, is not between zero and one. -/
  | thresholdOutOfRange (written : String)
  /-- The threshold is wrong and too long to be written out. -/
  | thresholdTooLong (fault : DigitFault)
  deriving DecidableEq, Repr

/-- What a fault is about: what sort of value was given, or which one. -/
inductive Fault.Kind where
  | wrongType
  | wrongValue
  deriving DecidableEq, Repr

/-- What a fault is about.  Only a threshold can be of a wrong type. -/
def Fault.kind : Fault → Fault.Kind
  | .thresholdNotNumber _ => .wrongType
  | _ => .wrongValue

/-- The wording of a fault. -/
def Fault.message : Fault → String
  | .invalidIdentifier name => "Invalid identifier in dialect config: " ++ Text.Quoted.encode name
  | .userEntryIsEntryPoint => "user_entry_name must differ from entry_point_name"
  | .aliasIsResolution name => "resolution_aliases must not contain " ++ Text.Quoted.encode name
  | .thresholdNotNumber written => "mask_threshold must be a number, got " ++ written
  | .thresholdOutOfRange written => "mask_threshold must be within [0, 1], got " ++ written
  | .thresholdTooLong fault => fault.message

/-- The value as a number; a switch is none. -/
def Value.number? : Value → Option Number
  | .int n => some (.whole n)
  | .float x => some (.double x)
  | _ => none

/-- The fault `blame` about a value, or that the value is too long to be written out. -/
def Fault.about (blame : String → Fault) (v : Value) : Fault :=
  match v.written with
  | .ok text => blame text
  | .error fault => .thresholdTooLong fault

/-- The threshold that a value stands for. -/
def Threshold.ofValue (v : Value) : Except Fault Threshold :=
  match v.number? with
  | none => .error (Fault.about .thresholdNotNumber v)
  | some n =>
    if h : n.InUnit then .ok ⟨n, h⟩ else .error (Fault.about .thresholdOutOfRange v)

/-- The dialect that a configuration describes, or its first fault. -/
def Configuration.check (c : Configuration) : Except Fault Dialect :=
  match hn : c.names.find? fun name => !Text.isIdentifier name with
  | some name => .error (.invalidIdentifier name)
  | none =>
    if he : c.userEntry = c.entryPoint then .error .userEntryIsEntryPoint
    else if hr : c.resolution ∈ c.resolutionAliases then .error (.aliasIsResolution c.resolution)
    else
      match Threshold.ofValue c.maskThreshold with
      | .error fault => .error fault
      | .ok threshold => .ok {
          toVocabulary := c.toVocabulary
          threshold
          identifiers := fun name h => by simpa using List.find?_eq_none.1 hn name h
          userEntry_ne := he
          resolution_not_alias := hr }

end ShaderPreview
