import ShaderPreview.Dialect.Configuration
import ShaderPreview.Proofs.Decimal.DoubleValue

/-!
# The first fault of a configuration

The names of a dialect are pasted into generated code without quotes, and its threshold into a
comparison, so a configuration is checked before anything else is done with it.  This module says what a
well-formed configuration is, in terms of the characters of its names and of the number that its
threshold stands for, and shows that no other configuration gives a dialect.  Several things can be wrong
at once.  What is reported is then the first of the conditions that fails, in a fixed order.

* `Text.IsName`: the names that can be used in generated code;
* `Value.Denotes`, `Value.Short`: the numbers among the values, and the values that can be written out;
* `Configuration.WellFormed`: the configurations that describe a dialect;
* `Configuration.conditions`, `Condition.Blames`: what is checked, in order, and what is reported;
* `Configuration.check_reports_first_fault`: a configuration gives a dialect if it is well-formed, and
  otherwise the fault of the first condition that fails.
-/

namespace ShaderPreview

/-! ## 1.  Names -/

namespace Text

/-- An ASCII letter or the underscore. -/
def IsNameStart (c : Char) : Prop :=
  'A' ≤ c ∧ c ≤ 'Z' ∨ 'a' ≤ c ∧ c ≤ 'z' ∨ c = '_'

/-- A letter or underscore, then letters, underscores and digits, and nothing else. -/
def IsName (s : String) : Prop :=
  ∃ c cs, s.toList = c :: cs ∧ IsNameStart c ∧ ∀ e ∈ cs, IsNameStart e ∨ '0' ≤ e ∧ e ≤ '9'

theorem isLetter_iff {c : Char} : isLetter c = true ↔ IsNameStart c := by
  have halpha : c.isAlpha = (c.isUpper || c.isLower) := rfl
  have hupper : c.isUpper = true ↔ 'A' ≤ c ∧ c ≤ 'Z' := decide_eq_true_iff
  have hlower : c.isLower = true ↔ 'a' ≤ c ∧ c ≤ 'z' :=
    Bool.and_eq_true_iff.trans (and_congr decide_eq_true_iff decide_eq_true_iff)
  simp only [isLetter, halpha, hupper, hlower, Bool.or_eq_true, beq_iff_eq, or_assoc]
  exact Iff.rfl

theorem isWordChar_iff {c : Char} : isWordChar c = true ↔ IsNameStart c ∨ '0' ≤ c ∧ c ≤ '9' := by
  have hdigit : c.isDigit = true ↔ '0' ≤ c ∧ c ≤ '9' := by
    simp only [Char.isDigit, Bool.and_eq_true, decide_eq_true_eq]
    exact Iff.rfl
  rw [← isLetter_iff, ← hdigit]
  simp only [isLetter, isWordChar, Char.isAlphanum, Bool.or_eq_true]
  exact or_right_comm

theorem isIdentifier_iff {s : String} : isIdentifier s = true ↔ IsName s := by
  unfold isIdentifier IsName
  split
  · next heq => simp [heq]
  · next c cs heq => simp [heq, isLetter_iff, isWordChar_iff]

end Text

/-! ## 2.  Thresholds -/

namespace Value

/-- The value is a number, and which one.  A switch is none, and neither is an infinite double. -/
inductive Denotes : Value → Rat → Prop
  | int (n : Int) : Denotes (.int n) n
  | float {x : Float} {q : Rat} (h : Double.value? x = some q) : Denotes (.float x) q

/-- The whole number stands in the value, perhaps deep inside a list. -/
inductive HasInt (n : Int) : Value → Prop
  | int : HasInt n (.int n)
  | list {v : Value} {vs : List Value} (hv : v ∈ vs) (h : HasInt n v) : HasInt n (.list vs)

/-- No whole number in the value is too long to be written out. -/
def Short (v : Value) : Prop :=
  ∀ n, v.HasInt n → (Decimal.digits n.natAbs).length ≤ Decimal.digitLimit

mutual

theorem exists_written : (v : Value) → v.Short → ∃ text, v.written = .ok text
  | .null, _ => ⟨_, rfl⟩
  | .bool true, _ => ⟨_, rfl⟩
  | .bool false, _ => ⟨_, rfl⟩
  | .int n, h => ⟨_, if_neg (Nat.not_lt.2 (h n .int))⟩
  | .float _, _ => ⟨_, rfl⟩
  | .text _, _ => ⟨_, rfl⟩
  | .list vs, h => by
    obtain ⟨parts, hparts⟩ := exists_writtenAll vs fun v hv n hn => h n (.list hv hn)
    exact ⟨_, by rw [written, hparts]; rfl⟩

theorem exists_writtenAll :
    (vs : List Value) → (∀ v ∈ vs, v.Short) → ∃ parts, writtenAll vs = .ok parts
  | [], _ => ⟨_, rfl⟩
  | v :: vs, h => by
    obtain ⟨part, hpart⟩ := exists_written v (h v List.mem_cons_self)
    obtain ⟨parts, hparts⟩ := exists_writtenAll vs fun v hv => h v (List.mem_cons_of_mem _ hv)
    exact ⟨_, by rw [writtenAll, hpart, hparts]; rfl⟩

end

variable {v : Value}

theorem number?_eq_none_iff :
    v.number? = none ↔ ¬ ((∃ n, v = .int n) ∨ ∃ x, v = .float x) := by
  cases v <;> simp [number?]

/-- The comparison of whole numbers or of doubles compares the numbers that they stand for. -/
theorem inUnit_number?_iff :
    (∃ n, v.number? = some n ∧ n.InUnit) ↔ ∃ q, v.Denotes q ∧ 0 ≤ q ∧ q ≤ 1 := by
  cases v with
  | int n =>
    have hunit : (Number.whole n).InUnit ↔ (0 : Rat) ≤ n ∧ (n : Rat) ≤ 1 := by
      rw [Number.InUnit]
      exact_mod_cast Iff.rfl
    constructor
    · rintro ⟨_, ⟨⟩, h⟩
      exact ⟨n, .int n, hunit.1 h⟩
    · rintro ⟨_, ⟨⟩, h⟩
      exact ⟨_, rfl, hunit.2 h⟩
  | float x =>
    constructor
    · rintro ⟨_, ⟨⟩, h⟩
      obtain ⟨q, hq, hunit⟩ := (Double.inUnit_iff x).1 h
      exact ⟨q, .float hq, hunit⟩
    · rintro ⟨q, hq | hq, hunit⟩
      exact ⟨_, rfl, (Double.inUnit_iff x).2 ⟨q, hq, hunit⟩⟩
  | null | bool | text | list =>
    refine iff_of_false ?_ ?_
    · rintro ⟨_, ⟨⟩, -⟩
    · rintro ⟨_, ⟨⟩, -⟩

end Value

/-! ## 3.  Conditions, in the order in which they are checked -/

/-- What is required of a configuration. -/
inductive Condition where
  /-- The name is an identifier. -/
  | identifier (name : String)
  /-- The entry function gets another name. -/
  | entryRenamed
  /-- The resolution is no alias of itself. -/
  | resolutionNotAlias
  /-- The threshold is a whole number or a double. -/
  | thresholdIsNumber
  /-- The threshold is between zero and one. -/
  | thresholdInUnit

namespace Condition

/-- The configuration meets the condition. -/
def Holds (c : Configuration) : Condition → Prop
  | identifier name => Text.IsName name
  | entryRenamed => c.userEntry ≠ c.entryPoint
  | resolutionNotAlias => c.resolution ∉ c.resolutionAliases
  | thresholdIsNumber => (∃ n, c.maskThreshold = .int n) ∨ ∃ x, c.maskThreshold = .float x
  | thresholdInUnit => ∃ q, c.maskThreshold.Denotes q ∧ 0 ≤ q ∧ q ≤ 1

/-- What is reported about a configuration that does not meet the condition. -/
def Blames (c : Configuration) : Condition → Fault → Prop
  | identifier name, f => f = .invalidIdentifier name
  | entryRenamed, f => f = .userEntryIsEntryPoint
  | resolutionNotAlias, f => f = .aliasIsResolution c.resolution
  | thresholdIsNumber, f => ∃ text, c.maskThreshold.written = .ok text ∧ f = .thresholdNotNumber text
  | thresholdInUnit, f => ∃ text, c.maskThreshold.written = .ok text ∧ f = .thresholdOutOfRange text

/-- The condition is the first of the list that fails. -/
def FirstFailing (c : Configuration) (ks : List Condition) (k : Condition) : Prop :=
  ∃ before after, ks = before ++ k :: after ∧ (∀ k' ∈ before, k'.Holds c) ∧ ¬ k.Holds c

variable {c : Configuration} {k k' : Condition} {ks : List Condition} {f : Fault}

theorem Blames.kind_eq_iff (h : k.Blames c f) : f.kind = .wrongType ↔ k = .thresholdIsNumber := by
  cases k with
  | identifier | entryRenamed | resolutionNotAlias =>
    cases h
    simp [Fault.kind]
  | thresholdIsNumber | thresholdInUnit =>
    obtain ⟨text, -, rfl⟩ := h
    simp [Fault.kind]

theorem not_firstFailing_nil : ¬ FirstFailing c [] k := by
  rintro ⟨before, after, heq, -⟩
  simp at heq

theorem firstFailing_cons :
    FirstFailing c (k' :: ks) k ↔ ¬ k'.Holds c ∧ k = k' ∨ k'.Holds c ∧ FirstFailing c ks k := by
  constructor
  · rintro ⟨_ | ⟨k₁, before⟩, after, heq, hbefore, hk⟩
    · obtain ⟨rfl, -⟩ := List.cons.inj heq
      exact Or.inl ⟨hk, rfl⟩
    · obtain ⟨rfl, hks⟩ := List.cons.inj heq
      obtain ⟨hk₁, hbefore⟩ := List.forall_mem_cons.1 hbefore
      exact Or.inr ⟨hk₁, before, after, hks, hbefore, hk⟩
  · rintro (⟨hk, rfl⟩ | ⟨hk', before, after, rfl, hbefore, hk⟩)
    · exact ⟨[], ks, rfl, List.forall_mem_nil _, hk⟩
    · exact ⟨k' :: before, after, rfl, List.forall_mem_cons.2 ⟨hk', hbefore⟩, hk⟩

/-- The fault is that of the first condition of the list that fails. -/
def Reports (c : Configuration) (ks : List Condition) (f : Fault) : Prop :=
  ∃ k, FirstFailing c ks k ∧ k.Blames c f

theorem not_reports_nil : ¬ Reports c [] f := by
  rintro ⟨k, hk, -⟩
  exact not_firstFailing_nil hk

theorem reports_cons_of_holds (h : k.Holds c) : Reports c (k :: ks) f ↔ Reports c ks f := by
  simp [Reports, firstFailing_cons, h]

theorem reports_cons_of_not_holds (h : ¬ k.Holds c) : Reports c (k :: ks) f ↔ k.Blames c f := by
  simp [Reports, firstFailing_cons, h]

/-- Among names and then other conditions, the first name that is no identifier comes first. -/
theorem reports_identifiers (names : List String) :
    Reports c (names.map identifier ++ ks) f ↔
      match names.find? fun name => !Text.isIdentifier name with
      | some name => f = .invalidIdentifier name
      | none => Reports c ks f := by
  induction names with
  | nil => rfl
  | cons name names ih =>
    rw [List.map_cons, List.cons_append, List.find?_cons]
    have hholds : (identifier name).Holds c ↔ Text.isIdentifier name = true :=
      Text.isIdentifier_iff.symm
    cases hname : Text.isIdentifier name with
    | false => exact reports_cons_of_not_holds (by simp [hholds, hname])
    | true => exact (reports_cons_of_holds (hholds.2 hname)).trans ih

/-- The threshold is checked for being a number first. -/
theorem reports_threshold (hshort : c.maskThreshold.Short) :
    Reports c [thresholdIsNumber, thresholdInUnit] f ↔
      Threshold.ofValue c.maskThreshold = .error f := by
  obtain ⟨text, htext⟩ := c.maskThreshold.exists_written hshort
  have hnumber : thresholdIsNumber.Holds c ↔ c.maskThreshold.number? ≠ none := by
    rw [ne_eq, Value.number?_eq_none_iff, not_not]
    exact Iff.rfl
  have hunit : thresholdInUnit.Holds c ↔ ∃ n, c.maskThreshold.number? = some n ∧ n.InUnit :=
    Value.inUnit_number?_iff.symm
  rw [Threshold.ofValue]
  split
  · next hnone =>
    rw [reports_cons_of_not_holds (by simp [hnumber, hnone])]
    simp [Blames, Fault.about, htext, eq_comm]
  next n hn =>
  rw [reports_cons_of_holds (by simp [hnumber, hn])]
  split
  · next h =>
    rw [reports_cons_of_holds (by simp [hunit, hn, h])]
    simp [not_reports_nil]
  · next h =>
    rw [reports_cons_of_not_holds (by simp [hunit, hn, h])]
    simp [Blames, Fault.about, htext, eq_comm]

end Condition

namespace Configuration

/-- A configuration of which a dialect can be made. -/
structure WellFormed (c : Configuration) : Prop where
  resolution : Text.IsName c.resolution
  resolutionAliases : ∀ name ∈ c.resolutionAliases, Text.IsName name
  time : Text.IsName c.time
  mouse : Text.IsName c.mouse
  mask : Text.IsName c.mask
  entryPoint : Text.IsName c.entryPoint
  userEntry : Text.IsName c.userEntry
  entryRenamed : c.userEntry ≠ c.entryPoint
  resolutionNotAlias : c.resolution ∉ c.resolutionAliases
  threshold : ∃ q, c.maskThreshold.Denotes q ∧ 0 ≤ q ∧ q ≤ 1

open Condition in
/-- What is checked, in order. -/
def conditions (c : Configuration) : List Condition :=
  identifier c.resolution :: c.resolutionAliases.map identifier ++
    [identifier c.time, identifier c.mouse, identifier c.mask, identifier c.entryPoint,
      identifier c.userEntry, entryRenamed, resolutionNotAlias, thresholdIsNumber, thresholdInUnit]

variable {c : Configuration}

theorem conditions_eq (c : Configuration) :
    c.conditions = c.names.map .identifier ++
      [.entryRenamed, .resolutionNotAlias, .thresholdIsNumber, .thresholdInUnit] := by
  simp [conditions, Vocabulary.names]

theorem wellFormed_iff :
    c.WellFormed ↔ (c.names.find? fun name => !Text.isIdentifier name) = none ∧
      c.userEntry ≠ c.entryPoint ∧ c.resolution ∉ c.resolutionAliases ∧
        ∃ n, c.maskThreshold.number? = some n ∧ n.InUnit := by
  have hnames : (c.names.find? fun name => !Text.isIdentifier name) = none ↔
      Text.IsName c.resolution ∧ (∀ name ∈ c.resolutionAliases, Text.IsName name) ∧
        Text.IsName c.time ∧ Text.IsName c.mouse ∧ Text.IsName c.mask ∧ Text.IsName c.entryPoint ∧
          Text.IsName c.userEntry := by
    simp [Vocabulary.names, or_imp, forall_and, Text.isIdentifier_iff]
  rw [hnames, Value.inUnit_number?_iff]
  constructor
  · rintro ⟨h₁, h₂, h₃, h₄, h₅, h₆, h₇, h₈, h₉, h₁₀⟩
    exact ⟨⟨h₁, h₂, h₃, h₄, h₅, h₆, h₇⟩, h₈, h₉, h₁₀⟩
  · rintro ⟨⟨h₁, h₂, h₃, h₄, h₅, h₆, h₇⟩, h₈, h₉, h₁₀⟩
    exact ⟨h₁, h₂, h₃, h₄, h₅, h₆, h₇, h₈, h₉, h₁₀⟩

/-- Checking a well-formed configuration gives a dialect with its names and its threshold. -/
theorem WellFormed.exists_check (h : c.WellFormed) :
    ∃ d, c.check = .ok d ∧ d.toVocabulary = c.toVocabulary ∧
      c.maskThreshold.number? = some d.threshold.number := by
  obtain ⟨hnames, hentry, hresolution, n, hn, hunit⟩ := wellFormed_iff.1 h
  unfold check
  split
  · next hsome => exact absurd (hsome.symm.trans hnames) (by simp)
  · rw [dif_neg hentry, dif_neg hresolution]
    simp [Threshold.ofValue, hn, hunit]

/-- Whatever gives a dialect is well-formed. -/
theorem wellFormed_of_check {d : Dialect} (h : c.check = .ok d) : c.WellFormed := by
  unfold check at h
  split at h
  · cases h
  next hnames =>
  split at h
  · cases h
  next hentry =>
  split at h
  · cases h
  next hresolution =>
  split at h
  · cases h
  next threshold hthreshold =>
  refine wellFormed_iff.2 ⟨hnames, hentry, hresolution, ?_⟩
  unfold Threshold.ofValue at hthreshold
  split at hthreshold
  · cases hthreshold
  next n hn =>
  split at hthreshold
  · next hunit => exact ⟨n, hn, hunit⟩
  · cases hthreshold

/-- A fault is that of the first condition that fails. -/
theorem check_eq_error_iff {f : Fault} (hshort : c.maskThreshold.Short) :
    c.check = .error f ↔ Condition.Reports c c.conditions f := by
  rw [conditions_eq, Condition.reports_identifiers]
  unfold check
  split
  · next name hname => simp [hname, eq_comm]
  next hnone =>
  have hentry : Condition.entryRenamed.Holds c ↔ c.userEntry ≠ c.entryPoint := Iff.rfl
  have hresolution :
      Condition.resolutionNotAlias.Holds c ↔ c.resolution ∉ c.resolutionAliases := Iff.rfl
  simp only [hnone]
  split
  · next h =>
    rw [Condition.reports_cons_of_not_holds (by simp [hentry, h])]
    simp [Condition.Blames, eq_comm]
  next h =>
  rw [Condition.reports_cons_of_holds (hentry.2 h)]
  split
  · next h =>
    rw [Condition.reports_cons_of_not_holds (by simp [hresolution, h])]
    simp [Condition.Blames, eq_comm]
  next h =>
  rw [Condition.reports_cons_of_holds (hresolution.2 h), Condition.reports_threshold hshort]
  split
  · next hthreshold => simp [hthreshold]
  · next hthreshold => simp [hthreshold]

/-- Checking a configuration gives a dialect, with its names and its threshold, if and only if the
configuration is well-formed.  Otherwise it gives a fault.  If no whole number in the threshold is too
long to be written out, the fault is that of the first condition that fails, and it is about the type
of a value only if the threshold is neither a whole number nor a double. -/
theorem check_reports_first_fault (c : Configuration) :
    ((∃ d, c.check = .ok d ∧ d.toVocabulary = c.toVocabulary ∧
        c.maskThreshold.number? = some d.threshold.number) ↔ c.WellFormed) ∧
      ((∃ f, c.check = .error f) ↔ ¬ c.WellFormed) ∧
      (c.maskThreshold.Short → ∀ f, c.check = .error f ↔
        ∃ k, Condition.FirstFailing c c.conditions k ∧ k.Blames c f ∧
          (f.kind = .wrongType ↔ k = .thresholdIsNumber)) := by
  refine ⟨⟨?_, WellFormed.exists_check⟩, ?_, ?_⟩
  · rintro ⟨d, hd, -⟩
    exact wellFormed_of_check hd
  · constructor
    · rintro ⟨f, hf⟩ h
      obtain ⟨d, hd, -⟩ := h.exists_check
      exact absurd (hd.symm.trans hf) (by simp)
    · intro h
      cases hcheck : c.check with
      | ok d => exact absurd (wellFormed_of_check hcheck) h
      | error f => exact ⟨f, rfl⟩
  · intro hshort f
    rw [check_eq_error_iff hshort]
    constructor
    · rintro ⟨k, hk, hf⟩
      exact ⟨k, hk, hf, hf.kind_eq_iff⟩
    · rintro ⟨k, hk, hf, -⟩
      exact ⟨k, hk, hf⟩

/-- An alias that ends in a line break, another one that starts with a digit, an entry function that
keeps its name, and a list for a threshold: the first alias is reported. -/
theorem check_reports_first_fault_of_four :
    let c : Configuration := {
      resolutionAliases := ["size", "size\n", "2d"]
      userEntry := "main"
      maskThreshold := .list [.int 1, .bool true] }
    c.maskThreshold.Short ∧ ¬ c.WellFormed ∧ c.check = .error (.invalidIdentifier "size\n") := by
  intro c
  have hshort : c.maskThreshold.Short := by
    rintro n (_ | ⟨hv, h⟩)
    rcases List.mem_cons.1 hv with rfl | hv
    · cases h
      rw [Decimal.digits]
      decide
    · rcases List.mem_singleton.1 hv with rfl
      cases h
  have hholds (name : String) :
      (Condition.identifier name).Holds c ↔ Text.isIdentifier name = true :=
    Text.isIdentifier_iff.symm
  have hfailing : Condition.FirstFailing c c.conditions (.identifier "size\n") := by
    refine ⟨[.identifier "iResolution", .identifier "size"], _, rfl, ?_, ?_⟩
    · simp only [List.forall_mem_cons, hholds]
      exact ⟨rfl, rfl, List.forall_mem_nil _⟩
    · rw [hholds]
      decide
  obtain ⟨-, hwell, hfirst⟩ := check_reports_first_fault c
  have hcheck : c.check = .error (.invalidIdentifier "size\n") :=
    (hfirst hshort _).2 ⟨_, hfailing, rfl, by simp [Fault.kind]⟩
  exact ⟨hshort, hwell.1 ⟨_, hcheck⟩, hcheck⟩

end Configuration
end ShaderPreview
