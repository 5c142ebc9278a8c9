import ShaderPreview.Session

/-!
# Control values over a session

While a shader is edited, uniforms come and go, change their types and become reserved, and values
are set at any time, even under names that were never declared.  Through all of this a control keeps
its place, and its value depends on two things only: the last value that it was given, and the first
edit that declared it.

## 1.  Controls

Setting a value and declaring a uniform both leave the names as they are, or put one new name last:
`withName`.  `get?_declareAll` says which values the declarations of an edit bring.

## 2.  The history of a name

`Step.assigned?` and `Step.declared` are what a step has to do with a name, and `Step.dialectAfter`
is the dialect that a step leaves in force.  `lastAssigned?` and `declarations` collect them over a
sequence of steps, without looking at the controls.

## 3.  Steps and runs

`get?_next` is the one equation for the value of a name after a step of any kind, and `get?_after`
follows from it for a sequence of steps.  `controls_over_run` is about every session that a run goes
through.
-/

namespace ShaderPreview

/-! ## 1.  Controls -/

namespace Controls

/-- Names with one more, which goes last if it is new. -/
def withName (names : List String) (name : String) : List String :=
  if name ∈ names then names else names ++ [name]

variable {c : Controls} {us : List Uniform} {names : List String}

theorem prefix_withName (names : List String) (name : String) : names <+: withName names name := by
  unfold withName
  split
  · exact List.prefix_rfl
  · exact List.prefix_append _ _

theorem mem_withName_self (names : List String) (name : String) : name ∈ withName names name := by
  unfold withName
  split
  · next h => exact h
  · exact List.mem_append_right _ (List.mem_singleton_self _)

theorem nodup_withName (h : names.Nodup) (name : String) : (withName names name).Nodup := by
  unfold withName
  split
  · exact h
  · next hnew =>
    rw [List.nodup_append]
    refine ⟨h, List.pairwise_singleton _ _, fun a ha b hb => ?_⟩
    rw [List.mem_singleton.1 hb]
    rintro rfl
    exact hnew ha

theorem names_declare (c : Controls) (u : Uniform) : (c.declare u).names = withName c.names u.name := by
  unfold declare withName
  split
  · rfl
  · simp [names]

/-- Declared uniforms leave the names in their places. -/
theorem prefix_names_declareAll (c : Controls) (us : List Uniform) :
    c.names <+: (c.declareAll us).names := by
  induction us generalizing c with
  | nil => exact List.prefix_rfl
  | cons u us ih =>
    have hu : c.names <+: (c.declare u).names := by
      rw [names_declare]
      exact prefix_withName _ _
    exact hu.trans (ih (c.declare u))

theorem nodup_names_declareAll (h : c.names.Nodup) : (c.declareAll us).names.Nodup := by
  induction us generalizing c with
  | nil => exact h
  | cons u us ih =>
    refine ih ?_
    rw [names_declare]
    exact nodup_withName h _

/-- Every declared uniform has a value. -/
theorem mem_names_declareAll {u : Uniform} (h : u ∈ us) : u.name ∈ (c.declareAll us).names := by
  induction us generalizing c with
  | nil => exact absurd h List.not_mem_nil
  | cons u' us ih =>
    rcases List.mem_cons.1 h with rfl | h
    · have hu : u.name ∈ (c.declare u).names := by
        rw [names_declare]
        exact mem_withName_self _ _
      exact (prefix_names_declareAll (c.declare u) us).subset hu
    · exact ih h

/-- The names are those that have a value. -/
theorem isSome_get?_iff (c : Controls) (name : String) :
    (c.get? name).isSome = true ↔ name ∈ c.names := by
  simp [get?, names, List.find?_isSome]

/-- A declared uniform brings the first value of its kind, unless its name has one. -/
theorem get?_declare (c : Controls) (u : Uniform) (name : String) :
    (c.declare u).get? name =
      (c.get? name).or (if u.name = name then some u.kind.initial else none) := by
  unfold declare
  split
  · next hmem =>
    split
    · next heq =>
      subst heq
      obtain ⟨v, hv⟩ := Option.isSome_iff_exists.1 ((isSome_get?_iff c u.name).2 hmem)
      rw [hv, Option.some_or]
    · rw [Option.or_none]
  · simp only [get?, List.find?_append, Option.map_or]
    by_cases heq : u.name = name <;> simp [heq]

/-- The first uniform under a name brings its value, unless the name has one. -/
theorem get?_declareAll (c : Controls) (us : List Uniform) (name : String) :
    (c.declareAll us).get? name =
      (c.get? name).or ((us.find? fun u => u.name == name).map fun u => u.kind.initial) := by
  induction us generalizing c with
  | nil => simp [declareAll]
  | cons u us ih =>
    show ((c.declare u).declareAll us).get? name = _
    rw [ih, get?_declare, Option.or_assoc]
    by_cases heq : u.name = name <;> simp [heq]

end Controls

/-! ## 2.  The history of a name -/

namespace Session

/-- The dialect in force after a step.  A faulty configuration leaves the one that was. -/
def Step.dialectAfter (d : Dialect) : Step → Dialect
  | .configure c => c.check.toOption.getD d
  | .edit _ | .set _ _ | .report _ => d

/-- The uniforms that a step declares under a dialect. -/
def Step.declared (d : Dialect) : Step → List Uniform
  | .edit source => Uniform.ofSource d source
  | .set _ _ | .configure _ | .report _ => []

/-- The value that a step assigns to a name. -/
def Step.assigned? (name : String) : Step → Option Value
  | .set other v => if other = name then some v else none
  | .edit _ | .configure _ | .report _ => none

/-- All uniforms that are declared, edit by edit, each edit under the dialect in force at the time. -/
def declarations (d : Dialect) : List Step → List Uniform
  | [] => []
  | a :: as => a.declared d ++ declarations (a.dialectAfter d) as

/-- The kind that a name has where it is declared first. -/
def firstKind? (d : Dialect) (name : String) (as : List Step) : Option ControlKind :=
  ((declarations d as).find? fun u => u.name == name).map Uniform.kind

/-- The value that a name was assigned last. -/
def lastAssigned? (name : String) (as : List Step) : Option Value :=
  as.reverse.findSome? (Step.assigned? name)

variable {s : Session} {a : Step} {as : List Step}

theorem lastAssigned?_cons (name : String) (a : Step) (as : List Step) :
    lastAssigned? name (a :: as) = (lastAssigned? name as).or (a.assigned? name) := by
  simp [lastAssigned?, List.findSome?_append]

theorem firstKind?_cons (d : Dialect) (name : String) (a : Step) (as : List Step) :
    firstKind? d name (a :: as) =
      (((a.declared d).find? fun u => u.name == name).map Uniform.kind).or
        (firstKind? (a.dialectAfter d) name as) := by
  rw [firstKind?, declarations, List.find?_append, Option.map_or, firstKind?]

/-! ## 3.  Steps and runs -/

/-- A new dialect comes into force, or a faulty configuration changes nothing. -/
theorem next_configure (s : Session) (c : Configuration) :
    s.next (.configure c) = { s with dialect := c.check.toOption.getD s.dialect } := by
  simp only [next, step]
  cases c.check with
  | ok d => rfl
  | error fault => rfl

/-- A report changes nothing, whether it can be answered or not. -/
theorem next_report (s : Session) (log : String) : s.next (.report log) = s := by
  simp only [next, step]
  cases Diagnostic.toUserLines log.toList s.lineOffset with
  | error fault => rfl
  | ok text =>
    cases Diagnostic.lines log.toList with
    | ok lines => rfl
    | error fault => rfl

/-- A refused step changes nothing. -/
theorem next_of_answer_eq_error {r : Refusal} (h : s.answer a = .error r) : s.next a = s := by
  unfold answer at h
  unfold next
  cases hstep : s.step a with
  | ok t => simp [hstep, Except.map] at h
  | error r' => rfl

theorem dialect_next (s : Session) (a : Step) : (s.next a).dialect = a.dialectAfter s.dialect := by
  cases a with
  | edit source => rfl
  | set name v => rfl
  | configure c => rw [next_configure, Step.dialectAfter]
  | report log => rw [next_report, Step.dialectAfter]

/-- A step leaves the names in their places. -/
theorem prefix_names_next (s : Session) (a : Step) : s.values.names <+: (s.next a).values.names := by
  cases a with
  | edit source => exact Controls.prefix_names_declareAll _ _
  | set name v =>
    show s.values.names <+: (s.values.set name v).names
    rw [Controls.names_set]
    exact Controls.prefix_withName _ _
  | configure c =>
    have hnames : (s.next (.configure c)).values.names = s.values.names := by
      rw [next_configure]
    exact hnames ▸ List.prefix_rfl
  | report log =>
    have hnames : (s.next (.report log)).values.names = s.values.names := by
      rw [next_report]
    exact hnames ▸ List.prefix_rfl

/-- A step names no control twice. -/
theorem nodup_names_next (h : s.values.names.Nodup) (a : Step) : (s.next a).values.names.Nodup := by
  cases a with
  | edit source => exact Controls.nodup_names_declareAll h
  | set name v =>
    show (s.values.set name v).names.Nodup
    rw [Controls.names_set]
    exact Controls.nodup_withName h _
  | configure c =>
    rw [next_configure]
    exact h
  | report log =>
    rw [next_report]
    exact h

/-- The value of a name after a step: what the step assigns, or what it was, or what the step's
declaration brings. -/
theorem get?_next (s : Session) (a : Step) (name : String) :
    (s.next a).values.get? name = (a.assigned? name).or ((s.values.get? name).or
      ((((a.declared s.dialect).find? fun u => u.name == name).map Uniform.kind).map
        ControlKind.initial)) := by
  cases a with
  | edit source =>
    show (s.values.declareAll (Uniform.ofSource s.dialect source)).get? name = _
    rw [Controls.get?_declareAll, Step.assigned?, Option.none_or, Step.declared, Option.map_map]
    rfl
  | set other v =>
    show (s.values.set other v).get? name = _
    rw [Step.assigned?, Step.declared]
    by_cases h : other = name
    · rw [h, Controls.get?_set_self, if_pos rfl, Option.some_or]
    · rw [Controls.get?_set_of_ne _ _ (Ne.symm h), if_neg h]
      simp
  | configure c =>
    rw [next_configure, Step.assigned?, Step.declared]
    simp
  | report log =>
    rw [next_report, Step.assigned?, Step.declared]
    simp

/-- The value of a name after some steps: the last that was assigned, or what it was, or what the
first declaration brought. -/
theorem get?_after (s : Session) (as : List Step) (name : String) :
    (s.after as).values.get? name = (lastAssigned? name as).or ((s.values.get? name).or
      ((firstKind? s.dialect name as).map ControlKind.initial)) := by
  induction as generalizing s with
  | nil => simp [after, lastAssigned?, firstKind?, declarations]
  | cons a as ih =>
    show ((s.next a).after as).values.get? name = _
    rw [ih, get?_next, dialect_next, lastAssigned?_cons, firstKind?_cons, Option.map_or]
    simp only [Option.or_assoc]

theorem dialect_after (s : Session) (as : List Step) :
    (s.after as).dialect = as.foldl (fun d a => a.dialectAfter d) s.dialect := by
  induction as generalizing s with
  | nil => rfl
  | cons a as ih =>
    show ((s.next a).after as).dialect = _
    rw [ih, dialect_next, List.foldl_cons]

theorem nodup_names_after (h : s.values.names.Nodup) (as : List Step) :
    (s.after as).values.names.Nodup := by
  induction as generalizing s with
  | nil => exact h
  | cons a as ih => exact ih (nodup_names_next h a)

/-- A run goes through the sessions after each of its steps. -/
theorem eq_after_of_run {i : Nat} {t : Session} {r : Except Refusal Reply}
    (h : (s.run as)[i]? = some (r, t)) : t = s.after (as.take (i + 1)) := by
  induction as generalizing s i with
  | nil => simp [run] at h
  | cons a as ih =>
    rw [run] at h
    cases i with
    | zero =>
      rw [List.getElem?_cons_zero, Option.some.injEq, Prod.mk.injEq] at h
      rw [← h.2, List.take_succ_cons, List.take_zero]
      rfl
    | succ i =>
      rw [List.getElem?_cons_succ] at h
      rw [ih h, List.take_succ_cons]
      rfl

/-- The controls of the session `s`, which has taken the steps `as` since it was opened with a
dialect, and what the next step can do to it. -/
structure KeepsControls (d : Dialect) (as : List Step) (s : Session) : Prop where
  dialect : s.dialect = as.foldl (fun d a => a.dialectAfter d) d
  names_nodup : s.values.names.Nodup
  /-- The names are those that have a value. -/
  mem_names_iff : ∀ name, name ∈ s.values.names ↔ (s.values.get? name).isSome = true
  /-- The last value that was assigned, or the first value of the first declared kind. -/
  value : ∀ name, s.values.get? name =
    (lastAssigned? name as).or ((firstKind? d name as).map ControlKind.initial)
  names_prefix : ∀ a, s.values.names <+: (s.next a).values.names
  declared : ∀ source, ∀ u ∈ Uniform.ofSource s.dialect source,
    u.name ∈ (s.next (.edit source)).values.names
  refused : ∀ a r, s.answer a = .error r → s.next a = s

/-- A session that is opened with a dialect has this property after any steps. -/
theorem keepsControls_after (d : Dialect) (as : List Step) :
    KeepsControls d as (after { dialect := d } as) where
  dialect := dialect_after { dialect := d } as
  names_nodup := nodup_names_after (s := { dialect := d }) List.nodup_nil as
  mem_names_iff := fun name => (Controls.isSome_get?_iff _ name).symm
  value := fun name => get?_after { dialect := d } as name
  names_prefix := prefix_names_next _
  declared := fun _ _ hu => Controls.mem_names_declareAll hu
  refused := fun _ _ => next_of_answer_eq_error

/-- Over a run of any steps, controls are neither lost nor moved nor named twice, an edit names every
uniform that it declares, and a control has the value that was assigned last, or else the first value
of the kind that it had in the first edit that declared it.  A step that is refused changes nothing. -/
theorem controls_over_run (d : Dialect) (as : List Step) :
    KeepsControls d as (after { dialect := d } as) ∧
      ∀ i r t, (run { dialect := d } as)[i]? = some (r, t) → KeepsControls d (as.take (i + 1)) t := by
  refine ⟨keepsControls_after d as, fun i r t h => ?_⟩
  rw [eq_after_of_run h]
  exact keepsControls_after d _

/-- A value that is set before its uniform is declared is kept, and so is the first value of a colour
whose name becomes reserved; the step in between is refused. -/
theorem speed_and_tint_kept :
    ∃ r t, (run { dialect := .standard }
        [.set "speed" (.int 3), .edit "uniform float speed;\nuniform vec3 tint;",
          .configure { mouse := "1st" }, .configure { time := "tint" },
          .edit "uniform float tint;\nuniform bool speed;"])[4]? = some (r, t) ∧
      t.values.get? "speed" = some (.int 3) ∧
      t.values.get? "tint" = some ControlKind.vec3.initial := by
  have hrun := (controls_over_run .standard
    [.set "speed" (.int 3), .edit "uniform float speed;\nuniform vec3 tint;",
      .configure { mouse := "1st" }, .configure { time := "tint" },
      .edit "uniform float tint;\nuniform bool speed;"]).2 4 _ _ rfl
  refine ⟨_, _, rfl, ?_, ?_⟩
  · rw [hrun.value "speed"]
    rfl
  · have htint : firstKind? .standard "tint"
        [.set "speed" (.int 3), .edit "uniform float speed;\nuniform vec3 tint;",
          .configure { mouse := "1st" }, .configure { time := "tint" },
          .edit "uniform float tint;\nuniform bool speed;"] = some .vec3 := by
      decide +kernel
    rw [hrun.value "tint", List.take_of_length_le (by decide), htint]
    rfl

end Session
end ShaderPreview
