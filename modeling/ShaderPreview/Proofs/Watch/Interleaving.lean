import ShaderPreview.Proofs.Watch.Script

/-!
# No modification is lost

The observer tells the watcher of modifications at any time, not only while the run sleeps: between
the test of the flag and its clearing, or between the clearing and the next look at the shader.  The
flag is cleared before the shader is read, so that what the clearing hides is seen by the reading
that follows.

## 1.  Small steps

The run is taken apart into the actions between which something else can happen: it tests the flag,
clears it, reads the shader, finishes with what it has read, and sleeps.  `Moves` is one such action
or one thing that happens; `Leads` is any sequence of them.

## 2.  What is kept

`Attended.step` is what one move keeps, and `Leads.attended` follows for every sequence of moves.

## 3.  Runs as sequences of moves

`leads_run`: a run of the watch command is one of these sequences, in which things happen only while
it sleeps.

`no_modification_lost` puts them together.
-/

namespace ShaderPreview
namespace Watch

open Files

/-! ## 1.  Small steps -/

/-- Where a run stands. -/
inductive Phase where
  /-- The shader is about to be read, for the first time or after the flag was cleared. -/
  | reading (first : Bool)
  /-- The shader was read, or could not be, and the program is about to be generated. -/
  | finishing (first : Bool) (loaded : Except Failure String)
  /-- The flag is about to be tested. -/
  | testing
  /-- The flag was set and is about to be cleared. -/
  | clearing
  | sleeping
  /-- Something that nothing handles has ended the loop. -/
  | ended

/-- A run at some point between two of its actions. -/
structure Moment where
  phase : Phase
  state : State

/-- What can be seen to take place. -/
inductive Event where
  /-- A file changes, or the watcher is told of a modification. -/
  | happened (step : Step)
  | tested
  | cleared
  | read
  | finished
  | slept

/-- Where a run goes on once the shader is processed. -/
def Phase.afterProcessing (first : Bool) : Except Abort (Option Program) → Phase
  | .error _ => .ended
  | .ok _ => if first then .testing else .sleeping

/-- One action of the run, or one thing that happens between two of them. -/
inductive Moves : Moment → Event → Moment → Prop where
  | happened (phase : Phase) (s : State) (step : Step) :
      Moves ⟨phase, s⟩ (.happened step) ⟨phase, (s.handle step.request).1⟩
  | tested (s : State) :
      Moves ⟨.testing, s⟩ .tested ⟨if s.watcher.modified then .clearing else .sleeping, s⟩
  | cleared (s : State) :
      Moves ⟨.clearing, s⟩ .cleared ⟨.reading false, (s.handle .forget).1⟩
  | read (first : Bool) (s : State) :
      Moves ⟨.reading first, s⟩ .read
        ⟨.finishing first (readText s.files s.cwd s.watcher.shader), s⟩
  | finished (first : Bool) (loaded : Except Failure String) (s : State) :
      Moves ⟨.finishing first loaded, s⟩ .finished
        ⟨.afterProcessing first (s.watcher.conclude s.cwd s.files loaded).result,
          { s with files := (s.watcher.conclude s.cwd s.files loaded).files }⟩
  | slept (s : State) :
      Moves ⟨.sleeping, s⟩ .slept ⟨.testing, s⟩

theorem Moves.tested_of_modified {s : State} (h : s.watcher.modified = true) :
    Moves ⟨.testing, s⟩ .tested ⟨.clearing, s⟩ := by
  have hmove := Moves.tested s
  rwa [if_pos h] at hmove

theorem Moves.tested_of_not_modified {s : State} (h : s.watcher.modified = false) :
    Moves ⟨.testing, s⟩ .tested ⟨.sleeping, s⟩ := by
  have hmove := Moves.tested s
  rwa [h, if_neg Bool.false_ne_true] at hmove

/-- A sequence of moves, with what takes place in it. -/
inductive Leads (start : Moment) : List Event → Moment → Prop where
  | nil : Leads start [] start
  | snoc {events : List Event} {event : Event} {m m' : Moment} (h : Leads start events m)
      (hmove : Moves m event m') : Leads start (events ++ [event]) m'

theorem Leads.single {m m' : Moment} {event : Event} (h : Moves m event m') : Leads m [event] m' :=
  .snoc .nil h

theorem Leads.append {start m m' : Moment} {before after : List Event} (h : Leads start before m)
    (hrest : Leads m after m') : Leads start (before ++ after) m' := by
  induction hrest with
  | nil =>
    rw [List.append_nil]
    exact h
  | snoc _ hmove ih =>
    rw [← List.append_assoc]
    exact .snoc ih hmove

/-! ## 2.  What is kept -/

/-- Every modification of the shader that the watcher was told of is followed by a reading of the
shader. -/
def Fresh (cwd : Location) (shader : String) (events : List Event) : Prop :=
  ∀ before step after, events = before ++ .happened step :: after →
    step.touches cwd shader = true → .read ∈ after

variable {cwd : Location} {shader : String} {events : List Event} {event : Event}

theorem fresh_nil (cwd : Location) (shader : String) : Fresh cwd shader [] := by
  intro before step after h
  simp at h

/-- A reading makes up for everything before it. -/
theorem fresh_snoc_read (cwd : Location) (shader : String) (events : List Event) :
    Fresh cwd shader (events ++ [.read]) := by
  intro before step after h _
  rcases List.eq_nil_or_concat after with rfl | ⟨after, last, rfl⟩
  · exact absurd (List.append_inj_right' h rfl) (by simp)
  · rw [List.concat_eq_append, ← List.cons_append, ← List.append_assoc] at h
    have hlast := List.append_inj_right' h rfl
    rw [List.concat_eq_append, ← hlast]
    exact List.mem_append_right _ (List.mem_singleton_self _)

/-- What does not tell of a modification needs no reading. -/
theorem Fresh.snoc (h : Fresh cwd shader events)
    (hevent : ∀ step, event = .happened step → step.touches cwd shader = false) :
    Fresh cwd shader (events ++ [event]) := by
  intro before step after heq htouches
  rcases List.eq_nil_or_concat after with rfl | ⟨after, last, rfl⟩
  · have hlast : event = .happened step := by simpa using List.append_inj_right' heq rfl
    rw [hevent step hlast] at htouches
    exact absurd htouches Bool.false_ne_true
  · rw [List.concat_eq_append, ← List.cons_append, ← List.append_assoc] at heq
    have hread := h before step after (List.append_inj_left' heq rfl) htouches
    rw [List.concat_eq_append]
    exact List.mem_append_left _ hread

/-- What holds at every moment: the flag is set, or the shader is about to be read after the flag was
cleared, or every modification is followed by a reading. -/
structure Attended (cwd : Location) (shader : String) (events : List Event) (m : Moment) : Prop where
  cwd_eq : m.state.cwd = cwd
  shader_eq : m.state.watcher.shader = shader
  seen : m.state.watcher.modified = true ∨ m.phase = .reading false ∨ Fresh cwd shader events

/-- An action that is not a reading and leaves the flag alone keeps this. -/
theorem seen_snoc {modified : Bool} {phase phase' : Phase} (hphase : phase ≠ .reading false)
    (hevent : ∀ step, event ≠ .happened step)
    (h : modified = true ∨ phase = .reading false ∨ Fresh cwd shader events) :
    modified = true ∨ phase' = .reading false ∨ Fresh cwd shader (events ++ [event]) := by
  rcases h with hmodified | hreading | hfresh
  · exact .inl hmodified
  · exact absurd hreading hphase
  · exact .inr (.inr (hfresh.snoc fun step h => absurd h (hevent step)))

/-- A move keeps this: only a modification spoils what was fresh, and it sets the flag; only clearing
takes the flag away, and then the shader is about to be read. -/
theorem Attended.step {m m' : Moment} (h : Attended cwd shader events m) (hmove : Moves m event m') :
    Attended cwd shader (events ++ [event]) m' := by
  obtain ⟨rfl, rfl, hseen⟩ := h
  cases hmove with
  | happened phase s step =>
    obtain ⟨hcwd, hshader⟩ := shader_handle_request s step
    refine ⟨hcwd, hshader, ?_⟩
    rw [modified_handle_request]
    cases htouches : step.touches s.cwd s.watcher.shader with
    | true => exact .inl (Bool.or_true _)
    | false =>
      rw [Bool.or_false]
      refine hseen.imp_right (Or.imp_right fun hfresh => hfresh.snoc ?_)
      rintro _ ⟨⟩
      exact htouches
  | tested s => exact ⟨rfl, rfl, seen_snoc (by simp) (by simp) hseen⟩
  | cleared s => exact ⟨rfl, rfl, .inr (.inl rfl)⟩
  | read first s => exact ⟨rfl, rfl, .inr (.inr (fresh_snoc_read _ _ _))⟩
  | finished first loaded s => exact ⟨rfl, rfl, seen_snoc (by simp) (by simp) hseen⟩
  | slept s => exact ⟨rfl, rfl, seen_snoc (by simp) (by simp) hseen⟩

theorem Leads.attended {start m : Moment} (h : Leads start events m) :
    Attended start.state.cwd start.state.watcher.shader events m := by
  induction h with
  | nil => exact ⟨rfl, rfl, .inr (.inr (fresh_nil _ _))⟩
  | snoc _ hmove ih => exact ih.step hmove

/-! ## 3.  Runs as sequences of moves -/

/-- The request that the watcher answers in an event, if any. -/
def Event.request? : Event → Option Request
  | .happened step => some step.request
  | .cleared => some .forget
  | .finished => some .refresh
  | .tested | .read | .slept => none

/-- The requests of events and those of actions are the same, in the same order. -/
def SameRequests (events : List Event) (actions : List Action) : Prop :=
  events.filterMap Event.request? = actions.filterMap Action.request?

theorem SameRequests.append {after : List Event} {actions actions' : List Action}
    (h : SameRequests events actions) (hrest : SameRequests after actions') :
    SameRequests (events ++ after) (actions ++ actions') := by
  unfold SameRequests at *
  rw [List.filterMap_append, List.filterMap_append, h, hrest]

theorem SameRequests.append_silent {actions silent : List Action} (h : SameRequests events actions)
    (hsilent : silent.filterMap Action.request? = []) : SameRequests events (actions ++ silent) := by
  unfold SameRequests at *
  rw [List.filterMap_append, hsilent, List.append_nil, h]

/-- A run ends once a refresh fails. -/
theorem afterProcessing_refresh (first : Bool) (s : State) :
    Phase.afterProcessing first (s.watcher.refresh s.cwd s.files).result =
      if (s.handle .refresh).2.abort? = none then if first then .testing else .sleeping
      else .ended := by
  cases h : (s.watcher.refresh s.cwd s.files).result with
  | error abort => simp [State.handle, Reply.abort?, Phase.afterProcessing, h]
  | ok program => simp [State.handle, Reply.abort?, Phase.afterProcessing, h]

/-- Reading the shader and finishing at once is a refresh. -/
theorem leads_refresh (first : Bool) (s : State) :
    Leads ⟨.reading first, s⟩ [.read, .finished]
      ⟨if (s.handle .refresh).2.abort? = none then if first then .testing else .sleeping else .ended,
        (s.handle .refresh).1⟩ := by
  rw [← afterProcessing_refresh]
  exact (Leads.single (.read first s)).snoc (.finished first _ s)

/-- The top of the loop. -/
theorem leads_reload (s : State) : ∃ events, SameRequests events s.reload.2.1 ∧
    Leads ⟨.testing, s⟩ events
      ⟨if s.reload.2.2 = none then .sleeping else .ended, s.reload.1⟩ := by
  cases h : s.watcher.modified with
  | true =>
    have hclear := (Leads.single (.tested_of_modified h)).snoc (.cleared s)
    rw [reload_of_modified h]
    exact ⟨[.tested, .cleared, .read, .finished], rfl,
      hclear.append (leads_refresh false (s.handle .forget).1)⟩
  | false =>
    rw [reload_of_not_modified h]
    exact ⟨[.tested], rfl, .single (.tested_of_not_modified h)⟩

/-- The loop: things happen while it sleeps. -/
theorem leads_loop (s : State) (index : Nat) (steps : List Step) :
    ∃ events m, SameRequests events (loop s index steps).actions ∧
      m.state.files = (loop s index steps).files ∧ Leads ⟨.testing, s⟩ events m := by
  induction steps generalizing s index with
  | nil =>
    obtain ⟨events, hsame, hleads⟩ := leads_reload s
    unfold loop
    generalize s.reload = top at hsame hleads ⊢
    rcases top with ⟨s', actions, _ | abort⟩
    · exact ⟨events, _, hsame.append_silent rfl, rfl, hleads⟩
    · exact ⟨events, _, hsame, rfl, hleads⟩
  | cons step steps ih =>
    obtain ⟨events, hsame, hleads⟩ := leads_reload s
    unfold loop
    generalize s.reload = top at hsame hleads ⊢
    rcases top with ⟨s', actions, _ | abort⟩
    · obtain ⟨after, m, hrest, hfiles, hleads'⟩ := ih (s'.handle step.request).1 (index + 1)
      have hsleep : Leads ⟨.sleeping, s'⟩ [.happened step, .slept]
          ⟨.testing, (s'.handle step.request).1⟩ :=
        (Leads.single (.happened .sleeping s' step)).snoc (.slept _)
      have hround : SameRequests [.happened step, .slept]
          [.sleep index, .handled step.request (s'.handle step.request).2] := rfl
      exact ⟨_, m, hsame.append (hround.append hrest), hfiles, hleads.append (hsleep.append hleads')⟩
    · exact ⟨events, _, hsame, rfl, hleads⟩

/-- A run of the watch command is a sequence of moves. -/
theorem leads_run (s : State) (directory : Path) (steps : List Step) :
    ∃ events m, SameRequests events (run s directory steps).actions ∧
      m.state.files = (run s directory steps).files ∧ Leads ⟨.reading true, s⟩ events m := by
  have hrefresh := leads_refresh true s
  have hopening : ∀ after : List Action, after.filterMap Action.request? = [] →
      SameRequests [.read, .finished]
        ([.schedule directory, .start, .handled .refresh (s.handle .refresh).2] ++ after) :=
    fun after hafter => SameRequests.append_silent rfl hafter
  unfold run
  rw [opening_eq]
  cases habort : (s.handle .refresh).2.abort? with
  | none =>
    rw [habort, if_pos rfl, if_pos rfl] at hrefresh
    obtain ⟨events, m, hsame, hfiles, hleads⟩ := leads_loop (s.handle .refresh).1 0 steps
    refine ⟨_, m, ?_, hfiles, hrefresh.append hleads⟩
    exact ((hopening [.announce] rfl).append hsame).append_silent rfl
  | some abort =>
    rw [habort, if_neg (by simp)] at hrefresh
    exact ⟨_, _, (hopening [] rfl).append_silent rfl, rfl, hrefresh⟩

/-- No modification of the shader is lost, whenever the watcher is told of it.

At every moment of every sequence of moves: if the flag is not set, and the run is not between
clearing it and reading the shader, then the shader was read after the last modification that the
watcher was told of.  The runs of the watch command are among these sequences. -/
theorem no_modification_lost (s : State) :
    (∀ events m, Leads ⟨.reading true, s⟩ events m → m.state.watcher.modified = false →
      m.phase ≠ .reading false → Fresh s.cwd s.watcher.shader events) ∧
    ∀ directory steps, ∃ events m, Leads ⟨.reading true, s⟩ events m ∧
      SameRequests events (run s directory steps).actions ∧
      m.state.files = (run s directory steps).files := by
  constructor
  · intro events m hleads hquiet hphase
    rcases hleads.attended.seen with hmodified | hreading | hfresh
    · rw [hquiet] at hmodified
      exact absurd hmodified Bool.false_ne_true
    · exact absurd hreading hphase
    · exact hfresh
  · intro directory steps
    obtain ⟨events, m, hsame, hfiles, hleads⟩ := leads_run s directory steps
    exact ⟨events, m, hleads, hsame, hfiles⟩

/-- The watcher is told three times: before the flag is tested, before it is cleared, and before the
shader is read. -/
theorem no_modification_lost_of_three :
    ∃ (s : State) (events : List Event) (m : Moment),
      events = [.read, .finished, .happened (.modified "a.agsl"), .tested,
        .happened (.modified "a.agsl"), .cleared, .happened (.modified "a.agsl"), .read, .finished,
        .slept, .tested, .cleared, .read] ∧
      (Step.modified "a.agsl").touches s.cwd s.watcher.shader = true ∧
      Leads ⟨.reading true, s⟩ events m ∧ m.state.watcher.modified = false ∧
      m.phase ≠ .reading false ∧ Fresh s.cwd s.watcher.shader events := by
  -- The shader is missing, so that each processing ends without a program.
  let s : State := ⟨["work"], [(["work"], .directory)], { shader := "/work/a.agsl" }⟩
  let s₁ : State := (s.handle .refresh).1
  let s₂ : State := (s₁.handle (.modified "a.agsl")).1
  let s₃ : State := (s₂.handle (.modified "a.agsl")).1
  let s₄ : State := (s₃.handle .forget).1
  let s₅ : State := (s₄.handle (.modified "a.agsl")).1
  let s₆ : State := (s₅.handle .refresh).1
  have hfirst : Leads ⟨.reading true, s⟩ [.read, .finished] ⟨.testing, s₁⟩ := by
    have h := leads_refresh true s
    rwa [if_pos (by decide +kernel), if_pos rfl] at h
  have hsecond : Leads ⟨.reading false, s₅⟩ [.read, .finished] ⟨.sleeping, s₆⟩ := by
    have h := leads_refresh false s₅
    rwa [if_pos (by decide +kernel), if_neg Bool.false_ne_true] at h
  have hclear : Leads ⟨.testing, s₁⟩
      [.happened (.modified "a.agsl"), .tested, .happened (.modified "a.agsl"), .cleared]
      ⟨.reading false, s₄⟩ :=
    (((Leads.single (.happened _ s₁ (.modified "a.agsl"))).snoc
      (.tested_of_modified (by decide +kernel))).snoc
      (.happened _ s₂ (.modified "a.agsl"))).snoc (.cleared s₃)
  have hround : Leads ⟨.sleeping, s₆⟩ [.slept, .tested, .cleared, .read]
      ⟨.finishing false _, (s₆.handle .forget).1⟩ :=
    (((Leads.single (.slept s₆)).snoc (.tested_of_modified (by decide +kernel))).snoc
      (.cleared s₆)).snoc (.read false _)
  have hall := (((hfirst.append hclear).snoc (.happened _ s₄ (.modified "a.agsl"))).append
    hsecond).append hround
  refine ⟨s, _, _, rfl, by decide +kernel, hall, rfl, by simp, ?_⟩
  exact (no_modification_lost s).1 _ _ hall rfl (by simp)

end Watch
end ShaderPreview
