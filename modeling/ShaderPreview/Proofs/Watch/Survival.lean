import ShaderPreview.Proofs.FileEffects
import ShaderPreview.Proofs.Watch.Script

/-!
# What a run survives

A run of the watch command goes on when the shader is missing, and when the output cannot be opened.
What it does not survive are bytes that are not UTF-8, and null characters in paths.  So a run whose
paths have none ends by the interrupt of the user, unless the shader holds such bytes at a moment at
which it is refreshed.

## 1.  Text in files

`Tree.TextAt` says that a location holds text, if it holds a file.  Nothing but writing other bytes to
it can change that.

## 2.  Faults

`State.fault?` is what a refresh fails with, told from the paths and from the bytes of the shader.
`refreshes` are the states in which a script refreshes the watcher, and `Executes.abort_eq` says that
a run fails with the first fault among them.

## 3.  The command

`Command.watch_survives_iff` is about every run of the watch command.
-/

namespace ShaderPreview

open Files

/-! ## 1.  Text in files -/

namespace Files.Tree

variable {t t' : Tree} {cwd l k : Location} {p : Path} {names : List String} {e : Entry}

/-- A location holds text, if it holds a file. -/
def TextAt (t : Tree) (l : Location) : Prop :=
  ∀ content, t.get? l = some (.file content) → content.IsValidUTF8

/-- Text may be put anywhere, and so may directories. -/
theorem TextAt.put (h : t.TextAt l)
    (he : k = l → ∀ content, e = .file content → content.IsValidUTF8) : (t.put k e).TextAt l := by
  intro content hget
  by_cases hroot : l = []
  · rw [hroot, get?, if_pos rfl] at hget
    cases hget
  · by_cases hk : k = l
    · subst hk
      rw [get?_put_self t e hroot, Option.some.injEq] at hget
      exact he rfl content hget
    · rw [get?_put_of_ne t e (Ne.symm hk)] at hget
      exact h content hget

theorem TextAt.makeDirectory (h : t.TextAt l) (k : Location) : (t.makeDirectory k).TextAt l := by
  unfold Tree.makeDirectory
  generalize List.range k.length = ns
  induction ns generalizing t with
  | nil => exact h
  | cons n ns ih =>
    refine ih ?_
    dsimp only
    split
    · exact h
    · exact h.put fun _ content he => by cases he

/-- What is there after a removal was there before. -/
theorem get?_of_get?_remove (h : (t.remove k).get? l = some e) : t.get? l = some e := by
  unfold get? at h ⊢
  split at h
  · next hroot => rwa [if_pos hroot]
  · next hroot =>
    rw [if_neg hroot]
    obtain ⟨d, hfind, rfl⟩ := Option.map_eq_some_iff.1 h
    rw [Tree.remove, List.find?_filter] at hfind
    have hd := List.find?_some hfind
    rw [decide_eq_true_iff, beq_iff_eq, Bool.not_eq_true'] at hd
    -- what is looked for is not removed, so removing makes no difference to looking for it
    have hlook : (fun a : Location × Entry => decide ((!k.isPrefixOf a.1) = true ∧ (a.1 == l) = true)) =
        fun a => a.1 == l := by
      funext a
      by_cases ha : a.1 = l
      · simp [ha, ← hd.2, hd.1]
      · simp [ha]
    rw [← hlook, hfind, Option.map_some]

theorem TextAt.remove (h : t.TextAt l) (k : Location) : (t.remove k).TextAt l :=
  fun content hget => h content (get?_of_get?_remove hget)

/-- Only what is written to the location itself has to be text. -/
theorem TextAt.apply (h : t.TextAt l) {c : Change}
    (hc : ∀ content, c = .write l content → content.IsValidUTF8) : (t.apply c).TextAt l := by
  cases c with
  | write k content =>
    refine (h.makeDirectory _).put ?_
    rintro rfl _ ⟨⟩
    exact hc content rfl
  | delete k => exact h.remove k
  | makeDirectory k => exact h.makeDirectory k

theorem TextAt.writeText {path text : String} (h : t.TextAt l)
    (hwrite : Files.writeText t cwd path text = .ok t') : t'.TextAt l := by
  obtain ⟨-, hwrite⟩ := writeText_eq_ok_iff.1 hwrite
  obtain ⟨k, -, -, rfl⟩ := write_eq_ok_iff.1 hwrite
  refine h.put ?_
  rintro - _ ⟨⟩
  exact text.isValidUTF8

/-- What a watcher writes is text. -/
theorem TextAt.refresh {w : Watcher} (h : t.TextAt l) : (w.refresh cwd t).files.TextAt l := by
  by_cases hdone : ∃ source after, readText t cwd w.shader = .ok source ∧
      w.Delivers cwd t source after
  · obtain ⟨source, after, hread, hdelivers⟩ := hdone
    rw [(Watcher.refresh_of_ok hread hdelivers).2]
    unfold Watcher.Delivers at hdelivers
    split at hdelivers
    · rwa [hdelivers]
    · exact h.writeText hdelivers
  · rw [(Watcher.refresh_of_error fun source after hread hdelivers =>
      hdone ⟨source, after, hread, hdelivers⟩).2]
    exact h

/-- Names without two dots lead to themselves. -/
theorem eq_append_of_follow (hnames : ".." ∉ names) (h : t.follow l names = .ok k) :
    k = l ++ names := by
  induction names generalizing l with
  | nil =>
    rw [follow, Except.ok.injEq] at h
    rw [List.append_nil, h]
  | cons name names ih =>
    rw [List.mem_cons, not_or] at hnames
    rw [follow] at h
    split at h
    · split at h
      · cases h
      · rw [if_neg (Ne.symm hnames.1)] at h
        rw [ih hnames.2 h, List.append_assoc, List.singleton_append]
    · cases h
    · cases h

/-- An absolute path leads to the location of its names. -/
theorem eq_names_of_locate (hp : p.Normal) (h : t.locate cwd p = .ok l) : l = p.names := by
  unfold locate at h
  split at h
  · cases h
  · rw [if_neg hp.root] at h
    exact eq_append_of_follow hp.up h

/-- A file at an absolute path that holds text is read as bytes of text. -/
theorem TextAt.isValidUTF8_of_read (hp : p.Normal) (h : t.TextAt p.names) {content : ByteArray}
    (hread : t.read cwd p = .ok content) : content.IsValidUTF8 := by
  obtain ⟨l, hlocate, hget⟩ := read_eq_ok_iff.1 hread
  rw [eq_names_of_locate hp hlocate] at hget
  exact h content hget

end Files.Tree

/-! ## 2.  Faults -/

/-- What refreshing failed with, if it failed. -/
def Refreshed.abort? (r : Refreshed) : Option Abort :=
  match r.result with
  | .error abort => some abort
  | .ok _ => none

/-- Delivering a program fails only if the path of the output is none that a file can have. -/
theorem Watcher.abort?_deliver (cwd : Location) (w : Watcher) (files : Tree) (program : Program) :
    (w.deliver cwd files program).abort? =
      if w.output.any hasNull then some .nullInPath else none := by
  unfold deliver
  cases w.output with
  | none => rfl
  | some output =>
    cases hnull : hasNull output with
    | true =>
      simp only [writeText, hnull, if_true, Option.any_some]
      rfl
    | false =>
      simp only [writeText, hnull, Bool.false_eq_true, if_false, Option.any_some]
      cases files.write cwd (Path.ofText output) program.text.toUTF8 <;> rfl

/-- A shader that could be read is refreshed as its program is delivered. -/
theorem Watcher.abort?_conclude (cwd : Location) (w : Watcher) (files : Tree) (source : String) :
    (w.conclude cwd files (.ok source)).abort? =
      (w.deliver cwd files (.ofSource .standard source)).abort? := rfl

namespace Watch

variable {s final : State} {first before : List Action} {end? : Option Abort}

/-- What a refresh fails with, as far as paths and bytes tell.  The path of the shader is looked at
first, then the bytes of the shader, and the path of the output last: it does not matter unless there is
a text to write. -/
def State.fault? (s : State) : Option Abort :=
  if hasNull s.watcher.shader then some .nullInPath
  else
    match s.files.read s.cwd (Path.ofText s.watcher.shader) with
    | .error _ => none
    | .ok content =>
      if content.IsValidUTF8 then
        if s.watcher.output.any hasNull then some .nullInPath else none
      else some .undecodable

theorem result_refresh (s : State) :
    (s.handle .refresh).2.result = some (s.watcher.refresh s.cwd s.files).result := rfl

/-- A refresh fails with its fault. -/
theorem abort?_refresh (s : State) : (s.handle .refresh).2.abort? = s.fault? := by
  have hreply : (s.handle .refresh).2.abort? = (s.watcher.refresh s.cwd s.files).abort? := by
    rw [Reply.abort?, result_refresh, Refreshed.abort?]
    cases (s.watcher.refresh s.cwd s.files).result <;> rfl
  rw [hreply, Watcher.refresh, readText, State.fault?]
  split
  · rfl
  · cases s.files.read s.cwd (Path.ofText s.watcher.shader) with
    | error error => rfl
    | ok content =>
      dsimp only
      by_cases hvalid : content.IsValidUTF8
      · rw [decode?, String.fromUTF8?, dif_pos hvalid, if_pos hvalid, Option.map_some]
        dsimp only
        rw [Watcher.abort?_conclude, Watcher.abort?_deliver]
      · rw [decode?, String.fromUTF8?, dif_neg hvalid, if_neg hvalid]
        rfl

/-- A refresh gives a program or nothing exactly if it has no fault. -/
theorem exists_result_refresh_iff (s : State) :
    (∃ program?, (s.handle .refresh).2.result = some (.ok program?)) ↔ s.fault? = none := by
  rw [← abort?_refresh, Reply.abort?, result_refresh]
  cases (s.watcher.refresh s.cwd s.files).result <;> simp

/-- The states in which a script refreshes the watcher, each with the files as the requests before it
leave them. -/
def refreshes (s : State) : List Action → List State
  | [] => []
  | action :: script =>
    match action.request? with
    | none => refreshes s script
    | some .refresh => s :: refreshes (s.handle .refresh).1 script
    | some request => refreshes (s.handle request).1 script

/-- Carrying a script out fails with the first fault of a refresh. -/
theorem Executes.abort_eq (h : Executes s first before end? final) :
    (refreshes s first).findSome? State.fault? = end? := by
  induction h with
  | done s => rfl
  | silent hsilent _ _ ih => rw [refreshes, hsilent, ih]
  | @answered s final request script actions abort hresult _ ih =>
    cases request with
    | refresh =>
      have hnone : s.fault? = none := by
        rw [← abort?_refresh, Option.eq_none_iff_forall_ne_some]
        exact fun abort habort => hresult abort (Reply.result_of_abort? habort)
      rw [refreshes, Action.request?, List.findSome?_cons, hnone, ih]
    | change c => exact ih
    | modified path => exact ih
    | forget => exact ih
  | @failed s request script abort hresult =>
    cases request with
    | refresh =>
      have hsome : s.fault? = some abort := by
        rw [← abort?_refresh, Reply.abort?, hresult]
      rw [refreshes, Action.request?, List.findSome?_cons, hsome]
    | change c => cases hresult
    | modified path => cases hresult
    | forget => cases hresult

/-- What every request of a script keeps is true whenever the watcher is refreshed. -/
theorem forall_mem_refreshes {P : State → Prop} {script : List Action}
    (hkeeps : ∀ action ∈ script, ∀ request, action.request? = some request → ∀ s, P s →
      P (s.handle request).1)
    (h : P s) : ∀ s' ∈ refreshes s script, P s' := by
  induction script generalizing s with
  | nil => exact fun s' hs' => absurd hs' List.not_mem_nil
  | cons action script ih =>
    rw [List.forall_mem_cons] at hkeeps
    rw [refreshes]
    split
    · exact ih hkeeps.2 h
    · next hrequest =>
      rw [List.forall_mem_cons]
      exact ⟨h, ih hkeeps.2 (hkeeps.1 _ hrequest s h)⟩
    · next hrequest => exact ih hkeeps.2 (hkeeps.1 _ hrequest s h)

/-- A script that was done ends as it is to end. -/
theorem Executes.exists_concat {action : Action} (hsilent : action.request? = none)
    (h : Executes s (first ++ [action]) before none final) :
    ∃ actions, before = actions ++ [action] := by
  generalize hscript : first ++ [action] = script at h
  generalize hnone : (none : Option Abort) = finished at h
  induction h generalizing first with
  | done s => exact absurd hscript (by simp)
  | silent _ _ hrest ih =>
    cases first with
    | nil =>
      -- nothing is left to be done behind the last action
      obtain ⟨rfl, rfl⟩ := List.cons.inj hscript
      cases hrest
      exact ⟨[], rfl⟩
    | cons head first =>
      obtain ⟨actions, rfl⟩ := ih (List.cons.inj hscript).2 hnone
      exact ⟨_ :: actions, rfl⟩
  | answered _ _ ih =>
    cases first with
    | nil =>
      obtain ⟨rfl, -⟩ := List.cons.inj hscript
      cases hsilent
    | cons head first =>
      obtain ⟨actions, rfl⟩ := ih (List.cons.inj hscript).2 hnone
      exact ⟨_ :: actions, rfl⟩
  | failed _ => cases hnone

/-- What a run of some steps may ask for: what a step asks, and what seeing to a modification takes. -/
def Asks (steps : List Step) (request : Request) : Prop :=
  request = .refresh ∨ request = .forget ∨ ∃ step ∈ steps, request = step.request

section Asks

variable {cwd : Location} {shader : String} {steps : List Step} {action : Action} {request : Request}

/-- Files are changed by the steps only. -/
theorem Asks.mem_steps {c : Change} (h : Asks steps (.change c)) : .change c ∈ steps := by
  obtain hrefresh | hforget | ⟨step, hstep, heq⟩ := h
  · cases hrefresh
  · cases hforget
  · cases step with
    | change c' =>
      obtain rfl := Request.change.inj heq
      exact hstep
    | modified path => cases heq

theorem asks_of_mem_rounds {index : Nat} (h : action ∈ rounds cwd shader index steps)
    (hrequest : action.request? = some request) : Asks steps request := by
  induction steps generalizing index with
  | nil => exact absurd h List.not_mem_nil
  | cons step steps ih =>
    rcases List.mem_append.1 h with h | h
    · rw [round, List.mem_cons, List.mem_cons] at h
      rcases h with rfl | rfl | h
      · cases hrequest
      · cases hrequest
        exact Or.inr (Or.inr ⟨step, List.mem_cons_self .., rfl⟩)
      · split at h
        · simp only [processing, List.mem_cons, List.not_mem_nil, or_false] at h
          rcases h with rfl | rfl
          · cases hrequest
            exact Or.inr (Or.inl rfl)
          · cases hrequest
            exact Or.inl rfl
        · exact absurd h List.not_mem_nil
    · rcases ih h with hrefresh | hforget | ⟨step', hstep', heq⟩
      · exact Or.inl hrefresh
      · exact Or.inr (Or.inl hforget)
      · exact Or.inr (Or.inr ⟨step', List.mem_cons_of_mem _ hstep', heq⟩)

theorem asks_of_mem_watching (h : action ∈ watching cwd shader steps)
    (hrequest : action.request? = some request) : Asks steps request := by
  simp only [watching, List.mem_append, List.mem_cons, List.not_mem_nil, or_false] at h
  rcases h with (rfl | rfl) | h | rfl
  · cases hrequest
    exact Or.inl rfl
  · cases hrequest
  · exact asks_of_mem_rounds h hrequest
  · cases hrequest

end Asks

/-- The watcher watches a shader that is text, if it is a file. -/
structure ShowsText (p : Path) (output : Option String) (s : State) : Prop where
  shader_eq : s.watcher.shader = p.text
  output_eq : s.watcher.output = output
  textAt : s.files.TextAt p.names

section ShowsText

variable {p : Path} {output : Option String}

/-- Only what is written to the shader itself has to be text. -/
theorem ShowsText.handle (h : ShowsText p output s) {request : Request}
    (hrequest : ∀ content, request = .change (.write p.names content) → content.IsValidUTF8) :
    ShowsText p output (s.handle request).1 := by
  obtain ⟨hshader, houtput, htext⟩ := h
  cases request with
  | change c => exact ⟨hshader, houtput, htext.apply fun content hc => hrequest content (hc ▸ rfl)⟩
  | modified path =>
    unfold State.handle Watcher.notice
    dsimp only
    split
    · exact ⟨hshader, houtput, htext⟩
    · exact ⟨hshader, houtput, htext⟩
  | forget => exact ⟨hshader, houtput, htext⟩
  | refresh => exact ⟨hshader, houtput, htext.refresh⟩

/-- The shader is text whenever the watcher is refreshed, if nothing else is written to it. -/
theorem ShowsText.of_mem_refreshes (h : ShowsText p output s) {cwd : Location} {shader : String}
    {steps : List Step}
    (hsteps : ∀ content, .change (.write p.names content) ∈ steps → content.IsValidUTF8) :
    ∀ s' ∈ refreshes s (watching cwd shader steps), ShowsText p output s' := by
  refine forall_mem_refreshes (fun action haction request hrequest s h => ?_) h
  refine h.handle fun content hwrite => hsteps content ?_
  have hasks := asks_of_mem_watching haction hrequest
  rw [hwrite] at hasks
  exact hasks.mem_steps

/-- A shader that is text has no fault, if the paths have none. -/
theorem ShowsText.fault?_eq_none (h : ShowsText p output s) (hp : p.Normal)
    (hnull : hasNull p.text = false) (houtput : output.any hasNull = false) : s.fault? = none := by
  rw [State.fault?, h.shader_eq, h.output_eq, hnull, houtput, Path.ofText_text hp,
    if_neg Bool.false_ne_true]
  split
  · rfl
  · next content hread =>
    rw [if_pos (h.textAt.isValidUTF8_of_read hp hread), if_neg Bool.false_ne_true]

end ShowsText

end Watch

/-! ## 3.  The command -/

namespace Command

variable {host : Host} {shader : String}

/-- What a run of the watch command does between the start and the stop of its observer. -/
theorem executes_watch (hcwd : ∀ name ∈ host.cwd, Path.IsName name) (hdir : HasDirectory host shader)
    (output : Option String) :
    ∃ actions final,
      Watch.Executes (watchStart host shader output) (Watch.watching host.cwd shader host.steps)
        actions (watch host shader output).abort final ∧
      (watch host shader output).exitCode =
        (if (watch host shader output).abort.isSome then 1 else 0) ∧
      (watch host shader output).trace =
        .schedule (Path.absolute host.cwd shader).parent.text :: .start ::
          actions.flatMap Watch.Action.entries ++ [.stop, .join] := by
  obtain ⟨actions, final, -, hactions, hexecutes⟩ :=
    Watch.executes_run (s := watchStart host shader output) rfl
      (Path.absolute host.cwd shader).parent host.steps
  generalize hrun : Watch.run (watchStart host shader output)
    (Path.absolute host.cwd shader).parent host.steps = run at hactions hexecutes
  rw [watch_of_ok (watcherFor_of_hasDirectory hdir output) hrun]
  refine ⟨actions, final, ?_, rfl, ?_⟩
  · rw [Watch.watching, ← rounds_absolute hcwd]
    exact hexecutes
  · rw [hactions, List.flatMap_append]
    rfl

/-- Refreshing a watcher gives a program or nothing exactly if it has no fault.  A null character in
the path of the shader is a fault.  Otherwise there is none if the shader cannot be opened, whatever the
path of the output.  If it can, bytes that are not UTF-8 are a fault, and if they are text, a null
character in the path of the output is one.

A run of the watch command in an existing directory fails with the first fault of a refresh.  So it ends
well exactly if no refresh has a fault; then the last thing is the interrupt of the user.  This is so if
neither path holds a null character, the shader is text at the start, if it is there, and nothing but
text is written to it later, whatever happens to other files and whatever the watcher is told. -/
theorem watch_survives_iff (host : Host) (shader : String) (output : Option String)
    (hcwd : ∀ name ∈ host.cwd, Path.IsName name) (hdir : HasDirectory host shader) :
    (∀ s : Watch.State, (∃ program?, (s.handle .refresh).2.result = some (.ok program?)) ↔
      s.fault? = none) ∧
    (watch host shader output).abort =
      (Watch.refreshes (watchStart host shader output)
        (Watch.watching host.cwd shader host.steps)).findSome? Watch.State.fault? ∧
    ((watch host shader output).exitCode = 0 ↔
      ∀ s ∈ Watch.refreshes (watchStart host shader output)
        (Watch.watching host.cwd shader host.steps), s.fault? = none) ∧
    ((watch host shader output).exitCode = 0 →
      ∃ trace, (watch host shader output).trace =
        trace ++ [.log ⟨.info, "Keyboard interrupt received, stopping..."⟩, .stop, .join]) ∧
    (hasNull (Path.absolute host.cwd shader).text = false → output.any hasNull = false →
      host.files.TextAt (Path.absolute host.cwd shader).names →
      (∀ content, .change (.write (Path.absolute host.cwd shader).names content) ∈ host.steps →
        content.IsValidUTF8) →
      (watch host shader output).exitCode = 0) := by
  obtain ⟨actions, final, hexecutes, hexit, htrace⟩ := executes_watch hcwd hdir output
  have habort := hexecutes.abort_eq.symm
  have hnone : (watch host shader output).exitCode = 0 ↔ (watch host shader output).abort = none := by
    rw [hexit]
    cases (watch host shader output).abort <;> simp
  have hzero : (watch host shader output).exitCode = 0 ↔
      ∀ s ∈ Watch.refreshes (watchStart host shader output)
        (Watch.watching host.cwd shader host.steps), s.fault? = none := by
    rw [hnone, habort, List.findSome?_eq_none_iff]
  refine ⟨Watch.exists_result_refresh_iff, habort, hzero, fun h => ?_,
    fun hnull houtput htext hsteps => hzero.2 fun s hs => ?_⟩
  · rw [hnone.1 h, Watch.watching, ← List.append_assoc] at hexecutes
    obtain ⟨before, rfl⟩ := hexecutes.exists_concat rfl
    refine ⟨.schedule (Path.absolute host.cwd shader).parent.text :: .start ::
      before.flatMap Watch.Action.entries, ?_⟩
    rw [htrace, List.flatMap_append]
    simp only [List.cons_append, List.append_assoc]
    rfl
  · have hstart : Watch.ShowsText (Path.absolute host.cwd shader) output
        (watchStart host shader output) := ⟨rfl, rfl, htext⟩
    exact (hstart.of_mem_refreshes hsteps s hs).fault?_eq_none (Path.normal_absolute hcwd shader)
      hnull houtput

/-- A shader that is written and deleted again, beside a file that is no text. -/
theorem watch_survives_of_text :
    ∃ host : Host, host.cwd = ["work"] ∧
      host.steps = [.change (.write ["work", "a.agsl"] "half4 c;".toUTF8), .modified "./a.agsl",
        .change (.delete ["work", "a.agsl"]), .modified "a.agsl"] ∧
      HasDirectory host "a.agsl" ∧ host.files.content? ["work", "b.png"] = some ⟨#[0xff]⟩ ∧
      (watch host "a.agsl" (some "a.frag")).exitCode = 0 := by
  let host : Host := ⟨["work"], [(["work"], .directory), (["work", "b.png"], .file ⟨#[0xff]⟩)], .empty,
    0, [.change (.write ["work", "a.agsl"] "half4 c;".toUTF8), .modified "./a.agsl",
      .change (.delete ["work", "a.agsl"]), .modified "a.agsl"]⟩
  have hdir : HasDirectory host "a.agsl" := ⟨["work"], rfl, rfl⟩
  have hpath : Path.absolute host.cwd "a.agsl" = ⟨.top, ["work", "a.agsl"]⟩ := by decide +kernel
  obtain ⟨-, -, -, -, htext⟩ := watch_survives_iff host "a.agsl" (some "a.frag") (by decide) hdir
  refine ⟨host, rfl, rfl, hdir, rfl, htext (by decide +kernel) (by decide +kernel) ?_ ?_⟩
  · rw [hpath]
    rintro content ⟨⟩
  · intro content hmem
    rw [hpath] at hmem
    simp only [host, List.mem_cons, List.not_mem_nil, or_false, reduceCtorEq,
      Watch.Step.change.injEq, Change.write.injEq, true_and] at hmem
    rw [hmem]
    exact String.isValidUTF8 _

/-- A run that is told of a shader whose new bytes are not UTF-8 ends at once. -/
theorem undecodable_edit_ends_run :
    ∃ host : Host, HasDirectory host "a.agsl" ∧
      host.steps = [.change (.write ["work", "a.agsl"] ⟨#[0xff]⟩), .modified "/work/a.agsl"] ∧
      (watch { host with steps := [] } "a.agsl" none).exitCode = 0 ∧
      (watch host "a.agsl" none).exitCode = 1 ∧
      (watch host "a.agsl" none).abort = some .undecodable ∧
      Trace.Entry.log ⟨.info, "Keyboard interrupt received, stopping..."⟩ ∉
        (watch host "a.agsl" none).trace := by
  let host : Host := ⟨["work"], [(["work"], .directory), (["work", "a.agsl"], .file "x".toUTF8)], .empty,
    0, [.change (.write ["work", "a.agsl"] ⟨#[0xff]⟩), .modified "/work/a.agsl"]⟩
  exact ⟨host, ⟨["work"], rfl, rfl⟩, rfl, by decide +kernel, by decide +kernel, by decide +kernel,
    by decide +kernel⟩

end Command
end ShaderPreview
