import ShaderPreview.Watch.Watcher

/-!
# Runs of the watch command

A run refreshes the watcher once, then goes round and round: if the shader was modified, it forgets
about that and refreshes the watcher again; then it sleeps.  While it sleeps one thing may happen: a
file changes, or the watcher is told of a modification.  When nothing more happens, the user
interrupts the run.  However it ends, the observer of the directory is stopped and joined.

* `Watch.Action`: what a run does, step by step;
* `Watch.Run`: the actions of a run and what it leaves behind;
* `Watch.opening`, `Watch.State.reload`, `Watch.loop`: the parts of a run;
* `Watch.run`: the run itself.
-/

namespace ShaderPreview
namespace Watch

open Files

/-- What may happen while a run sleeps. -/
inductive Step where
  | change (c : Change)
  | modified (path : String)

/-- What a step asks of the watcher. -/
def Step.request : Step → Request
  | .change c => .change c
  | .modified path => .modified path

/-- What a run does. -/
inductive Action where
  /-- The observer is told to observe a directory, not those in it. -/
  | schedule (directory : Path)
  /-- The observer starts. -/
  | start
  /-- The watcher answers a request. -/
  | handled (request : Request) (reply : Reply)
  /-- The user is told that the run goes on. -/
  | announce
  /-- The run sleeps for the `index`-th time, and something happens. -/
  | sleep (index : Nat)
  /-- The run sleeps, and the user interrupts it. -/
  | interrupt
  /-- The observer stops. -/
  | stop
  /-- The run waits for the observer to end. -/
  | join

/-- The actions of a run, the files it leaves, and what nothing handled, if that ended it. -/
structure Run where
  actions : List Action
  files : Tree
  abort : Option Abort

/-- Forgets about a modification and refreshes the watcher, if there was one. -/
def State.reload (s : State) : State × List Action × Option Abort :=
  if s.watcher.modified then
    let (s₁, forgotten) := s.handle .forget
    let (s₂, refreshed) := s₁.handle .refresh
    let abort := match refreshed.result with
      | some (.error abort) => some abort
      | _ => none
    (s₂, [.handled .forget forgotten, .handled .refresh refreshed], abort)
  else (s, [], none)

/-- The run from the point at which it looks for a modification. -/
def loop (s : State) (index : Nat) : List Step → Run
  | [] =>
    match s.reload with
    | (s, actions, some abort) => ⟨actions, s.files, some abort⟩
    | (s, actions, none) => ⟨actions ++ [.interrupt], s.files, none⟩
  | step :: steps =>
    match s.reload with
    | (s, actions, some abort) => ⟨actions, s.files, some abort⟩
    | (s, actions, none) =>
      let (s, reply) := s.handle step.request
      let rest := loop s (index + 1) steps
      { rest with actions := actions ++ .sleep index :: .handled step.request reply :: rest.actions }

/-- The run up to the point at which it first looks for a modification: the directory is observed and
the watcher refreshed. -/
def opening (s : State) (directory : Path) : State × List Action × Option Abort :=
  let (s, reply) := s.handle .refresh
  let actions : List Action := [.schedule directory, .start, .handled .refresh reply]
  match reply.result with
  | some (.error abort) => (s, actions, some abort)
  | _ => (s, actions ++ [.announce], none)

/-- The whole run: observe the directory, refresh the watcher, watch, and clean up. -/
def run (s : State) (directory : Path) (steps : List Step) : Run :=
  let cleanup : List Action := [.stop, .join]
  match opening s directory with
  | (s, actions, some abort) => ⟨actions ++ cleanup, s.files, some abort⟩
  | (s, actions, none) =>
    let rest := loop s 0 steps
    { rest with actions := actions ++ rest.actions ++ cleanup }

end Watch
end ShaderPreview
