import ShaderPreview.Watch.Run

/-!
# Traces

What can be seen of a command from outside, in order: its log records, its dealings with the observer
of a directory, and its sleeps.

* `Trace.Entry`: one thing that can be seen;
* `Watch.Action.entries`: what can be seen of an action of a run.
-/

namespace ShaderPreview

/-- One thing that can be seen of a command. -/
inductive Trace.Entry where
  | log (record : Record)
  /-- The observer is given a directory; those in it are not observed. -/
  | schedule (directory : String)
  | start
  | stop
  | join
  /-- Something happens during the `index`-th sleep. -/
  | step (index : Nat)
  deriving DecidableEq, Repr

/-- What can be seen of an action of a run. -/
def Watch.Action.entries : Watch.Action → List Trace.Entry
  | .schedule directory => [.schedule directory.text]
  | .start => [.start]
  | .handled _ reply => reply.records.map .log
  | .announce => [.log ⟨.info, "Watching for changes (press Ctrl-C to exit)..."⟩]
  | .sleep index => [.step index]
  | .interrupt => [.log ⟨.info, "Keyboard interrupt received, stopping..."⟩]
  | .stop => [.stop]
  | .join => [.join]

end ShaderPreview
