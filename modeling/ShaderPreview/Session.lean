import ShaderPreview.Control.Values
import ShaderPreview.Diagnostic
import ShaderPreview.Dialect.Configuration
import ShaderPreview.Program.Basic

/-!
# Editing sessions

While a shader is edited, the preview remembers the dialect in force, the control values and the
line offset of the last generated program, to which compiler logs refer.  A step that is refused
changes none of them.

* `Session`: what is remembered;
* `Session.Step`, `Session.Reply`, `Session.Refusal`: what can be asked and answered;
* `Session.step`, `Session.next`, `Session.answer`: one step;
* `Session.run`, `Session.after`: a sequence of steps.
-/

namespace ShaderPreview

/-- The program's text without the lines in front of the shader's text. -/
def Program.userPart (p : Program) : String :=
  String.ofList (Text.dropLines p.lineOffset p.text.toList)

/-- What the preview remembers between two steps. -/
structure Session where
  dialect : Dialect := .standard
  values : Controls := []
  lineOffset : Nat := 0

namespace Session

/-- What can be asked of a session. -/
inductive Step where
  /-- The shader has a new text. -/
  | edit (source : String)
  /-- A control is given a value. -/
  | set (name : String) (value : Value)
  /-- Another dialect comes into force. -/
  | configure (c : Configuration)
  /-- The compiler reports about the last generated program. -/
  | report (log : String)

/-- What a session answers. -/
inductive Reply where
  /-- The uniforms of the new text, and the program generated from it. -/
  | edited (uniforms : List Uniform) (program : Program)
  /-- There is nothing to tell. -/
  | done
  /-- The log in the user's terms, and the lines it refers to. -/
  | reported (log : String) (lines : List Nat)

/-- Why a step is refused. -/
inductive Refusal where
  | configuration (fault : Fault)
  | number (fault : DigitFault)
  deriving DecidableEq

/-- One step: the session after it and the answer, or why it is refused. -/
def step (s : Session) : Step → Except Refusal (Session × Reply)
  | .edit source =>
    let uniforms := Uniform.ofSource s.dialect source
    let program := Program.ofSource s.dialect source
    .ok ({ s with values := s.values.declareAll uniforms, lineOffset := program.lineOffset },
      .edited uniforms program)
  | .set name value => .ok ({ s with values := s.values.set name value }, .done)
  | .configure c =>
    match c.check with
    | .ok dialect => .ok ({ s with dialect }, .done)
    | .error fault => .error (.configuration fault)
  | .report log =>
    match Diagnostic.toUserLines log.toList s.lineOffset, Diagnostic.lines log.toList with
    | .ok text, .ok lines => .ok (s, .reported (String.ofList text) lines)
    | .error fault, _ => .error (.number fault)
    | _, .error fault => .error (.number fault)

/-- The session after a step; a refused step leaves it as it was. -/
def next (s : Session) (a : Step) : Session :=
  match s.step a with
  | .ok (t, _) => t
  | .error _ => s

/-- The answer to a step. -/
def answer (s : Session) (a : Step) : Except Refusal Reply :=
  (s.step a).map Prod.snd

/-- The session after a sequence of steps. -/
def after (s : Session) (as : List Step) : Session :=
  as.foldl next s

/-- The answers to a sequence of steps, each with the session after it. -/
def run (s : Session) : List Step → List (Except Refusal Reply × Session)
  | [] => []
  | a :: as => (s.answer a, s.next a) :: run (s.next a) as

end Session
end ShaderPreview
