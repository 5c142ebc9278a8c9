import ShaderPreview.Command.Basic
import ShaderPreview.Proofs.Diagnostic
import ShaderPreview.Proofs.Files.Store
import ShaderPreview.Proofs.LineFidelity

/-!
# Exporting code and mapping logs back

Code is exported to a file, a compiler complains about a line of that file, and the log is mapped
back.  The two commands do not share a value: mapping back reads the shader again, generates the
program again and adds the height of the header, which is a number of its own.  This module shows
that they agree about every line.

## 1.  The lines of an export

`formatted_eq` splits exported code into the lines that `Program.offsetIn` counts and the user's text
with the driver.  For the header this means that it has exactly `Header.height` lines, which holds
as long as the name of the shader has no break.

## 2.  The two commands

`Command.exists_of_exportCode` says what an export that ends well has read and written, and
`Command.remap_of_ok` what mapping a log from the standard input comes to.

`Command.remap_inverts_export` puts them together.
-/

namespace ShaderPreview

open Text Files

/-! ## 1.  The lines of an export -/

theorem newline_not_mem_digits (n : Nat) : '\n' ∉ Decimal.digits n :=
  (Decimal.within_digits n).not_mem (by decide)

theorem newline_not_mem_paddedNumber (width : Nat) (n : Int) :
    '\n' ∉ (paddedNumber width n).toList := by
  unfold paddedNumber
  rw [String.toList_ofList, List.mem_append, not_or]
  exact ⟨fun h => absurd (List.eq_of_mem_replicate h) (by decide), newline_not_mem_digits _⟩

theorem newline_not_mem_timestamp (seconds : Int) : '\n' ∉ (timestamp seconds).toList := by
  unfold timestamp
  simp only [String.toList_append, List.mem_append, not_or, newline_not_mem_paddedNumber,
    not_false_eq_true, true_and, and_true]
  decide

namespace Header

variable {shader : String}

/-- No comment of the header has a break, if the shader's name has none. -/
theorem newline_not_mem (p : Program) (hname : '\n' ∉ (Path.baseName shader).toList) (now : Int) :
    ∀ l ∈ Header.lines p shader now, '\n' ∉ l.toList := by
  intro l hl
  simp only [Header.lines, List.mem_cons, List.not_mem_nil, or_false] at hl
  rcases hl with rfl | rfl | rfl | rfl
  · decide
  · rw [String.toList_append, List.mem_append, not_or]
    exact ⟨by decide, newline_not_mem_timestamp now⟩
  · rw [String.toList_append, List.mem_append, not_or]
    exact ⟨by decide, hname⟩
  · rw [String.toList_append, List.mem_append, not_or, Decimal.toList_natText]
    exact ⟨by decide, newline_not_mem_digits _⟩

end Header

/-- The lines that an export under a format's name has above the program. -/
def linesAbove (f : String) : Nat :=
  if f = "commented" then 5 else 0

theorem Format.ofName_eq (f : String) :
    Format.ofName f = if f = "commented" then .commented else .plain := by
  unfold Format.ofName Format.ofName?
  by_cases hplain : f = "plain"
  · subst hplain
    decide
  · rw [if_neg hplain]
    split <;> rfl

theorem Program.offsetIn_ofName (p : Program) (f : String) :
    p.offsetIn (Format.ofName f) = linesAbove f + p.lineOffset := by
  rw [Format.ofName_eq, linesAbove]
  split
  · exact Nat.add_comm _ _
  · exact (Nat.zero_add _).symm

/-- What stands below the preamble: the user's text and the driver. -/
def belowPreamble (source : String) : List Char :=
  userText .standard source.toList ++ '\n' :: (driver .standard (mentionsMask .standard source)).toList

/-- Exported code is as many lines as the offset in its format says, and the user's part. -/
theorem Program.formatted_eq (source : String) {shader : String}
    (hname : '\n' ∉ (Path.baseName shader).toList) (format : Format) (now : Int) :
    ∃ a front, a ++ ['\n'] = front ∧
      newlines front = (Program.ofSource .standard source).offsetIn format ∧
      ((Program.ofSource .standard source).formatted format shader now).toList =
        front ++ belowPreamble source := by
  obtain ⟨a, ha⟩ := exists_preamble_eq .standard (userTextures .standard source.toList)
  cases format with
  | plain => exact ⟨a, _, ha, (Program.lineOffset_ofSource _ _).symm, Program.toList_text _ _⟩
  | commented =>
    have hheader := Header.newline_not_mem (Program.ofSource .standard source) hname now
    have hnewlines : newlines (unlines (Header.lines (Program.ofSource .standard source) shader
        now)).toList = 4 := newlines_unlines hheader
    refine ⟨(unlines (Header.lines (Program.ofSource .standard source) shader now)).toList ++
      '\n' :: a, _, rfl, ?_, ?_⟩
    · rw [offsetIn, Program.lineOffset_ofSource, Header.height, ← ha, List.append_assoc,
        List.cons_append, newlines_append, hnewlines, newlines_newline_cons]
      omega
    · rw [formatted, String.toList_append, String.toList_append, Program.toList_text, ← ha, belowPreamble]
      simp

/-- The last comment of the header says at which line the user's part starts. -/
theorem Program.getElem?_formatted_commented (p : Program) {shader : String}
    (hname : '\n' ∉ (Path.baseName shader).toList) (now : Int) :
    (lines (p.formatted .commented shader now).toList)[3]? =
      some ("// User source starts at line " ++
        Decimal.natText (Header.height + p.lineOffset + 1)).toList := by
  have hheader := Header.newline_not_mem p hname now
  rw [formatted, String.append_assoc, String.toList_append, lines_unlines hheader]
  rfl

/-! ## 2.  The two commands -/

namespace Command

variable {host : Host} {shader output f source log : String}

theorem exitCode_failed (host : Host) (records : List Record) (what : String) (failure : Failure) :
    (Outcome.failed host records what failure).exitCode = 1 := by
  cases failure <;> rfl

theorem files_failed (host : Host) (records : List Record) (what : String) (failure : Failure) :
    (Outcome.failed host records what failure).files = host.files := by
  cases failure <;> rfl

/-- An export to a file ends well if the shader can be read and the code be written. -/
theorem exportCode_of_ok {files : Tree} (hread : readText host.files host.cwd shader = .ok source)
    (hwrite : writeText host.files host.cwd output ((Program.ofSource .standard source).formatted
      (Format.ofName f) shader host.now) = .ok files) :
    (exportCode host shader (some output) f).exitCode = 0 ∧
      (exportCode host shader (some output) f).files = files := by
  simp only [exportCode, withShader, writeCode, hread, hwrite, and_self]

/-- An export to a file fails, and changes no file, if the shader cannot be read or the code not be
written. -/
theorem exportCode_of_error
    (h : ∀ source files, readText host.files host.cwd shader = .ok source →
      writeText host.files host.cwd output ((Program.ofSource .standard source).formatted
        (Format.ofName f) shader host.now) ≠ .ok files) :
    (exportCode host shader (some output) f).exitCode = 1 ∧
      (exportCode host shader (some output) f).files = host.files := by
  cases hread : readText host.files host.cwd shader with
  | error failure =>
    simp only [exportCode, withShader, hread, exitCode_failed, files_failed, and_self]
  | ok source =>
    cases hwrite : writeText host.files host.cwd output ((Program.ofSource .standard source).formatted
        (Format.ofName f) shader host.now) with
    | error failure =>
      simp only [exportCode, withShader, writeCode, hread, hwrite, exitCode_failed, files_failed,
        and_self]
    | ok files => exact absurd hwrite (h source files hread)

/-- An export to a file that ends well has read the shader and written the code. -/
theorem exists_of_exportCode (h : (exportCode host shader (some output) f).exitCode = 0) :
    ∃ source, readText host.files host.cwd shader = .ok source ∧
      writeText host.files host.cwd output ((Program.ofSource .standard source).formatted
        (Format.ofName f) shader host.now) = .ok (exportCode host shader (some output) f).files := by
  refine Classical.byContradiction fun hnot => ?_
  have hexit := (exportCode_of_error fun source files hread hwrite =>
    hnot ⟨source, hread, (exportCode_of_ok hread hwrite).2 ▸ hwrite⟩).1
  rw [h] at hexit
  exact absurd hexit (by decide)

theorem readLog_input (hlog : decode? host.input = some log) : readLog host "-" = .ok log := by
  rw [readLog, if_pos rfl, hlog]

/-- A log from the standard input is printed in the user's terms. -/
theorem remap_of_ok (hsource : readText host.files host.cwd shader = .ok source)
    (hlog : decode? host.input = some log) {text : List Char}
    (h : Diagnostic.toUserLines log.toList
      ((Program.ofSource .standard source).offsetIn (Format.ofName f)) = .ok text) :
    remap host shader "-" f = Outcome.printed host
      ((Program.ofSource .standard source).records ++ formatRecords f) (String.ofList text) := by
  simp only [remap, withShader, hsource, readLog_input hlog, h]

/-- A log with a number that is too long ends the command. -/
theorem remap_of_error (hsource : readText host.files host.cwd shader = .ok source)
    (hlog : decode? host.input = some log) {fault : DigitFault}
    (h : Diagnostic.toUserLines log.toList
      ((Program.ofSource .standard source).offsetIn (Format.ofName f)) = .error fault) :
    remap host shader "-" f = Outcome.aborted host
      ((Program.ofSource .standard source).records ++ formatRecords f) (.number fault) := by
  simp only [remap, withShader, hsource, readLog_input hlog, h]

end Command

/-- A message that may follow a line reference: it has no reference of its own, no carriage return and
no control sequence. -/
structure Diagnostic.IsMessage (msg : String) : Prop where
  no_reference : pattern.occursIn msg.toList = false
  no_return : '\r' ∉ msg.toList
  no_control : Terminal.pattern.occursIn msg.toList = false

/-- The log of a compiler that complains about line `n`. -/
def Diagnostic.logText (n : Nat) (msg : String) : String :=
  "ERROR: 0:" ++ Decimal.natText n ++ ": " ++ msg

namespace Diagnostic

variable {msg : String}

theorem toList_logText (n : Nat) (msg : String) :
    (logText n msg).toList = "ERROR: 0:".toList ++ (Decimal.digits n ++ ':' :: (' ' :: msg.toList)) := by
  unfold logText
  simp only [String.toList_append, Decimal.toList_natText, List.append_assoc]
  rfl

theorem IsMessage.occursIn_space (h : IsMessage msg) :
    pattern.occursIn (' ' :: msg.toList) = false := by
  rw [Pattern.occursIn_cons (read?_cons_of_ne (by decide) _)]
  exact h.no_reference

theorem IsMessage.decode?_logText (h : IsMessage msg) (n : Nat) :
    decode? (logText n msg).toUTF8 = some (logText n msg) := by
  refine decode?_toUTF8 ?_
  rw [toList_logText]
  simp only [List.mem_append, List.mem_cons, not_or]
  exact ⟨by decide, (Decimal.within_digits n).not_mem (by decide), by decide, by decide, h.no_return⟩

/-- The mapped message is printed as it is. -/
theorem IsMessage.withoutControls_label (h : IsMessage msg) (k : Nat) :
    withoutControls ("ERROR: Line " ++ Decimal.natText k ++ ": " ++ msg) =
      "ERROR: Line " ++ Decimal.natText k ++ ": " ++ msg := by
  refine withoutControls_of_occursIn_eq_false ?_
  have hnot : '\x1b' ∉ ("ERROR: Line " ++ Decimal.natText k ++ ": ").toList := by
    simp only [String.toList_append, Decimal.toList_natText, List.mem_append, not_or]
    exact ⟨⟨by decide, (Decimal.within_digits k).not_mem (by decide)⟩, by decide⟩
  rw [String.toList_append, Terminal.occursIn_append hnot]
  exact h.no_control

end Diagnostic

namespace Command

variable {shader f source msg : String}

/-- Mapping back the log of a compiler that complains about a line of exported code. -/
theorem remap_logText (host : Host) (hsource : readText host.files host.cwd shader = .ok source)
    (hmsg : Diagnostic.IsMessage msg) {k n : Nat}
    (hn : n = linesAbove f + (Program.ofSource .standard source).lineOffset + k)
    (hinput : host.input = (Diagnostic.logText n msg).toUTF8) :
    ((Decimal.digits n).length ≤ Decimal.digitLimit → (remap host shader "-" f).exitCode = 0 ∧
      (remap host shader "-" f).output = "ERROR: Line " ++ Decimal.natText k ++ ": " ++ msg) ∧
    (Decimal.digitLimit < (Decimal.digits n).length → (remap host shader "-" f).abort =
      some (.number (.reading (Decimal.digits n).length))) := by
  have hlog : decode? host.input = some (Diagnostic.logText n msg) := by
    rw [hinput, hmsg.decode?_logText]
  rw [← Program.offsetIn_ofName] at hn
  constructor
  · intro hlimit
    have hmap := Diagnostic.toUserLines_reference (hn ▸ hlimit) hmsg.occursIn_space
    rw [← hn, ← Diagnostic.toList_logText] at hmap
    rw [remap_of_ok hsource hlog hmap]
    refine ⟨rfl, ?_⟩
    have htext : String.ofList ("ERROR: Line ".toList ++
        (Decimal.digits k ++ ':' :: ' ' :: msg.toList)) =
        "ERROR: Line " ++ Decimal.natText k ++ ": " ++ msg := by
      rw [← String.toList_inj, String.toList_ofList]
      simp only [String.toList_append, Decimal.toList_natText, List.append_assoc]
      rfl
    rw [htext]
    exact hmsg.withoutControls_label k
  · intro hlimit
    have hmap := Diagnostic.toUserLines_of_limit hlimit hmsg.occursIn_space
      ((Program.ofSource .standard source).offsetIn (Format.ofName f))
    rw [← Diagnostic.toList_logText] at hmap
    rw [remap_of_error hsource hlog hmap]
    rfl

theorem run_eq_invoke {arguments : List String} {invocation : Invocation}
    (h : Invocation.ofArguments? arguments = some invocation) (host : Host) :
    run host arguments = invoke host invocation := by
  rw [run, h]

/-- After an export that ended well, mapping the log of a compiler that complains about a line of the
exported file names the user's line.

The written code, from the line behind the header and the preamble on, is the user's part, and in
the commented format the header says so.  A number that is too long to be read ends the command. -/
theorem remap_inverts_export (host : Host) (exporting remapping : List String)
    (shader output f : String)
    (hexport : Invocation.ofArguments? exporting = some (.exportCode shader (some output) f))
    (hremap : Invocation.ofArguments? remapping = some (.remap shader "-" f))
    (hname : '\n' ∉ (Path.baseName shader).toList)
    (hother : host.files.locate host.cwd (Path.ofText output) ≠
      host.files.locate host.cwd (Path.ofText shader))
    (hexit : (run host exporting).exitCode = 0) :
    ∃ source code : String,
      readText host.files host.cwd shader = .ok source ∧
      (run host exporting).files.read host.cwd (Path.ofText output) = .ok code.toUTF8 ∧
      dropLines (linesAbove f + (Program.ofSource .standard source).lineOffset) code.toList =
        belowPreamble source ∧
      (f = "commented" → (lines code.toList)[3]? = some ("// User source starts at line " ++
        Decimal.natText (linesAbove f + (Program.ofSource .standard source).lineOffset + 1)).toList) ∧
      ∀ (k : Nat) (msg : String), Diagnostic.IsMessage msg →
        let n := linesAbove f + (Program.ofSource .standard source).lineOffset + k
        let outcome := run { host with
          files := (run host exporting).files
          input := (Diagnostic.logText n msg).toUTF8 } remapping
        ((Decimal.digits n).length ≤ Decimal.digitLimit → outcome.exitCode = 0 ∧
          outcome.output = "ERROR: Line " ++ Decimal.natText k ++ ": " ++ msg) ∧
        (Decimal.digitLimit < (Decimal.digits n).length →
          outcome.abort = some (.number (.reading (Decimal.digits n).length))) := by
  have hrun : run host exporting = exportCode host shader (some output) f :=
    run_eq_invoke hexport host
  rw [hrun] at hexit ⊢
  obtain ⟨source, hsource, hwrite⟩ := exists_of_exportCode hexit
  obtain ⟨-, hwrite⟩ := writeText_eq_ok_iff.1 hwrite
  refine ⟨source, _, hsource, Tree.read_write_self hwrite, ?_, ?_, ?_⟩
  · obtain ⟨a, front, ha, hfront, hcode⟩ :=
      Program.formatted_eq source hname (Format.ofName f) host.now
    rw [hcode, ← Program.offsetIn_ofName, ← hfront, dropLines_append ha]
  · intro hcommented
    have hformat : Format.ofName f = .commented := by rw [Format.ofName_eq, if_pos hcommented]
    rw [hformat, Program.getElem?_formatted_commented _ hname, linesAbove, if_pos hcommented]
    rfl
  · intro k msg hmsg n outcome
    obtain ⟨hnull, bytes, hbytes, hdecode⟩ := readText_eq_ok_iff.1 hsource
    have hsource' : readText (exportCode host shader (some output) f).files host.cwd shader =
        .ok source :=
      readText_eq_ok_iff.2 ⟨hnull, bytes, Tree.read_write_of_ne hwrite hother hbytes, hdecode⟩
    let after : Host := { host with
      files := (exportCode host shader (some output) f).files
      input := (Diagnostic.logText n msg).toUTF8 }
    have houtcome : outcome = remap after shader "-" f := run_eq_invoke hremap after
    rw [houtcome]
    exact remap_logText after hsource' hmsg rfl rfl

/-- A shader of one line, exported with a header: its line is line 29 of the file. -/
theorem remap_inverts_export_of_one_line :
    ∃ files : Tree,
      (run ⟨["work"], files, .empty, 0, []⟩
        ["export-code", "a.agsl", "out.glsl", "--format", "commented"]).exitCode = 0 ∧
      (run ⟨["work"], (run ⟨["work"], files, .empty, 0, []⟩
          ["export-code", "a.agsl", "out.glsl", "--format", "commented"]).files,
        (Diagnostic.logText 29 "'y' : undeclared identifier").toUTF8, 0, []⟩
        ["remap", "a.agsl", "--format", "commented"]).output =
        "ERROR: Line 1: 'y' : undeclared identifier" := by
  let files : Tree :=
    [(["work"], .directory), (["work", "a.agsl"], .file "uniform float x;".toUTF8)]
  let host : Host := ⟨["work"], files, .empty, 0, []⟩
  have hlocate : files.locate ["work"] (Path.ofText "a.agsl") = .ok ["work", "a.agsl"] := rfl
  have hlocate' : files.locate ["work"] (Path.ofText "out.glsl") = .ok ["work", "out.glsl"] := rfl
  have hread : readText files ["work"] "a.agsl" = .ok "uniform float x;" :=
    readText_eq_ok_iff.2 ⟨rfl, _, Tree.read_eq_ok_iff.2 ⟨_, hlocate, rfl⟩, decode?_toUTF8 (by decide)⟩
  have hexport : Invocation.ofArguments?
      ["export-code", "a.agsl", "out.glsl", "--format", "commented"] =
      some (.exportCode "a.agsl" (some "out.glsl") "commented") := by decide +kernel
  have hexit : (run host ["export-code", "a.agsl", "out.glsl", "--format", "commented"]).exitCode =
      0 := by
    have hwrite (code : String) : writeText files ["work"] "out.glsl" code =
        .ok (files.put ["work", "out.glsl"] (.file code.toUTF8)) :=
      writeText_eq_ok_iff.2 ⟨rfl, Tree.write_eq_ok_iff.2 ⟨_, hlocate', rfl, rfl⟩⟩
    rw [run_eq_invoke hexport]
    show (exportCode host "a.agsl" (some "out.glsl") "commented").exitCode = 0
    exact (exportCode_of_ok hread (hwrite _)).1
  have hoffset : (Program.ofSource .standard "uniform float x;").lineOffset = 23 := by
    have hlines : ∀ l ∈ Preamble.lines .standard [], '\n' ∉ l.toList := by decide +kernel
    have htextures : userTextures .standard "uniform float x;".toList = [] := by decide +kernel
    rw [Program.lineOffset_ofSource, htextures, preamble, newlines_unlines hlines]
    rfl
  obtain ⟨source, code, hsource, -, -, -, hremap⟩ := remap_inverts_export host
    ["export-code", "a.agsl", "out.glsl", "--format", "commented"]
    ["remap", "a.agsl", "--format", "commented"] "a.agsl" "out.glsl" "commented"
    hexport (by decide +kernel) (by decide) (by rw [hlocate, hlocate']; simp) hexit
  obtain rfl : source = "uniform float x;" := Except.ok.inj (hsource.symm.trans hread)
  have hmessage : Diagnostic.IsMessage "'y' : undeclared identifier" :=
    ⟨by decide +kernel, by decide, by decide +kernel⟩
  have hline : linesAbove "commented" + 23 + 1 = 29 := rfl
  have htext : "ERROR: Line " ++ Decimal.natText 1 ++ ": " ++ "'y' : undeclared identifier" =
      "ERROR: Line 1: 'y' : undeclared identifier" := by decide +kernel
  have hlast := (hremap 1 _ hmessage).1
  rw [hoffset, hline, htext] at hlast
  exact ⟨files, hexit, (hlast (by decide +kernel)).2⟩

end Command
end ShaderPreview
