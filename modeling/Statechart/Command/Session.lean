import Statechart.Chart.Dump
import Statechart.Command.Arguments
import Statechart.Compile

/-!
One run of the command: a compilation, what is printed, and what is reported if it fails.
-/
set_option autoImplicit false

namespace Statechart

inductive Verdict where
  | done (c : Compilation)
  /-- The messages of a failure, from the outermost to its cause. -/
  | failed (messages : List String)
  | crashed (text : String)

structure Session where
  verdict : Verdict
  /-- The text printed. -/
  stdout : String
  journal : Journal

namespace Session

def causes (e : Error) : List String :=
  match e with
  | .inaccessible _ fault => [e.message, fault.message]
  | _ => [e.message]

def stopText (stage : Stage) (e : Error) : String :=
  s!"aborted while {stage.text}: {e.message}"

def failure (design : Path) (warnings : Nat) (stage : Stage) (e : Error) : List String :=
  [s!"{design.text} failed with {warnings} warning(s)", stopText stage e] ++ causes e

/-- The chart as JSON if asked for, and the module if the design says so. -/
def printed (a : Arguments) (c : Compilation) : String :=
  (if a.dumpModel then c.chart.json.text ++ "\n" else "") ++
    if c.chart.options.print then (c.source.map (· ++ "\n")).getD "" else ""

def quotedList (texts : List String) : String :=
  "[" ++ ", ".intercalate (texts.map Text.quoted) ++ "]"

def closing (a : Arguments) (c : Compilation) (warnings : Nat) : Journal :=
  (if c.orphans.isEmpty then []
    else [.note ⟨.warn, "override callbacks were not used",
      [("orphans", quotedList c.orphans)]⟩]) ++
  [.note ⟨.info, "done", [
    ("chart", c.chart.name),
    ("warnings", toString warnings),
    ("output", c.outputPath.text),
    ("checked_only", if a.settings.checkOnly then "true" else "false")]⟩]

def causeLines : Nat → List String → String
  | _, [] => ""
  | n, m :: ms => s!"\n    {n}: {m}" ++ causeLines (n + 1) ms

def failureText : List String → String
  | [] => ""
  | m :: causes => s!"Error: {m}\n\nCaused by:" ++ causeLines 0 causes

def ofReport (a : Arguments) (r : Report) : Session :=
  let warnings := r.warnings.length
  match r.outcome with
  | .emitted c => ⟨.done c, printed a c, r.journal ++ closing a c warnings⟩
  | .aborted stage e => ⟨.failed (failure a.settings.design warnings stage e), "", r.journal⟩
  | .crashed text => ⟨.crashed text, "", r.journal⟩

end Session

def runCommand {σ : Type} (disk : Disk σ) (a : Arguments) (files : σ) : Session × σ :=
  let (report, files) := compile disk a.settings files
  (Session.ofReport a report, files)

end Statechart
