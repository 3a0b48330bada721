import Statechart.Callbacks.Generator
import Statechart.Callbacks.Override
import Statechart.Compile.Settings
import Statechart.Compile.Stage
import Statechart.Module.Source
import Statechart.Validation

/-!
A compilation without its files: the stages in order, up to the first that fails.
-/
set_option autoImplicit false

namespace Statechart

structure Run where
  chart : Chart := { name := "" }
  callbacks : Callbacks := {}
  orphans : List String := []
  declarations : List Target.Token := []
  source : Option String := none

structure Compilation where
  chart : Chart
  /-- The generated module, unless the design was only checked. -/
  source : Option String
  callbacksSource : Option String
  /-- Hand-written functions that nothing refers to. -/
  orphans : List String
  outputPath : Path

namespace Compilation

def callbacksPath (c : Compilation) : Path :=
  Statechart.callbacksPath c.outputPath c.chart.name

end Compilation

inductive Outcome where
  | emitted (c : Compilation)
  | aborted (stage : Stage) (error : Error)
  /-- Something could not be turned into source text at all. -/
  | crashed (text : String)

structure Report where
  outcome : Outcome
  journal : Journal

namespace Report

def warnings (r : Report) : List Warning :=
  r.journal.warnings

end Report

structure Stop where
  stage : Stage
  fault : Fault

namespace Stop

def outcome (s : Stop) : Outcome :=
  match s.fault with
  | .rejected e => .aborted s.stage e
  | .unprintable text => .crashed text

def entries (stage : Stage) : Fault → Journal
  | .rejected e => [.note ⟨.error, e.message, [("stage", stage.text)]⟩]
  | .unprintable _ => []

end Stop

namespace Run

abbrev Stagework := Work Fault Run

def onChart (check : Check Unit) : Stagework Unit :=
  check.within Run.chart (fun c r => { r with chart := c }) .rejected

def designText (s : Settings) (read : Reading.FileReader) : Option String → Except Error String
  | some text => .ok text
  | none => (read s.design).mapError (.inaccessible s.design)

def parse (s : Settings) (read : Reading.FileReader) (text : Option String) : Stagework Unit := do
  let text ← Work.ofExcept ((designText s read text).mapError .rejected)
  let chart ← (Chart.read s.label text s.directory read).within
    (fun _ => ()) (fun _ r => r) .rejected
  Work.modify fun r => { r with chart }

def generate (pass : Chart → Generate Unit) : Stagework Unit := do
  let run ← Work.get
  (pass run.chart).within (fun r => Generator.resume r.callbacks)
    (fun g r => { r with callbacks := g.out }) .rejected

def merge (s : Settings) (read : Reading.FileReader) : Stagework Unit := do
  match ← s.overridePath (← Work.get).chart.options with
  | none => return ()
  | some path =>
    let file ← Work.ofExcept ((OverrideFile.load read path).mapError .rejected)
    let orphans ← file.merge.within (fun r => r.callbacks.routines)
      (fun routines r => { r with callbacks := { r.callbacks with routines } }) .rejected
    Work.modify fun r => { r with orphans }

def declare : Stagework Unit := do
  let run ← Work.get
  let declarations ← Work.ofExcept (Module.declarations run.chart run.callbacks)
  Work.modify fun r => { r with declarations }

def write : Stagework Unit := do
  let run ← Work.get
  let source ← Work.ofExcept (Module.source run.chart run.declarations)
  Work.modify fun r => { r with source := some source }

def stage (s : Settings) (read : Reading.FileReader) (text : Option String) :
    Stage → Stagework Unit
  | .parseDesign => parse s read text
  | .allocateEvents => onChart Validation.events
  | .validateStart => onChart Validation.starts
  | .validateTransitions => onChart Validation.checkTransitions
  | .generateStateHooks => generate Generator.stateHooks
  | .generateTransitionHooks => generate Generator.transitionHooks
  | .mergeOverrides => merge s read
  | .emitDeclarations => declare
  | .emitWrapper => write

/-- The stages in order. Without code generation those that generate are left out. -/
def stages (s : Settings) (read : Reading.FileReader) (text : Option String) :
    List Stage → Work Stop Run Unit
  | [] => return ()
  | st :: rest => do
    if st.generates && !(← Work.get).chart.options.genCode then
      Work.note .debug "skipped, GenCode is off" [("stage", st.text)]
    else
      Work.note .debug "entering stage" [("stage", st.text)]
      (stage s read text st).reporting (Stop.entries st) (Stop.mk st)
    stages s read text rest

def finish (s : Settings) : Work Stop Run Compilation := do
  let run ← Work.get
  let callbacksSource ← Work.ofExcept
    ((Module.callbacksSource run.chart run.callbacks).mapError (Stop.mk .emitWrapper))
  return {
    chart := run.chart
    source := run.source
    callbacksSource
    orphans := run.orphans
    outputPath := s.outputPath run.chart.name }

def finished (c : Compilation) (warnings : Nat) : Entry :=
  .note ⟨.info, "compilation finished", [
    ("chart", c.chart.name),
    ("states", toString c.chart.enabledStates.length),
    ("transitions", toString c.chart.enabledTransitions.length),
    ("warnings", toString warnings)]⟩

end Run

def compileText (s : Settings) (read : Reading.FileReader) (text : Option String) : Report :=
  let work : Work Stop Run Compilation := do
    Run.stages s read text Stage.all
    Run.finish s
  let step := work {}
  match step.result with
  | .ok c =>
    ⟨.emitted c, step.journal ++ [Run.finished c step.journal.warnings.length]⟩
  | .error stop => ⟨stop.outcome, step.journal⟩

end Statechart
