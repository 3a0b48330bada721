import Statechart.Compile.Run
import Statechart.Files.Store

/-!
A compilation with its files.

Nothing is written unless all stages went through. The module is written first; the callbacks file
only if there is nothing at its path, so that edited callbacks are never lost.
-/
set_option autoImplicit false

namespace Statechart

structure Output where
  path : Path
  text : String
  /-- What is there already is left alone. -/
  keep : Bool
  deriving DecidableEq, Repr

namespace Compilation

def outputs (c : Compilation) : List Output :=
  (c.source.map fun text => ⟨c.outputPath, text, false⟩).toList ++
    (c.callbacksSource.map fun text => ⟨c.callbacksPath, text, true⟩).toList

end Compilation

namespace Output

def entry (level : Level) (message : String) (o : Output) : Entry :=
  .note ⟨level, message, [("path", o.path.text)]⟩

def written (o : Output) : Entry :=
  entry .info (if o.keep then "callbacks file written" else "generated code written") o

def kept (o : Output) : Entry :=
  entry .warn "callbacks file exists, leaving it untouched" o

def write {σ : Type} (disk : Disk σ) (o : Output) : Work Error σ Unit := do
  let files ← Work.get
  if o.keep && disk.has files o.path then Work.enter o.kept
  else
    match disk.write files o.path o.text with
    | .ok files =>
      Work.modify fun _ => files
      Work.enter o.written
    | .error fault => Work.fail (.inaccessible o.path fault)

end Output

def compile {σ : Type} (disk : Disk σ) (s : Settings) (files : σ) : Report × σ :=
  let report := compileText s (disk.read files) none
  match report.outcome with
  | .emitted c =>
    if s.checkOnly then (report, files)
    else
      let step := Work.each (Output.write disk) c.outputs files
      let journal := report.journal ++ step.journal
      match step.result with
      | .ok () => (⟨.emitted c, journal⟩, step.state)
      | .error e => (⟨.aborted .emitWrapper e, journal⟩, step.state)
  | _ => (report, files)

end Statechart
