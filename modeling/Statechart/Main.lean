import Statechart.Command.Session

/-!
The command line: reads the files of a compilation, runs it, writes and prints what it says.
-/
set_option autoImplicit false

namespace Statechart.Command

def usageText : String :=
  "Usage: scb [OPTIONS] --design <DESIGN>\n\n" ++
  "Options:\n" ++
  "  -d, --design <DESIGN>        Design file to compile\n" ++
  "  -o, --output <OUTPUT>        Output file, defaults to <chart name>.rs next to the design\n" ++
  "  -c, --callbacks <CALLBACKS>  Override file with hand-written callbacks\n" ++
  "      --check                  Validate only and write nothing\n" ++
  "      --dump-model             Print the validated design model as JSON\n" ++
  "  -h, --help                   Print help\n" ++
  "  -V, --version                Print version"

def fault : IO.Error → FileFault
  | .noFileOrDirectory .. => .notFound
  | .inappropriateType _ 21 _ => .isDirectory
  | .inappropriateType _ 20 _ => .notDirectory
  | e => .other (toString e)

def readFile (p : Path) : IO (Except FileFault String) := do
  try
    match String.fromUTF8? (← IO.FS.readBinFile p.text) with
    | some text => return .ok text
    | none => return .error .notText
  catch e => return .error (fault e)

def hasFile (p : Path) : IO Bool := do
  try
    let _ ← IO.FS.realPath p.text
    return true
  catch _ => return false

def readInputs (s : Settings) : IO (List (Path × Except FileFault String)) := do
  let design ← readFile s.design
  let paths := (design.toOption.map s.inputs).getD []
  let others ← paths.mapM fun p => return (p, ← readFile p)
  return (s.design, design) :: others

def writeOutput (o : Output) : IO (Except Error Entry) := do
  if o.keep && (← hasFile o.path) then return .ok o.kept
  else
    try
      IO.FS.writeFile o.path.text o.text
      return .ok o.written
    catch e => return .error (.inaccessible o.path (fault e))

/-- Writes files up to the first that cannot be written. -/
def writeOutputs (r : Report) : List Output → IO Report
  | [] => return r
  | o :: os => do
    match ← writeOutput o with
    | .ok entry => writeOutputs { r with journal := r.journal ++ [entry] } os
    | .error e => return { r with outcome := .aborted .emitWrapper e }

def run (a : Arguments) : IO Session := do
  let inputs ← readInputs a.settings
  let report := compileText a.settings (fun p => (inputs.lookup p).getD (.error .notFound)) none
  match report.outcome with
  | .emitted c =>
    let outputs := if a.settings.checkOnly then [] else c.outputs
    return Session.ofReport a (← writeOutputs report outputs)
  | _ => return Session.ofReport a report

def printNote (n : Note) : IO Unit := do
  if n.level ≠ .debug then
    let fields := n.fields.map fun f => s!" {f.1}={f.2}"
    IO.println (s!"{n.level.name} {n.message}" ++ String.join fields)

def printSession (s : Session) : IO UInt32 := do
  let notes := s.journal.notes
  notes.dropLast.forM printNote
  IO.print s.stdout
  notes.getLast?.forM printNote
  match s.verdict with
  | .done _ => return 0
  | .failed messages =>
    IO.eprintln (Session.failureText messages)
    return 1
  | .crashed text =>
    IO.eprintln s!"cannot be written: {text}"
    return 101

end Statechart.Command

def main (args : List String) : IO UInt32 := do
  match Statechart.Arguments.parse args with
  | .ok a => Statechart.Command.printSession (← Statechart.Command.run a)
  | .error .help =>
    IO.println Statechart.Command.usageText
    return 0
  | .error .version =>
    IO.println "scb 0.0.1-alpha.0"
    return 0
  | .error _ =>
    IO.eprintln Statechart.Command.usageText
    return 2
