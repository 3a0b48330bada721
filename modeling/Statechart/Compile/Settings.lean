import Statechart.Reading.Chart

/-!
What the caller of a compilation asks for.
-/
set_option autoImplicit false

namespace Statechart

structure Settings where
  design : Path
  output : Option Path := none
  /-- Hand-written callbacks; they go before those that the design names. -/
  callbacks : Option Path := none
  /-- Nothing is written. -/
  checkOnly : Bool := false
  deriving DecidableEq, Repr

namespace Settings

def directory (s : Settings) : Path :=
  s.design.parent

def label (s : Settings) : String :=
  s.design.fileName?.getD s.design.text

/-- The file of hand-written callbacks. One that the design names is sought next to it. -/
def overridePath {ε σ : Type} (s : Settings) (options : Options) : Work ε σ (Option Path) := do
  let fromDesign := options.overrides.map s.directory.join
  match s.callbacks, fromDesign with
  | some given, some file =>
    if !given.same file then
      Work.warn .ignoredOption s!"InsertCB {file.text} is overridden by {given.text}"
    return some given
  | some given, none => return some given
  | none, file => return file

/-- Where the module goes: next to the design, unless the caller names a file. -/
def outputPath (s : Settings) (chart : String) : Path :=
  s.output.getD (s.directory.join ⟨chart ++ ".rs"⟩)

/-- The initializer file and the file of hand-written callbacks, as far as the design names them. -/
def inputs (s : Settings) (text : String) : List Path :=
  let named :=
    match Design.File.parse s.label text with
    | .error _ => []
    | .ok f =>
      ((f.section? "INITIAL").bind fun i => Reading.initialFile? i s.directory).toList ++
        ((f.section? "OPTIONS").bind fun o =>
          (Reading.overrides? o).map s.directory.join).toList
  named ++ s.callbacks.toList

end Settings

def callbacksPath (output : Path) (chart : String) : Path :=
  output.withFileName (output.stem?.getD chart ++ "_cb.rs")

end Statechart
