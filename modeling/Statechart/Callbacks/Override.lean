import Statechart.Callbacks.Routine
import Statechart.Reading.Chart
import Statechart.Report.Work

/-!
Hand-written callbacks.

A file of overrides is source code. Its functions that are marked as an action or a guard take the
place of the generated routines of the same name; the first marker is removed and the rest stays as
written.
-/
set_option autoImplicit false

namespace Statechart

open Target (Tree)

structure Override where
  name : String
  role : Role
  /-- The function without its marker. -/
  tree : Tree
  deriving Repr

structure OverrideFile where
  path : Path
  functions : List Override
  deriving Repr

namespace Override

def markedRole? : Tree → Option Role
  | .node _ kids =>
    match kids.getLast? with
    | some (.group .bracket [.node _ (.node .path [.list [], .list [.node .segment [word, _]]] :: _)]) =>
      match word.leafText with
      | "action" => some .action
      | "guard" => some .guard
      | _ => none
    | _ => none
  | _ => none

def takeMarker : List Tree → Option (Role × List Tree)
  | [] => none
  | attr :: attrs =>
    match markedRole? attr with
    | some role => some (role, attrs)
    | none => (takeMarker attrs).map fun found => (found.1, attr :: found.2)

/-- A marked function; attributes inside the body count after those in front. -/
def ofItem? : Tree → Option Override
  | .node .fnItem
      [.list attrs, visibility, default, .node .sig sig,
        .node .block [.group .brace [.list inner, stmts]]] =>
    let name := (sig.getD 5 (.list [])).leafText
    let item (attrs inner : List Tree) : Tree :=
      .node .fnItem [.list attrs, visibility, default, .node .sig sig,
        .node .block [.group .brace [.list inner, stmts]]]
    match takeMarker attrs with
    | some (role, attrs) => some ⟨name, role, item attrs inner⟩
    | none => (takeMarker inner).map fun found => ⟨name, found.1, item attrs found.2⟩
  | _ => none

def repeated? : (before : List String) → List Override → Option String
  | _, [] => none
  | before, f :: fs => if before.contains f.name then some f.name else repeated? (f.name :: before) fs

end Override

namespace OverrideFile

def items : Tree → List Tree
  | .node .file [_, .list items] => items
  | _ => []

def parse (path : Path) (source : String) : Except Error OverrideFile :=
  match Target.Fragment.file? source with
  | none => .error (.refusedOverrides path)
  | some file =>
    let functions := (items file).filterMap Override.ofItem?
    match Override.repeated? [] functions with
    | some name => .error (.duplicate .overrideFunction name)
    | none => .ok ⟨path, functions⟩

def load (read : Reading.FileReader) (path : Path) : Except Error OverrideFile :=
  match read path with
  | .ok source => parse path source
  | .error fault => .error (.inaccessible path fault)

/-- Puts a hand-written function in the place of the first routine of its name. -/
def replace (f : Override) : List Routine → List Routine
  | [] => []
  | r :: rs => if r.name = f.name then { r with override := some f.tree } :: rs else r :: replace f rs

/-- Merges functions in order; the result tells which of them no routine was waiting for. -/
def mergeAll : List Override → Work Error (List Routine) (List String)
  | [] => return []
  | f :: fs => do
    match (← Work.get).find? (·.name == f.name) with
    | none => return f.name :: (← mergeAll fs)
    | some r =>
      if r.role ≠ f.role then Work.fail (.roleConflict f.name)
      else
        Work.modify (replace f)
        mergeAll fs

/-- Merges a file into routines. The value is the names of functions that nothing refers to. -/
def merge (file : OverrideFile) : Work Error (List Routine) (List String) := do
  let orphans ← mergeAll file.functions
  if !orphans.isEmpty then
    Work.warn .orphanedOverride
      (s!"{file.path.text}: callbacks never referenced by the design: " ++
        ", ".intercalate orphans)
  Work.note .info "override callbacks merged" [
    ("merged", toString (file.functions.length - orphans.length)),
    ("orphans", toString orphans.length)]
  return orphans

end OverrideFile

end Statechart
