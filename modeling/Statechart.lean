import Statechart.Callbacks.Generator
import Statechart.Callbacks.Override
import Statechart.Callbacks.Piece
import Statechart.Callbacks.Routine
import Statechart.Chart
import Statechart.Chart.Callback
import Statechart.Chart.Dump
import Statechart.Chart.Event
import Statechart.Chart.Port
import Statechart.Chart.State
import Statechart.Chart.Transition
import Statechart.Command.Arguments
import Statechart.Command.Session
import Statechart.Compile
import Statechart.Compile.Run
import Statechart.Compile.Settings
import Statechart.Compile.Stage
import Statechart.Design.Family
import Statechart.Design.File
import Statechart.Design.Section
import Statechart.Files.Store
import Statechart.Json
import Statechart.Main
import Statechart.Module.Constructor
import Statechart.Module.Source
import Statechart.Module.Tables
import Statechart.Module.Wrapper
import Statechart.Path
import Statechart.Proofs.Callbacks.Closure
import Statechart.Proofs.Callbacks.Uses
import Statechart.Proofs.Design.Family
import Statechart.Proofs.Lists
import Statechart.Proofs.Module.Execution
import Statechart.Proofs.Module.Faithful
import Statechart.Proofs.Module.Order
import Statechart.Proofs.Module.Outline
import Statechart.Proofs.Module.Shadowing
import Statechart.Proofs.Reading.Chart
import Statechart.Proofs.Text
import Statechart.Proofs.Validation.Checks
import Statechart.Proofs.Validation.Events
import Statechart.Proofs.Validation.Hierarchy
import Statechart.Proofs.Validation.Idempotence
import Statechart.Proofs.Validation.Soundness
import Statechart.Proofs.Validation.Transitions
import Statechart.Proofs.Work
import Statechart.Reading.Chart
import Statechart.Reading.Options
import Statechart.Report.Error
import Statechart.Report.Journal
import Statechart.Report.Warning
import Statechart.Report.Work
import Statechart.Target.Fragment
import Statechart.Target.Grammar.Peg
import Statechart.Target.Grammar.Rule
import Statechart.Target.Layout
import Statechart.Target.Layout.Doc
import Statechart.Target.Layout.Expr
import Statechart.Target.Layout.Item
import Statechart.Target.Layout.Sketch
import Statechart.Target.Layout.Stream
import Statechart.Target.Layout.Types
import Statechart.Target.Lexer
import Statechart.Target.Literal
import Statechart.Target.Token
import Statechart.Target.Tree
import Statechart.Text.Blank
import Statechart.Text.Identifier
import Statechart.Text.Letter
import Statechart.Text.Quoted
import Statechart.Text.Split
import Statechart.Validation
import Statechart.Validation.Events
import Statechart.Validation.Hierarchy
import Statechart.Validation.Transitions
import Statechart.Proofs.Validation.Accounting
import Statechart.Proofs.Validation.Frame
import Statechart.Proofs.Compile.Stages
import Statechart.Proofs.Compile.Writing
import Statechart.Proofs.Files.Names
import Statechart.Proofs.Design.Written
import Statechart.Proofs.Target.Function
import Statechart.Proofs.Callbacks.Marked
import Statechart.Proofs.Compile.Overrides
import Statechart.Proofs.Target.Spelling
import Statechart.Proofs.Target.Tail
import Statechart.Proofs.Compile.Hooks
import Statechart.Proofs.Module.Printing
import Statechart.Proofs.Compile.Crashing
import Statechart.Proofs.Compile.Touching
import Statechart.Proofs.Compile.Naming
import Statechart.Proofs.Validation.Allocation
import Statechart.Proofs.Module.Constants
import Statechart.Proofs.Validation.Ancestors
import Statechart.Proofs.Validation.Cascade
import Statechart.Proofs.Validation.Parents
import Statechart.Proofs.Validation.Crossing
import Statechart.Proofs.Module.Inventory
import Statechart.Proofs.Module.Scoping
import Statechart.Proofs.Module.Capture
import Statechart.Proofs.Module.Lookups
import Statechart.Proofs.Module.Siblings
import Statechart.Proofs.Validation.References
import Statechart.Proofs.Validation.EndEvents
import Statechart.Proofs.Module.Routing
import Statechart.Proofs.Validation.Starts
import Statechart.Proofs.Callbacks.Meaning
import Statechart.Proofs.Callbacks.Limits
import Statechart.Proofs.Design.Headers
import Statechart.Proofs.Callbacks.Resuming
import Statechart.Proofs.Module.Messages
import Statechart.Proofs.Callbacks.Merging
import Statechart.Proofs.Design.Collecting
import Statechart.Proofs.Reading.WellFormed
import Statechart.Proofs.Reading.Endpoints
import Statechart.Proofs.Design.Continuing
import Statechart.Proofs.Design.Blocks
import Statechart.Proofs.Callbacks.Brackets
