import PropValidators.Assoc
import PropValidators.Ast.Argument
import PropValidators.Ast.Builder
import PropValidators.Ast.Calls
import PropValidators.Ast.Display
import PropValidators.Ast.Kind
import PropValidators.Ast.Members
import PropValidators.Ast.Names
import PropValidators.Ast.Node
import PropValidators.Ast.Place
import PropValidators.Ast.Reader
import PropValidators.Ast.Recipe
import PropValidators.Ast.Source
import PropValidators.Ast.Writer
import PropValidators.CallSites
import PropValidators.CommandLine.Arguments
import PropValidators.CommandLine.Command
import PropValidators.CommandLine.Folder
import PropValidators.CommandLine.Run
import PropValidators.Defaults
import PropValidators.Description
import PropValidators.Fault
import PropValidators.Json.Basic
import PropValidators.Json.Reader
import PropValidators.Json.Writer
import PropValidators.Literal
import PropValidators.Main
import PropValidators.Marker
import PropValidators.Merge
import PropValidators.Notice
import PropValidators.Number.Basic
import PropValidators.Number.Binary64
import PropValidators.Number.Reader
import PropValidators.Number.Shortest
import PropValidators.Options
import PropValidators.Patch
import PropValidators.Registry
import PropValidators.Settings
import PropValidators.Shape
import PropValidators.Text.Blank
import PropValidators.Text.Digit
import PropValidators.Text.Printable
import PropValidators.Text.Quoted
import PropValidators.Text.Word
import PropValidators.Traced
import PropValidators.Transform
import PropValidators.Types.Context
import PropValidators.Types.Expr
import PropValidators.Types.FromAst
import PropValidators.Types.Guard
import PropValidators.Types.Guarded
import PropValidators.Types.Passing
import PropValidators.Types.References
import PropValidators.Types.Resolve
import PropValidators.Validator
import PropValidators.Workspace
import PropValidators.Proofs.Resolution.Script
import PropValidators.Proofs.Resolution.Termination
import PropValidators.Proofs.KeyedLists
import PropValidators.Proofs.Outcomes
import PropValidators.Proofs.Resolution.Agreement
import PropValidators.Proofs.Resolution.Nullable
import PropValidators.Proofs.Patching.Edits
import PropValidators.Proofs.Patching.Frame
import PropValidators.Proofs.Resolution.SharedContext
import PropValidators.Proofs.Resolution.Inheritance
import PropValidators.Proofs.Resolution.Shapes
import PropValidators.Proofs.Syntax.Projection
import PropValidators.Proofs.Divisions
import PropValidators.Proofs.Syntax.Below
import PropValidators.Proofs.Types.Parts
import PropValidators.Proofs.Resolution.Alike
import PropValidators.Proofs.Resolution.Levels
import PropValidators.Proofs.Resolution.Matching
import PropValidators.Proofs.Resolution.Cutoff
import PropValidators.Proofs.Shapes.Within
import PropValidators.Proofs.Resolution.Admission
import PropValidators.Proofs.Resolution.Bounds
import PropValidators.Proofs.Patching.Faults
import PropValidators.Proofs.Resolution.Nesting
import PropValidators.Proofs.Validators.Lowering
import PropValidators.Proofs.Validators.Descriptions
import PropValidators.Proofs.CallSites.Commuting
import PropValidators.Proofs.CallSites.Independent
import PropValidators.Proofs.Patching.SameTypes
import PropValidators.Proofs.Registry.Shadowing
import PropValidators.Proofs.Patching.HandWritten
import PropValidators.Proofs.Resolution.Unions
import PropValidators.Proofs.Resolution.Grouping
import PropValidators.Proofs.Resolution.Overriding
import PropValidators.Proofs.Markers.Stamping
import PropValidators.Proofs.Registry.Contents
import PropValidators.Proofs.Validators.RequiredMarks
import PropValidators.Proofs.Patching.Respelling
import PropValidators.Proofs.Markers.Files
import PropValidators.Proofs.Printing.Previews
import PropValidators.Proofs.Resolution.Selecting
import PropValidators.Proofs.Types.ReferencedNames
import PropValidators.Proofs.Types.EnumNumbering
import PropValidators.Proofs.Printing.Legible
import PropValidators.Proofs.CallSites.SameComponent
import PropValidators.Proofs.Shapes.Visible
import PropValidators.Proofs.Resolution.Unseen
