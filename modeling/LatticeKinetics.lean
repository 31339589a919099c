import LatticeKinetics.Command.Arguments
import LatticeKinetics.Command.LogFilter
import LatticeKinetics.Command.Run
import LatticeKinetics.Conversion
import LatticeKinetics.Coordinate.Basic
import LatticeKinetics.Coordinate.Parser
import LatticeKinetics.Document
import LatticeKinetics.Event
import LatticeKinetics.Files.Disk
import LatticeKinetics.Files.Pathname
import LatticeKinetics.Files.Tree
import LatticeKinetics.Fortran.Code
import LatticeKinetics.Fortran.Expr
import LatticeKinetics.Fortran.LatticeModule
import LatticeKinetics.Fortran.Procedure
import LatticeKinetics.Fortran.ProcessModule
import LatticeKinetics.Frame
import LatticeKinetics.Json.Cursor
import LatticeKinetics.Json.Number
import LatticeKinetics.Json.Record
import LatticeKinetics.Json.Skip
import LatticeKinetics.Json.Text
import LatticeKinetics.Kernel
import LatticeKinetics.Lattice.Basic
import LatticeKinetics.Lattice.Formula
import LatticeKinetics.Lattice.Mapping
import LatticeKinetics.Main
import LatticeKinetics.Model.Basic
import LatticeKinetics.Model.Check
import LatticeKinetics.Model.Draft
import LatticeKinetics.Model.Error
import LatticeKinetics.Model.Fingerprint
import LatticeKinetics.Output.Delivery
import LatticeKinetics.Output.Settings
import LatticeKinetics.Output.Sources
import LatticeKinetics.Pattern.Basic
import LatticeKinetics.Pattern.Check
import LatticeKinetics.Pattern.Class
import LatticeKinetics.Pattern.Cursor
import LatticeKinetics.Pattern.Error
import LatticeKinetics.Pattern.Escape
import LatticeKinetics.Pattern.Group
import LatticeKinetics.Pattern.Parser
import LatticeKinetics.Plan.Basic
import LatticeKinetics.Plan.Compile
import LatticeKinetics.Report
import LatticeKinetics.Samples
import LatticeKinetics.Text.Character
import LatticeKinetics.Text.Letter
import LatticeKinetics.Text.Number
import LatticeKinetics.Text.Shortest
import LatticeKinetics.Text.Visible
import LatticeKinetics.Tree.Basic
import LatticeKinetics.Tree.Synthesis
import LatticeKinetics.Proofs.Outcome
import LatticeKinetics.Proofs.QuerySelection
import LatticeKinetics.Proofs.TreeSynthesis
import LatticeKinetics.Proofs.TreeShape
import LatticeKinetics.Proofs.ModelRules
import LatticeKinetics.Proofs.LatticeMapping
import LatticeKinetics.Proofs.SiteTypes
import LatticeKinetics.Proofs.Frames
import LatticeKinetics.Proofs.PlanLookup
import LatticeKinetics.Proofs.PlanItems
import LatticeKinetics.Proofs.PlanClosure
import LatticeKinetics.Proofs.KernelPlaces
import LatticeKinetics.Proofs.KernelListing
import LatticeKinetics.Proofs.KernelTouchup
import LatticeKinetics.Proofs.KernelUpdate
import LatticeKinetics.Proofs.KernelProcess
import LatticeKinetics.Proofs.KernelRuns
import LatticeKinetics.Proofs.FileTrees
import LatticeKinetics.Proofs.DirectoryPaths
import LatticeKinetics.Proofs.DeliverySteps
import LatticeKinetics.Proofs.Delivery
import LatticeKinetics.Proofs.ConversionTables
import LatticeKinetics.Proofs.SiteNumbers
import LatticeKinetics.Proofs.WellFormedDrafts
import LatticeKinetics.Proofs.Compilation
import LatticeKinetics.Proofs.NameCollisions
import LatticeKinetics.Proofs.GroundedTrees
import LatticeKinetics.Proofs.Rollback
import LatticeKinetics.Proofs.DeliveryOutcomes
import LatticeKinetics.Proofs.AllOrNothing
import LatticeKinetics.Proofs.Questions
import LatticeKinetics.Proofs.SourceTokens
import LatticeKinetics.Proofs.SourceExpressions
import LatticeKinetics.Proofs.NumberingFunctions
import LatticeKinetics.Proofs.SourceStatements
import LatticeKinetics.Proofs.TreeProcedures
import LatticeKinetics.Proofs.SourceLines
import LatticeKinetics.Proofs.OpaqueFields
import LatticeKinetics.Proofs.CoordinateGrammar
import LatticeKinetics.Proofs.FingerprintEncoding
import LatticeKinetics.Proofs.NameCapture
import LatticeKinetics.Proofs.CoordinateRanges
import LatticeKinetics.Proofs.LineBreaking
import LatticeKinetics.Proofs.StatementWords
import LatticeKinetics.Proofs.ProcedureLines
import LatticeKinetics.Proofs.LineLengths
import LatticeKinetics.Proofs.CoordinateRoundTrip
import LatticeKinetics.Proofs.SymbolicNumbering
import LatticeKinetics.Proofs.KernelChecks
import LatticeKinetics.Proofs.KernelRepair
import LatticeKinetics.Proofs.ConversionHistory
import LatticeKinetics.Proofs.EventClassification
import LatticeKinetics.Proofs.SiteExpressions
import LatticeKinetics.Proofs.LineJoining
import LatticeKinetics.Proofs.TreeBranches
import LatticeKinetics.Proofs.QuerySharing
import LatticeKinetics.Proofs.PlanReport
import LatticeKinetics.Proofs.ProcessFraming
import LatticeKinetics.Proofs.Translations
import LatticeKinetics.Proofs.SiteEnumeration
