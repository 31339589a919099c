import LatticeKinetics.Fortran.Code
import LatticeKinetics.Fortran.Expr

/-! The parts of a source module: declarations, statements, procedures. Statements are data, so that
what they do and which constants they name can be told apart from how they are written. -/

namespace LatticeKinetics

def programName : String := "kmcgen"

def programVersion : String := "0.1.0"

namespace Fortran

open Text

structure Parameter where
  name : String
  value : String
deriving DecidableEq, Repr

def Parameter.render (p : Parameter) : String :=
  s!"integer(kind=iint), parameter :: {p.name} = {p.value}"

structure Declaration where
  type : String
  names : List String
deriving DecidableEq, Repr

def commaList (names : List String) : String :=
  ", ".intercalate names

def Declaration.render (d : Declaration) : String :=
  s!"{d.type} :: {commaList d.names}"

namespace Declaration

def integer (names : List String) : Declaration :=
  ⟨"integer(kind=iint)", names⟩

def integerArgument (names : List String) : Declaration :=
  ⟨"integer(kind=iint), intent(in)", names⟩

def siteVector (name : String) : Declaration :=
  ⟨"integer(kind=iint), dimension(4)", [name]⟩

def siteArgument : Declaration :=
  ⟨"integer(kind=iint), dimension(4), intent(in)", ["site"]⟩

end Declaration

/-- Statements inside procedures. Sites are seen from the argument `site`. -/
inductive Statement where
  | plain (text : String)
  | assign (target : String) (value : IntExpr)
  /-- The result tells whether each place holds its species. -/
  | verdict (result : String) (terms : List (SiteExpr × String))
  | replaceSpecies (before after : String)
  | addProcess (process : String) (place : SiteExpr)
  /-- Remove a process if it is listed. -/
  | removeProcess (process : String) (place : SiteExpr)
  | selectSpecies (place : SiteExpr)
  | select (selector : String)
  | case (constant : String)
  | endSelect
  | call (procedure : String) (place : SiteExpr)
deriving DecidableEq, Repr

namespace SiteExpr

def argument (place : SiteExpr) : String :=
  place.render "site"

def constants : SiteExpr → List String
  | shifted _ _ _ (.between target origin) => [target, origin]
  | _ => []

end SiteExpr

namespace Statement

def render : Statement → String
  | plain text => text
  | assign target value => s!"{target} = {value.render}"
  | verdict result terms =>
    let conditions := terms.map fun (place, species) =>
      s!"get_species({place.argument}) == {species}"
    result ++ " = " ++ " .and. ".intercalate conditions
  | replaceSpecies before after => s!"call replace_species(site, {before}, {after})"
  | addProcess process place => s!"call add_proc({process}, {place.argument})"
  | removeProcess process place =>
    s!"if(can_do({process}, {place.argument})) call del_proc({process}, {place.argument})"
  | selectSpecies place => s!"select case(get_species({place.argument}))"
  | select selector => s!"select case({selector})"
  | case constant => s!"case({constant})"
  | endSelect => "end select"
  | call procedure place => s!"call {procedure}({place.argument})"

def constants : Statement → List String
  | plain _ => []
  | assign _ _ => []
  | verdict _ terms => terms.flatMap fun (place, species) => species :: place.constants
  | replaceSpecies before after => [before, after]
  | addProcess process place => process :: place.constants
  | removeProcess process place => process :: place.constants
  | selectSpecies place => place.constants
  | select _ => []
  | case constant => [constant]
  | endSelect => []
  | call _ place => place.constants

end Statement

structure Nested where
  level : Nat
  statement : Statement
deriving DecidableEq, Repr

abbrev Body :=
  List Nested

namespace Body

def of (statements : List Statement) : Body :=
  statements.map (⟨0, ·⟩)

def indent (body : Body) : Body :=
  body.map fun nested => { nested with level := nested.level + 1 }

def code (body : Body) : Code :=
  body.map fun nested => ⟨nested.level, .statement nested.statement.render⟩

def branch (constant : String) (body : Body) : Body :=
  of [.case constant] ++ body.indent

end Body

inductive ProcedureKind where
  | subroutine
  | function
deriving DecidableEq, Repr

def ProcedureKind.render : ProcedureKind → String
  | .subroutine => "subroutine"
  | .function => "function"

structure Procedure where
  kind : ProcedureKind
  /-- What stands in front of the kind, with its space. -/
  modifier : String := ""
  name : String
  arguments : List String
  result : Option String := none
  declarations : List Declaration
  body : Body
deriving DecidableEq, Repr

namespace Procedure

def opening (p : Procedure) : String :=
  let head := s!"{p.modifier}{p.kind.render} {p.name}({commaList p.arguments})"
  match p.result with
  | some result => s!"{head} result({result})"
  | none => head

def closing (p : Procedure) : String :=
  s!"end {p.kind.render} {p.name}"

def code (p : Procedure) : Code :=
  Code.block p.opening p.closing (Code.statements (p.declarations.map (·.render)) ++ p.body.code)

def declared (p : Procedure) : List String :=
  p.arguments ++ p.result.toList ++ p.declarations.flatMap (·.names)

def constants (p : Procedure) : List String :=
  p.body.flatMap (·.statement.constants)

end Procedure

structure SourceModule where
  title : String
  fingerprint : UInt64
  name : String
  imports : List String
  declarations : Code
  procedures : List Procedure

namespace SourceModule

def header (s : SourceModule) : Code :=
  Code.comment s.title ++
    Code.comment s!"generated by {programName} {programVersion}, do not edit" ++
    Code.comment s!"model fingerprint: {hex16 s.fingerprint}" ++
    Code.blank

def code (s : SourceModule) : Code :=
  s.header ++ Code.block s!"module {s.name}" s!"end module {s.name}"
    (Code.statements (s.imports ++ ["implicit none"]) ++ Code.blank ++ s.declarations ++
      Code.blank ++ Code.statement "contains" ++
      s.procedures.flatMap fun p => Code.blank ++ p.code)

def render (s : SourceModule) (width : Nat) : String :=
  s.code.render width

end SourceModule
end Fortran
end LatticeKinetics
