import LatticeKinetics.Plan.Basic
import LatticeKinetics.Text.Number

/-! What a plan amounts to: how many processes each update can enable and disable, and how many
queries that takes. -/

namespace LatticeKinetics

structure UpdateStats where
  event : Event
  enables : Nat
  disables : Nat
  queries : Nat
  depth : Nat
deriving DecidableEq, Repr

structure TouchupStats where
  procedure : String
  processes : Nat
  queries : Nat
deriving DecidableEq, Repr

structure Report where
  fingerprint : UInt64
  processes : Nat
  sitesPerCell : Nat
  events : List UpdateStats
  touchups : List TouchupStats
deriving DecidableEq, Repr

def Update.stats (u : Update) : UpdateStats :=
  { event := u.event
    enables := u.tree.payloads.countP (·.isEnable)
    disables := u.tree.payloads.countP (!·.isEnable)
    queries := u.tree.queryCount
    depth := u.tree.depth }

def Touchup.stats (t : Touchup) : TouchupStats :=
  { procedure := t.name, processes := t.removals.length, queries := t.tree.queryCount }

def Plan.report (p : Plan) : Report :=
  { fingerprint := p.fingerprint
    processes := p.dispatch.length
    sitesPerCell := p.formula.sitesPerCell
    events := p.updates.map (·.stats)
    touchups := p.touchups.map (·.stats) }

namespace Report

open Text

def totalQueries (r : Report) : Nat :=
  (r.events.map (·.queries) ++ r.touchups.map (·.queries)).foldl (· + ·) 0

def idleEvents (r : Report) : List UpdateStats :=
  r.events.filter fun e => e.enables == 0 && e.disables == 0

def row (name : String) (columns : List (Nat × String)) : String :=
  String.join (padRight 40 name :: columns.map fun (width, text) => " " ++ padLeft width text)

def eventRow (name enables disables queries depth : String) : String :=
  row name [(8, enables), (8, disables), (8, queries), (6, depth)]

def touchupRow (name processes queries : String) : String :=
  row name [(8, processes), (8, queries)]

def lines (r : Report) : List String :=
  [s!"model fingerprint: {hex16 r.fingerprint}",
    s!"processes: {r.processes}, sites per unit cell: {r.sitesPerCell}",
    "",
    eventRow "procedure" "enable" "disable" "queries" "depth"] ++
    r.events.map (fun e => eventRow e.event.procedureName (toString e.enables)
      (toString e.disables) (toString e.queries) (toString e.depth)) ++
    ["", touchupRow "procedure" "procs" "queries"] ++
    r.touchups.map (fun t =>
      touchupRow t.procedure (toString t.processes) (toString t.queries)) ++
    [s!"total queries: {r.totalQueries}"]

def render (r : Report) : String :=
  "\n".intercalate r.lines

end Report
end LatticeKinetics
