import LatticeKinetics.Coordinate.Basic

/-! A decision tree asks which species sit at coordinates around a site and fires payloads. It is a
sequence of steps: a payload fires at once, and a query runs the one arm whose species was found, or
none, before the sequence goes on. -/

namespace LatticeKinetics

mutual

inductive Tree (α : Type) where
  | done
  | fire (payload : α) (rest : Tree α)
  | query (coord : Coordinate) (arms : Arms α) (rest : Tree α)

inductive Arms (α : Type) where
  | none
  | case (species : String) (body : Tree α) (others : Arms α)

end

variable {α : Type}

def Arms.ofList : List (String × Tree α) → Arms α
  | [] => .none
  | (species, body) :: others => .case species body (ofList others)

def Tree.fireAll : List α → Tree α → Tree α
  | [], rest => rest
  | payload :: payloads, rest => .fire payload (fireAll payloads rest)

def Tree.isEmpty : Tree α → Bool
  | .done => true
  | _ => false

mutual

def Tree.fired (occupant : Coordinate → String) : Tree α → List α
  | .done => []
  | .fire payload rest => payload :: rest.fired occupant
  | .query coord arms rest => arms.fired occupant (occupant coord) ++ rest.fired occupant

def Arms.fired (occupant : Coordinate → String) : Arms α → String → List α
  | .none, _ => []
  | .case species body others, found =>
    if species = found then body.fired occupant else others.fired occupant found

end

mutual

def Tree.asked (occupant : Coordinate → String) : Tree α → List Coordinate
  | .done => []
  | .fire _ rest => rest.asked occupant
  | .query coord arms rest =>
    coord :: (arms.asked occupant (occupant coord) ++ rest.asked occupant)

def Arms.asked (occupant : Coordinate → String) : Arms α → String → List Coordinate
  | .none, _ => []
  | .case species body others, found =>
    if species = found then body.asked occupant else others.asked occupant found

end

mutual

/-- All payloads, each before those further on and further in. -/
def Tree.payloads : Tree α → List α
  | .done => []
  | .fire payload rest => payload :: rest.payloads
  | .query _ arms rest => arms.payloads ++ rest.payloads

def Arms.payloads : Arms α → List α
  | .none => []
  | .case _ body others => body.payloads ++ others.payloads

end

mutual

def Tree.queries : Tree α → List Coordinate
  | .done => []
  | .fire _ rest => rest.queries
  | .query coord arms rest => coord :: (arms.queries ++ rest.queries)

def Arms.queries : Arms α → List Coordinate
  | .none => []
  | .case _ body others => body.queries ++ others.queries

end

mutual

/-- The number of queries inside one another. -/
def Tree.depth : Tree α → Nat
  | .done => 0
  | .fire _ rest => rest.depth
  | .query _ arms rest => max (1 + arms.depth) rest.depth

def Arms.depth : Arms α → Nat
  | .none => 0
  | .case _ body others => max body.depth others.depth

end

def Tree.queryCount (t : Tree α) : Nat :=
  t.queries.length

def Tree.fireCount (t : Tree α) : Nat :=
  t.payloads.length

@[simp] theorem Tree.fired_fireAll (occupant : Coordinate → String) (payloads : List α)
    (rest : Tree α) :
    (Tree.fireAll payloads rest).fired occupant = payloads ++ rest.fired occupant := by
  induction payloads with
  | nil => rfl
  | cons p ps ih => simp [Tree.fireAll, Tree.fired, ih]

@[simp] theorem Tree.asked_fireAll (occupant : Coordinate → String) (payloads : List α)
    (rest : Tree α) : (Tree.fireAll payloads rest).asked occupant = rest.asked occupant := by
  induction payloads with
  | nil => rfl
  | cons p ps ih => simp [Tree.fireAll, Tree.asked, ih]

@[simp] theorem Tree.payloads_fireAll (payloads : List α) (rest : Tree α) :
    (Tree.fireAll payloads rest).payloads = payloads ++ rest.payloads := by
  induction payloads with
  | nil => rfl
  | cons p ps ih => simp [Tree.fireAll, Tree.payloads, ih]

@[simp] theorem Tree.queries_fireAll (payloads : List α) (rest : Tree α) :
    (Tree.fireAll payloads rest).queries = rest.queries := by
  induction payloads with
  | nil => rfl
  | cons p ps ih => simp [Tree.fireAll, Tree.queries, ih]

@[simp] theorem Tree.depth_fireAll (payloads : List α) (rest : Tree α) :
    (Tree.fireAll payloads rest).depth = rest.depth := by
  induction payloads with
  | nil => rfl
  | cons p ps ih => simp [Tree.fireAll, Tree.depth, ih]

end LatticeKinetics
