import Mathlib.Data.Option.Basic
import LatticeKinetics.Proofs.Compilation
import LatticeKinetics.Proofs.WellFormedDrafts
import LatticeKinetics.Samples

/-! What a frame keeps of its process. Layers are shifted against each other, but all coordinates of
one layer are shifted alike, so different coordinates stay different and a condition and an action
that meet still do. The species that an action is compared with is therefore the declared one. -/

namespace LatticeKinetics

def Model.Reads (m : Model) (origin : Coordinate) (p q : Placement) : Prop :=
  p.coord.relativeTo origin m.conversions = .ok q.coord ∧ q.species = p.species

def Process.requiredAt (p : Process) (coord : Coordinate) : String :=
  ((p.conditionAt? coord).map (·.species)).getD ""

/-- The action `a'` of the frame meets the image of the condition that the process declares where it
declares `a`. -/
def Frame.Meets (f : Frame) (m : Model) (p : Process) (origin : Coordinate) (a a' : Placement) :
    Prop :=
  ∃ c c', p.conditionAt? a.coord = some c ∧ f.conditionAt? a'.coord = some c' ∧
    m.Reads origin c c'

/-- The frame is the process as it is read from its first condition in the origin cell. -/
structure Frame.Keeps (f : Frame) (m : Model) (p : Process) (origin : Placement) : Prop where
  first : Draft.IsAnchor p origin
  place : p.conditions[f.anchor]? = some origin
  anchor : origin.coord.relativeTo origin.coord m.conversions = .ok f.anchorCoord
  anchorOffset : f.anchorCoord.offset = List.replicate m.dimension 0
  conditions : List.Forall₂ (m.Reads origin.coord) p.conditions f.conditions
  conditionsApart : (f.conditions.map (·.coord)).Nodup
  conditionsOffset : ∀ c ∈ f.conditions, c.coord.offset.length = m.dimension
  actions : List.Forall₂ (m.Reads origin.coord) p.actions f.actions
  met : List.Forall₂ (f.Meets m p origin.coord) p.actions f.actions
  /-- Each action is compared with the species declared where it is declared itself. -/
  dispatch : f.dispatch m.defaultSpecies = .ok {
    process := f.number
    name := p.name
    anchor := f.anchorCoord
    steps := (List.zipWith (fun a a' => Frame.actionSteps m.defaultSpecies a'
      (p.requiredAt a.coord)) p.actions f.actions).flatten }

variable {m : Model} {origin : Coordinate}

/-- Looking up the image of a coordinate among images finds the image of what is found there. -/
theorem Model.Rules.find?_reads (h : m.Rules) (horigin : origin.offset.length = m.dimension)
    {ps qs : List Placement} (hps : ∀ p ∈ ps, p.coord.offset.length = m.dimension)
    (hreads : List.Forall₂ (m.Reads origin) ps qs) {coord seen : Coordinate}
    (hcoord : coord.offset.length = m.dimension)
    (hseen : coord.relativeTo origin m.conversions = .ok seen) :
    Option.Rel (m.Reads origin) (ps.find? (·.coord == coord)) (qs.find? (·.coord == seen)) := by
  induction hreads with
  | nil => exact .none
  | @cons p q ps qs hpq hreads ih =>
    obtain ⟨hp, hps⟩ := List.forall_mem_cons.1 hps
    have hsame : q.coord = seen ↔ p.coord = coord := by
      constructor
      · rintro rfl
        exact Coordinate.relativeTo_inj h hp hcoord horigin hpq.1 hseen
      · rintro rfl
        exact Except.ok.inj (hpq.1.symm.trans hseen)
    by_cases hmet : p.coord = coord
    · rw [List.find?_cons_of_pos (by simpa using hmet),
        List.find?_cons_of_pos (by simpa using hsame.2 hmet)]
      exact .some hpq
    · rw [List.find?_cons_of_neg (by simpa using hmet),
        List.find?_cons_of_neg (by simpa using mt hsame.1 hmet)]
      exact ih hps

namespace Frame

variable {f : Frame} {p : Process}

theorem meets_of_reads (h : m.Rules) (hp : m.ProcessRules p)
    (horigin : origin.offset.length = m.dimension)
    (hreads : List.Forall₂ (m.Reads origin) p.conditions f.conditions) {a a' : Placement}
    (ha : m.Declares a ∧ ∃ c ∈ p.conditions, c.coord = a.coord) (hread : m.Reads origin a a') :
    f.Meets m p origin a a' := by
  obtain ⟨hdeclares, c₀, hc₀, hcoord⟩ := ha
  have hsome : (p.conditionAt? a.coord).isSome = true :=
    List.find?_isSome.2 ⟨c₀, hc₀, by simp [hcoord]⟩
  obtain ⟨c, hc⟩ := Option.isSome_iff_exists.1 hsome
  have hrel : Option.Rel (m.Reads origin) (p.conditionAt? a.coord) (f.conditionAt? a'.coord) :=
    h.find?_reads horigin (fun c hc => (hp.conditions c hc).offset) hreads hdeclares.offset
      hread.1
  rw [hc] at hrel
  generalize hc' : f.conditionAt? a'.coord = found at hrel
  cases hrel with
  | some hreads => exact ⟨c, _, hc, hc', hreads⟩

theorem steps_eq_ok_of_met {defaultSpecies : String} {actions framed : List Placement}
    (h : List.Forall₂ (f.Meets m p origin) actions framed) :
    f.steps defaultSpecies framed = .ok (List.zipWith (fun a a' =>
      actionSteps defaultSpecies a' (p.requiredAt a.coord)) actions framed).flatten := by
  induction h with
  | nil => rfl
  | @cons a a' _ _ hmet _ ih =>
    obtain ⟨c, c', hc, hc', -, hspecies⟩ := hmet
    have hrequired : p.requiredAt a.coord = c'.species := by
      rw [Process.requiredAt, hc, hspecies]
      rfl
    rw [steps, hc', ih, List.zipWith_cons_cons, List.flatten_cons, hrequired]
    rfl

theorem exists_keeps_of_ofProcess (h : m.Rules) {number : Nat} (hp : m.ProcessRules p)
    (hf : ofProcess m number p = .ok f) : ∃ origin, f.Keeps m p origin := by
  obtain ⟨origin, horigin, -, hprocess, hk, hconditions, hactions⟩ :=
    ofProcess_eq_ok_iff.1 hf
  obtain ⟨-, -, hrules⟩ := ofProcess_rules h hp hf
  obtain ⟨hplace, -⟩ := anchor_getElem? hk horigin
  have hoffset := (hp.conditions origin (List.mem_of_getElem? hplace)).offset
  have hreads : List.Forall₂ (m.Reads origin.coord) p.conditions f.conditions :=
    framePlacements_forall₂ hconditions
  have hacts : List.Forall₂ (m.Reads origin.coord) p.actions f.actions :=
    framePlacements_forall₂ hactions
  have hmet : List.Forall₂ (f.Meets m p origin.coord) p.actions f.actions :=
    ((List.forall₂_and_left _ _).2 ⟨hp.actions, hacts⟩).imp fun _ _ ⟨ha, hread⟩ =>
      meets_of_reads h hp hoffset hreads ha hread
  refine ⟨origin, Draft.anchor?_eq_some_iff.1 horigin, hplace, ?_, hrules.anchorOffset, hreads,
    hrules.conditionsApart, fun c hc => (hrules.conditions c hc).offset, hacts, hmet, ?_⟩
  · obtain ⟨a, ha, hread⟩ := forall₂_getElem? hreads hplace
    rw [anchorCoord, coordAt_of_getElem? ha]
    exact hread.1
  · rw [dispatch, steps_eq_ok_of_met hmet, hprocess]
    rfl

end Frame

/-- Every process of a valid model can be framed, under any number. The anchor lies in the origin
cell, conditions stay apart, and every action meets the image of the condition it was declared with,
so that it is carried out against the species declared there. -/
theorem framing_keeps_process {d : Draft} {m : Model} (hd : d.build = .ok m) {p : Process}
    (hp : p ∈ m.processes) (number : Nat) :
    ∃ f origin, Frame.ofProcess m number p = .ok f ∧ f.number = number ∧ f.process = p ∧
      f.Keeps m p origin := by
  obtain ⟨hrules, -⟩ := Draft.build_eq_ok hd
  have hprocess := hrules.processes p hp
  obtain ⟨f, hf⟩ := Frame.exists_ofProcess_eq_ok hprocess number
  obtain ⟨hnumber, hframed, -⟩ := Frame.ofProcess_rules hrules hprocess hf
  obtain ⟨origin, hkeeps⟩ := Frame.exists_keeps_of_ofProcess hrules hprocess hf
  exact ⟨f, origin, hf, hnumber, hframed, hkeeps⟩

def Samples.swingingChain : Draft :=
  { twoLayerChain with
    processes := [process "swing" "k_swing"
      [(top 1, "empty"), (bottom 0, "A"), (top 0, "A")] [(top 0, "empty"), (top 1, "A")]] }

/-- Both conditions of the upper layer move by one cell, also the one in the origin cell. -/
theorem framing_keeps_swinging_process :
    ∃ m p f origin, Samples.swingingChain.build = .ok m ∧ m.processes = [p] ∧
      Frame.ofProcess m 1 p = .ok f ∧ f.anchor = 1 ∧
      f.conditions.map (·.coord.offset) = [[2], [0], [1]] ∧ f.Keeps m p origin := by
  have h : (do
      let m ← Samples.swingingChain.build.toOption
      let p ← m.processes.head?
      let f ← (Frame.ofProcess m 1 p).toOption
      guard (m.processes = [p] ∧ f.anchor = 1 ∧
        f.conditions.map (·.coord.offset) = [[2], [0], [1]])) = some () := by
    decide +kernel
  simp only [Option.bind_eq_bind, Option.bind_eq_some_iff, toOption_eq_some_iff,
    Option.guard_eq_some'] at h
  obtain ⟨m, hm, p, hp, f, hf, hprocesses, hanchor, hoffsets⟩ := h
  obtain ⟨f', origin, hf', -, -, hkeeps⟩ :=
    framing_keeps_process hm (List.mem_of_head? hp) 1
  obtain rfl := Except.ok.inj (hf.symm.trans hf')
  exact ⟨m, p, f, origin, hm, hprocesses, hf, hanchor, hoffsets, hkeeps⟩

end LatticeKinetics
