import LatticeKinetics.Proofs.Compilation
import LatticeKinetics.Samples

/-! The names of the generated code. They can be listed before anything is compiled, and a model
that was built fails to compile exactly when two of them meet; the first name that meets an earlier
one is reported, with what both stand for. -/

namespace LatticeKinetics

open Text

/-- One check starts from the anchor, and one from each other condition, by its number. -/
def Process.checkNames (p : Process) : List String :=
  s!"check_{p.name}" ::
    ((List.range p.conditions.length).filter
      fun k => p.conditions.findIdx? (·.coord.isAnchor) != some k).map
        fun k => s!"check_{p.name}_{k + 1}"

def Model.generatedNames (m : Model) : List (String × Owner) :=
  Plan.runtimeNames.map (fun name => (name, Owner.runtime)) ++
    m.species.map (fun s => (s, Owner.species s)) ++
    m.layers.map (fun l => (l.name, Owner.layer l.name)) ++
    m.siteTypes.map (fun t => (Model.siteConstant t.1 t.2, Owner.site t.1 t.2)) ++
    m.processes.map (fun p => (p.name, Owner.process p.name)) ++
    (m.processes.flatMap (·.checkNames)).map (fun name => (name, Owner.check)) ++
    m.events.map (fun e => (e.procedureName, Owner.update e)) ++
    m.siteTypes.map (fun t => (s!"touchup_{Model.siteConstant t.1 t.2}", Owner.touchup))

def folded (entry : String × Owner) : String :=
  foldCase entry.1

/-- All names before this one differ, and this one is the same as one of them. -/
def FirstCollision (entries : List (String × Owner)) (name : String) (first second : Owner) :
    Prop :=
  ∃ earlier later other, entries = earlier ++ (name, second) :: later ∧
    (earlier.map folded).Nodup ∧ (other, first) ∈ earlier ∧ foldCase other = foldCase name

namespace Plan

def takenBy (entries : List (String × Owner)) : List (String × Owner) :=
  (entries.map fun entry => (folded entry, entry.2)).reverse

theorem takenBy_append_singleton (entries : List (String × Owner)) (name : String)
    (owner : Owner) :
    takenBy (entries ++ [(name, owner)]) = (foldCase name, owner) :: takenBy entries := by
  simp [takenBy, folded]

theorem mem_takenBy {entries : List (String × Owner)} {key : String} {owner : Owner} :
    (key, owner) ∈ takenBy entries ↔ ∃ name, (name, owner) ∈ entries ∧ foldCase name = key := by
  simp [takenBy, folded]

theorem lookup_takenBy {entries : List (String × Owner)} {key : String} {first : Owner}
    (h : (takenBy entries).lookup key = some first) :
    ∃ other, (other, first) ∈ entries ∧ foldCase other = key := by
  obtain ⟨before, after, hsplit, -⟩ := List.lookup_eq_some_iff.1 h
  exact mem_takenBy.1 (hsplit ▸ by simp)

theorem lookup_takenBy_eq_none_iff {entries : List (String × Owner)} {key : String} :
    (takenBy entries).lookup key = none ↔ key ∉ entries.map folded := by
  rw [List.lookup_eq_none_iff]
  constructor
  · rintro h hmem
    obtain ⟨⟨name, owner⟩, hentry, rfl⟩ := List.mem_map.1 hmem
    simpa [folded] using h _ (mem_takenBy.2 ⟨name, hentry, rfl⟩)
  · rintro h ⟨taken, owner⟩ hmem
    obtain ⟨name, hentry, rfl⟩ := mem_takenBy.1 hmem
    have hne : key ≠ foldCase name := by
      rintro rfl
      exact h (List.mem_map.2 ⟨_, hentry, rfl⟩)
    simpa using hne

/-- Claiming goes on as long as no name meets one of those `seen` so far. -/
theorem checkClaims_takenBy (seen entries : List (String × Owner))
    (hseen : (seen.map folded).Nodup) :
    (checkClaims (takenBy seen) entries = .ok () ∧ ((seen ++ entries).map folded).Nodup) ∨
      ∃ name first second, checkClaims (takenBy seen) entries =
        .error (.nameCollision name first second) ∧
        FirstCollision (seen ++ entries) name first second := by
  induction entries generalizing seen with
  | nil => exact .inl ⟨rfl, by simpa using hseen⟩
  | cons entry entries ih =>
    obtain ⟨name, owner⟩ := entry
    unfold checkClaims
    cases hlookup : (takenBy seen).lookup (foldCase name) with
    | some first =>
      obtain ⟨other, hother, hfold⟩ := lookup_takenBy hlookup
      exact .inr ⟨name, first, owner, rfl, seen, entries, other, rfl, hseen, hother, hfold⟩
    | none =>
      have hnew : foldCase name ∉ seen.map folded := lookup_takenBy_eq_none_iff.1 hlookup
      have hseen' : ((seen ++ [(name, owner)]).map folded).Nodup := by
        rw [List.map_append, List.nodup_append_comm]
        exact List.nodup_cons.2 ⟨hnew, hseen⟩
      have hrest := ih _ hseen'
      rw [takenBy_append_singleton, List.append_assoc, List.singleton_append] at hrest
      exact hrest

end Plan

theorem FirstCollision.not_nodup {entries : List (String × Owner)} {name : String}
    {first second : Owner} (h : FirstCollision entries name first second) :
    ¬(entries.map folded).Nodup := by
  obtain ⟨earlier, later, other, rfl, -, hother, hfold⟩ := h
  rw [List.map_append, List.map_cons, List.nodup_append]
  rintro ⟨-, -, hapart⟩
  exact hapart _ (List.mem_map_of_mem hother) _ List.mem_cons_self hfold

namespace Frame

theorem map_name_checks {m : Model} {number : Nat} {p : Process} {f : Frame}
    (h : ofProcess m number p = .ok f) : f.checks.map (·.name) = p.checkNames := by
  obtain ⟨anchor, -, -, rfl, hanchor, hconditions, -⟩ := ofProcess_eq_ok_iff.1 h
  have hlength := (framePlacements_forall₂ hconditions).length_eq
  unfold checks Process.checkNames
  rw [hanchor, hlength, List.map_cons, List.map_map]
  congr 2
  apply List.filter_congr
  intro k _
  simp [bne, eq_comm]

end Frame

namespace Model

variable {m : Model} {frames : List Frame}

theorem flatMap_checkNames (hf : m.frames = .ok frames) :
    m.processes.flatMap (·.checkNames) = (frames.flatMap (·.checks)).map (·.name) := by
  have hprocesses : m.processes = m.numberedProcesses.map (·.2) := by
    simp [numberedProcesses, Function.comp_def]
  rw [hprocesses, List.flatMap_map, List.map_flatMap, List.flatMap_def, List.flatMap_def]
  congr 1
  exact map_eq_map_of_forall₂ (Frame.ofProcesses_forall₂ hf)
    fun _ _ h => (Frame.map_name_checks h).symm

theorem map_event_classifyWith {cs : List Classification} (h : m.classifyWith frames = .ok cs) :
    m.events = cs.map (·.event) := by
  have hevents : m.events.map id = cs.map (·.event) :=
    map_eq_map_of_forall₂ (Classification.ofEvents_forall₂ h)
      fun _ _ hc => (Classification.ofEvent_eq_ok hc).1.symm
  simpa using hevents

end Model

theorem Plan.CompiledFrom.claims_eq {p : Plan} {m : Model} {frames : List Frame}
    (h : p.CompiledFrom m frames) (hf : m.frames = .ok frames) :
    p.claims m = m.generatedNames := by
  obtain ⟨cs, hcs, hupdates⟩ := h.updates
  unfold claims Model.generatedNames
  rw [h.sites, h.checks, hupdates, h.touchups, ← Model.map_sites, Model.flatMap_checkNames hf,
    Model.map_event_classifyWith hcs]
  simp only [Model.siteConstants, List.map_map]
  rfl

/-- A model that was built compiles exactly when no two names of its generated code are one when
case does not count. It fails to compile for no other reason, and then the first name that meets an
earlier one is reported. -/
theorem compile_fails_exactly_at_first_collision {d : Draft} {m : Model} (h : d.build = .ok m) :
    (∀ plan, m.compile = .ok plan → plan.claims m = m.generatedNames) ∧
      ((∃ plan, m.compile = .ok plan) ↔ (m.generatedNames.map folded).Nodup) ∧
      ∀ cause, m.compile = .error cause → ∃ name first second,
        cause = .nameCollision name first second ∧
          FirstCollision m.generatedNames name first second := by
  obtain ⟨hrules, -⟩ := Draft.build_eq_ok h
  obtain ⟨frames, plan, hframes, hplan, hcompile⟩ := hrules.compile_eq
  have hclaims := hplan.claims_eq hframes
  rw [hclaims] at hcompile
  have hplans : ∀ other, m.compile = .ok other → other.claims m = m.generatedNames := by
    intro other hother
    obtain ⟨frames', hframes', hother⟩ := Model.compile_eq_ok hother
    exact hother.claims_eq hframes'
  refine ⟨hplans, ?_⟩
  -- Nothing is taken before the first name.
  rcases Plan.checkClaims_takenBy [] m.generatedNames List.nodup_nil with
    ⟨hok, hnodup⟩ | ⟨name, first, second, herror, hfirst⟩
  · have hcompiled : m.compile = .ok plan := hcompile.trans (congrArg _ hok)
    rw [hcompiled]
    refine ⟨⟨fun _ => hnodup, fun _ => ⟨plan, rfl⟩⟩, ?_⟩
    intro cause hcause
    cases hcause
  · have hfailed : m.compile = .error (.nameCollision name first second) :=
      hcompile.trans (congrArg _ herror)
    rw [hfailed]
    refine ⟨⟨nofun, fun hnodup => absurd hnodup hfirst.not_nodup⟩, ?_⟩
    rintro cause hcause
    obtain rfl := Except.error.inj hcause
    exact ⟨name, first, second, rfl, hfirst⟩

/-- Species, layers and sites have names of their own, but joined they can be the same. -/
def overlappingNames : Draft where
  dimension := 1
  species := ["empty", "A", "A_b"]
  layers := [
    { name := "b_C", sites := [{ name := "s" }] },
    { name := "c", sites := [{ name := "s" }] }]
  processes := [Samples.adsorb "adsorb" ⟨[0], "s", "c"⟩ "A_b" "k"]

/-- Putting `A` on the site of `b_C` and putting `A_b` on the site of `c` have one name. -/
theorem compile_reports_overlapping_updates :
    ∃ m, overlappingNames.build = .ok m ∧
      m.compile = .error (.nameCollision "put_A_b_c_s" (.update ⟨.put, "A", "b_C", "s"⟩)
        (.update ⟨.put, "A_b", "c", "s"⟩)) ∧
      FirstCollision m.generatedNames "put_A_b_c_s" (.update ⟨.put, "A", "b_C", "s"⟩)
        (.update ⟨.put, "A_b", "c", "s"⟩) := by
  have h : (overlappingNames.build.toOption.map fun m => m.compile.map fun _ => ()) =
      some (.error (.nameCollision "put_A_b_c_s" (.update ⟨.put, "A", "b_C", "s"⟩)
        (.update ⟨.put, "A_b", "c", "s"⟩))) := by
    decide +kernel
  obtain ⟨m, hm, hcompile⟩ := Option.map_eq_some_iff.1 h
  rw [toOption_eq_some_iff] at hm
  have herror := map_eq_error_iff.1 hcompile
  obtain ⟨-, -, hfirst⟩ := compile_fails_exactly_at_first_collision hm
  obtain ⟨name, first, second, hcause, hcollision⟩ := hfirst _ herror
  obtain ⟨rfl, rfl, rfl⟩ := CompileError.nameCollision.inj hcause
  exact ⟨m, hm, herror, hcollision⟩

end LatticeKinetics
