import LatticeKinetics.Frame
import LatticeKinetics.Proofs.SiteTypes

/-! What framing keeps of a process. Its conditions and actions stay apart, speak of the same site
types and species, and the anchor comes to lie in the origin cell. -/

namespace LatticeKinetics

namespace Coordinate

theorem relativeTo_eq_ok {target origin framed : Coordinate} {table : ConversionTable}
    (h : target.relativeTo origin table = .ok framed) :
    ∃ shift, table.shift target.layer origin.layer = .ok shift ∧
      framed = target.withOffset
        (List.zipWith (· + ·) (List.zipWith (· - ·) target.offset origin.offset) shift) := by
  unfold relativeTo at h
  simp only [bind_eq_ok_iff, pure_eq_ok_iff] at h
  obtain ⟨shift, hshift, rfl⟩ := h
  exact ⟨shift, hshift, rfl⟩

end Coordinate

theorem ConversionTable.shift_eq_ok {table : ConversionTable} {source target : String}
    {shift : List Int} (h : table.shift source target = .ok shift) :
    shift = [0, 0, 0] ∨ ∃ e ∈ table.entries, e.shift = shift := by
  unfold ConversionTable.shift at h
  split at h
  · exact .inl (Except.ok.inj h).symm
  · split at h
    · rename_i s hs
      obtain rfl := Except.ok.inj h
      obtain ⟨e, he, rfl⟩ := Option.map_eq_some_iff.1 hs
      exact .inr ⟨e, List.mem_of_find?_eq_some he, rfl⟩
    · contradiction

theorem Model.Rules.dimension_le_shift {m : Model} (h : m.Rules) {source target : String}
    {shift : List Int} (hs : m.conversions.shift source target = .ok shift) :
    m.dimension ≤ shift.length := by
  rcases ConversionTable.shift_eq_ok hs with rfl | ⟨e, he, rfl⟩
  · exact h.dimension.2
  · exact Nat.le_of_eq (h.conversions e he).shift.symm

private theorem zipWith_sub_add_inj {xs ys os ss : List Int} (hx : xs.length = os.length)
    (hy : ys.length = os.length) (hs : os.length ≤ ss.length)
    (h : List.zipWith (· + ·) (List.zipWith (· - ·) xs os) ss =
      List.zipWith (· + ·) (List.zipWith (· - ·) ys os) ss) : xs = ys := by
  induction os generalizing xs ys ss with
  | nil => rw [List.length_eq_zero_iff.1 hx, List.length_eq_zero_iff.1 hy]
  | cons o os ih =>
    obtain ⟨x, xs, rfl⟩ := List.exists_cons_of_length_eq_add_one hx
    obtain ⟨y, ys, rfl⟩ := List.exists_cons_of_length_eq_add_one hy
    cases ss with
    | nil => simp at hs
    | cons s ss =>
      simp only [List.zipWith_cons_cons, List.cons.injEq, List.length_cons,
        Nat.add_right_cancel_iff, Nat.add_le_add_iff_right] at *
      exact ⟨by omega, ih hx hy hs h.2⟩

theorem Coordinate.relativeTo_inj {m : Model} (h : m.Rules) {a b origin framed : Coordinate}
    (hao : a.offset.length = m.dimension) (hbo : b.offset.length = m.dimension)
    (hoo : origin.offset.length = m.dimension)
    (ha : a.relativeTo origin m.conversions = .ok framed)
    (hb : b.relativeTo origin m.conversions = .ok framed) : a = b := by
  obtain ⟨s, hs, rfl⟩ := relativeTo_eq_ok ha
  obtain ⟨s', hs', heq⟩ := relativeTo_eq_ok hb
  unfold withOffset at heq
  simp only [Coordinate.mk.injEq] at heq
  obtain ⟨hoffset, hsite, hlayer⟩ := heq
  rw [hlayer] at hs
  obtain rfl := Except.ok.inj (hs.symm.trans hs')
  have hlength := h.dimension_le_shift hs
  have hoffsets := zipWith_sub_add_inj (by omega) (by omega) (by omega) hoffset
  obtain ⟨ao, asite, alayer⟩ := a
  obtain ⟨bo, bsite, blayer⟩ := b
  simp_all

theorem Model.Declares.framed {m : Model} (h : m.Rules) {p q : Placement} {origin : Coordinate}
    (hp : m.Declares p) (hoo : origin.offset.length = m.dimension)
    (hq : p.coord.relativeTo origin m.conversions = .ok q.coord)
    (hspecies : q.species = p.species) : m.Declares q := by
  obtain ⟨s, hs, heq⟩ := Coordinate.relativeTo_eq_ok hq
  have hlength := h.dimension_le_shift hs
  have hoffset := hp.offset
  refine ⟨?_, ?_, ?_⟩
  · rw [heq]
    simp only [Coordinate.withOffset, List.length_zipWith]
    omega
  · have hsite := hp.siteType
    unfold Model.HasSiteType at hsite ⊢
    rw [heq]
    exact hsite
  · rw [hspecies]
    exact hp.species

namespace Frame

theorem framePlacements_forall₂ {origin : Coordinate} {table : ConversionTable}
    {ps qs : List Placement} (h : framePlacements origin table ps = .ok qs) :
    List.Forall₂ (fun p q => p.coord.relativeTo origin table = .ok q.coord ∧
      q.species = p.species) ps qs := by
  have hstep := forall₂_of_traversal
    (fun p : Placement => do
      let coord ← p.coord.relativeTo origin table
      pure { p with coord })
    (framePlacements origin table) rfl
    (fun p ps => by
      rw [framePlacements]
      cases p.coord.relativeTo origin table <;> rfl)
    h
  apply hstep.imp
  intro p q hq
  simp only [bind_eq_ok_iff, pure_eq_ok_iff] at hq
  obtain ⟨coord, hcoord, rfl⟩ := hq
  exact ⟨hcoord, rfl⟩

theorem framePlacements_nodup {m : Model} (h : m.Rules) {origin : Coordinate}
    (hoo : origin.offset.length = m.dimension) {ps qs : List Placement}
    (hps : ∀ p ∈ ps, m.Declares p) (hapart : (ps.map (·.coord)).Nodup)
    (hframe : List.Forall₂ (fun p q => p.coord.relativeTo origin m.conversions = .ok q.coord ∧
      q.species = p.species) ps qs) : (qs.map (·.coord)).Nodup := by
  induction hframe with
  | nil => simp
  | @cons p q ps qs hpq hframe ih =>
    rw [List.map_cons, List.nodup_cons] at hapart ⊢
    refine ⟨?_, ih (fun p' h' => hps p' (List.mem_cons_of_mem _ h')) hapart.2⟩
    intro hmem
    obtain ⟨q', hq', heq⟩ := List.mem_map.1 hmem
    obtain ⟨p', hp', hpq', -⟩ := forall₂_mem hframe hq'
    rw [heq] at hpq'
    have hsame := Coordinate.relativeTo_inj h (hps p' (List.mem_cons_of_mem _ hp')).offset
      (hps p (by simp)).offset hoo hpq' hpq.1
    exact hapart.1 (List.mem_map.2 ⟨p', hp', hsame⟩)

structure FrameRules (m : Model) (f : Frame) : Prop where
  conditions : ∀ c ∈ f.conditions, m.Declares c
  conditionsApart : (f.conditions.map (·.coord)).Nodup
  actions : ∀ a ∈ f.actions, m.Declares a
  actionsApart : (f.actions.map (·.coord)).Nodup
  anchor : ∃ c, f.conditions[f.anchor]? = some c
  anchorOffset : f.anchorCoord.offset = List.replicate m.dimension 0

theorem coordAt_of_getElem? {f : Frame} {k : Nat} {c : Placement}
    (h : f.conditions[k]? = some c) : f.coordAt k = c.coord := by
  simp [coordAt, h]

theorem FrameRules.declares_anchor {m : Model} {f : Frame} (h : f.FrameRules m) :
    m.HasSiteType f.anchorCoord ∧ f.anchorCoord.offset.length = m.dimension := by
  obtain ⟨c, hc⟩ := h.anchor
  have hdeclares := h.conditions c (List.mem_of_getElem? hc)
  rw [anchorCoord, coordAt_of_getElem? hc]
  exact ⟨hdeclares.siteType, hdeclares.offset⟩

theorem offset_eq_replicate {c : Coordinate} (h : c.isAnchor = true) :
    c.offset = List.replicate c.offset.length 0 := by
  apply List.eq_replicate_iff.2
  refine ⟨rfl, ?_⟩
  intro x hx
  simpa using List.all_eq_true.1 h x hx

private theorem zipWith_zero_offset {n : Nat} (hn : n ≤ 3) :
    List.zipWith (· + ·) (List.zipWith (· - ·) (List.replicate n (0 : Int))
      (List.replicate n 0)) [0, 0, 0] = List.replicate n 0 := by
  obtain rfl | rfl | rfl | rfl : n = 0 ∨ n = 1 ∨ n = 2 ∨ n = 3 := by omega
  all_goals rfl

theorem anchor_getElem? {p : Process} {k : Nat} {anchor : Placement}
    (hk : p.conditions.findIdx? (·.coord.isAnchor) = some k) (ha : p.anchor? = some anchor) :
    p.conditions[k]? = some anchor ∧ anchor.coord.isAnchor = true := by
  unfold Process.anchor? at ha
  have hanchor := List.find?_some ha
  rw [List.find?_eq_bind_findIdx?_getElem?, hk, Option.bind_some] at ha
  exact ⟨ha, hanchor⟩

theorem ofProcess_eq_ok_iff {m : Model} {number : Nat} {p : Process} {f : Frame} :
    ofProcess m number p = .ok f ↔
      ∃ anchor, p.anchor? = some anchor ∧ f.number = number ∧ f.process = p ∧
        p.conditions.findIdx? (·.coord.isAnchor) = some f.anchor ∧
        framePlacements anchor.coord m.conversions p.conditions = .ok f.conditions ∧
        framePlacements anchor.coord m.conversions p.actions = .ok f.actions := by
  unfold ofProcess
  constructor
  · intro h
    split at h
    · rename_i k anchor hk hanchor
      simp only [bind_eq_ok_iff, mapError_eq_ok_iff, pure_eq_ok_iff] at h
      obtain ⟨conditions, hconditions, actions, hactions, rfl⟩ := h
      exact ⟨anchor, hanchor, rfl, rfl, hk, hconditions, hactions⟩
    · contradiction
  · rintro ⟨anchor, hanchor, rfl, rfl, hk, hconditions, hactions⟩
    rw [hanchor, hk]
    simp only [bind_eq_ok_iff, mapError_eq_ok_iff, pure_eq_ok_iff]
    exact ⟨f.conditions, hconditions, f.actions, hactions, rfl⟩

theorem ofProcess_rules {m : Model} (h : m.Rules) {number : Nat} {p : Process} {f : Frame}
    (hp : m.ProcessRules p) (hf : ofProcess m number p = .ok f) :
    f.number = number ∧ f.process = p ∧ f.FrameRules m := by
  obtain ⟨origin, horigin, hnumber, hprocess, hk, hconditions, hactions⟩ :=
    ofProcess_eq_ok_iff.1 hf
  obtain ⟨hget, hanchor⟩ := anchor_getElem? hk horigin
  have hmem := hp.conditions origin (List.mem_of_getElem? hget)
  have hoo := hmem.offset
  have hc := framePlacements_forall₂ hconditions
  have ha := framePlacements_forall₂ hactions
  refine ⟨hnumber, hprocess, ?_, framePlacements_nodup h hoo hp.conditions hp.conditionsApart hc,
    ?_, framePlacements_nodup h hoo (fun a ha => (hp.actions a ha).1) hp.actionsApart ha, ?_, ?_⟩
  · intro q hq
    obtain ⟨c, hcmem, hcq, hspecies⟩ := forall₂_mem hc hq
    exact (hp.conditions c hcmem).framed h hoo hcq hspecies
  · intro q hq
    obtain ⟨a, hamem, haq, hspecies⟩ := forall₂_mem ha hq
    exact (hp.actions a hamem).1.framed h hoo haq hspecies
  · obtain ⟨q, hq, -⟩ := forall₂_getElem? hc hget
    exact ⟨q, hq⟩
  · obtain ⟨q, hq, hrel, -⟩ := forall₂_getElem? hc hget
    obtain ⟨s, hs, heq⟩ := Coordinate.relativeTo_eq_ok hrel
    obtain rfl : s = [0, 0, 0] := by simpa [ConversionTable.shift] using hs.symm
    have hzero := offset_eq_replicate hanchor
    rw [hoo] at hzero
    rw [anchorCoord, coordAt_of_getElem? hq, heq, Coordinate.withOffset]
    dsimp only
    rw [hzero, zipWith_zero_offset h.dimension.2]

theorem number_ofProcess {m : Model} {number : Nat} {p : Process} {f : Frame}
    (h : ofProcess m number p = .ok f) : f.number = number := by
  obtain ⟨-, -, hnumber, -⟩ := ofProcess_eq_ok_iff.1 h
  exact hnumber

theorem ofProcesses_forall₂ {m : Model} {ps : List (Nat × Process)} {fs : List Frame}
    (h : ofProcesses m ps = .ok fs) :
    List.Forall₂ (fun p f => ofProcess m p.1 p.2 = .ok f) ps fs :=
  forall₂_of_traversal (fun p => ofProcess m p.1 p.2) (ofProcesses m) rfl (fun _ _ => rfl) h

end Frame

namespace Model

variable {m : Model} {frames : List Frame}

theorem numberedProcesses_getElem? (m : Model) (i : Nat) :
    m.numberedProcesses[i]? = m.processes[i]?.map fun p => (i + 1, p) := by
  unfold numberedProcesses
  rw [List.getElem?_map, List.getElem?_zipIdx]
  cases m.processes[i]? <;> simp

theorem frames_getElem? (h : m.Rules) (hf : m.frames = .ok frames) {i : Nat} {f : Frame}
    (hi : frames[i]? = some f) :
    ∃ p, m.processes[i]? = some p ∧ Frame.ofProcess m (i + 1) p = .ok f ∧
      f.number = i + 1 ∧ f.FrameRules m := by
  obtain ⟨np, hnp, hof⟩ := forall₂_getElem? (Frame.ofProcesses_forall₂ hf).flip hi
  rw [numberedProcesses_getElem?] at hnp
  obtain ⟨p, hp, rfl⟩ := Option.map_eq_some_iff.1 hnp
  obtain ⟨hnumber, -, hrules⟩ :=
    Frame.ofProcess_rules h (h.processes p (List.mem_of_getElem? hp)) hof
  exact ⟨p, hp, hof, hnumber, hrules⟩

theorem frameRules (h : m.Rules) (hf : m.frames = .ok frames) {f : Frame} (hmem : f ∈ frames) :
    f.FrameRules m := by
  obtain ⟨i, hi⟩ := List.getElem?_of_mem hmem
  obtain ⟨-, -, -, -, hrules⟩ := frames_getElem? h hf hi
  exact hrules

theorem frames_getElem?_number (h : m.Rules) (hf : m.frames = .ok frames) {f : Frame}
    (hmem : f ∈ frames) : 1 ≤ f.number ∧ frames[f.number - 1]? = some f := by
  obtain ⟨i, hi⟩ := List.getElem?_of_mem hmem
  obtain ⟨-, -, -, hnumber, -⟩ := frames_getElem? h hf hi
  rw [hnumber]
  exact ⟨by omega, hi⟩

theorem eq_of_number_eq (h : m.Rules) (hf : m.frames = .ok frames) {f g : Frame}
    (hfmem : f ∈ frames) (hgmem : g ∈ frames) (heq : f.number = g.number) : f = g := by
  have hfi := (frames_getElem?_number h hf hfmem).2
  have hgi := (frames_getElem?_number h hf hgmem).2
  rw [heq] at hfi
  exact Option.some.inj (hfi.symm.trans hgi)

theorem map_number_frames (hf : m.frames = .ok frames) :
    m.numberedProcesses.map (·.1) = frames.map (·.number) :=
  map_eq_map_of_forall₂ (Frame.ofProcesses_forall₂ hf)
    fun _ _ h => (Frame.number_ofProcess h).symm

theorem map_number_frames_nodup (hf : m.frames = .ok frames) :
    (frames.map (·.number)).Nodup := by
  rw [← map_number_frames hf]
  unfold numberedProcesses
  rw [List.map_map]
  have hindices : (m.processes.zipIdx.map fun p => p.2 + 1) =
      (List.range' 0 m.processes.length).map (· + 1) := by
    rw [← List.zipIdx_map_snd 0 m.processes, List.map_map]
    rfl
  exact hindices ▸ (List.nodup_range' ..).map fun a b h => by omega

end Model
end LatticeKinetics
