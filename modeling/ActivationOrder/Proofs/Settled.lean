import Mathlib.Data.List.Basic
import Mathlib.Logic.Relation
import ActivationOrder.Proofs.DepthFirst

/-!
What a sort gives. An order is `Settled` when each of its units came in after everything that has to
stand before it; a visit continues a settled order with just what the visited unit waits for, and
then the unit. So after some roots the order holds these roots and all that has to stand before
them, and nothing else: constraints are respected, and priority is given up for them alone. A visit
that fails has come back to a unit on its path, and the path leads from there to the unit that was
being visited, so what it reports lies on a cycle of the declarations.
-/

open Relation (TransGen ReflTransGen)

namespace ActivationOrder

variable {metadata : UnitId → Metadata} {batch : UnitSet}

/-- An order of some units of a batch, put together from its first unit to its last: each unit is
new, and everything that has to stand before it is there already. -/
inductive Settled (metadata : UnitId → Metadata) (batch : UnitSet) : List UnitId → Prop
  | nil : Settled metadata batch []
  | snoc {order : List UnitId} {unit : UnitId} (settled : Settled metadata batch order)
      (mem : unit ∈ batch) (fresh : unit ∉ order)
      (closed : ∀ earlier, Precedes metadata batch earlier unit → earlier ∈ order) :
      Settled metadata batch (order ++ [unit])

namespace Settled

variable {order : List UnitId} {a b : UnitId}

theorem nodup (h : Settled metadata batch order) : order.Nodup := by
  induction h with
  | nil => exact List.nodup_nil
  | snoc _ _ hfresh _ ih =>
    exact ih.append (List.nodup_singleton _) (List.disjoint_singleton.mpr hfresh)

theorem mem_batch (h : Settled metadata batch order) (ha : a ∈ order) : a ∈ batch := by
  induction h with
  | nil => cases ha
  | snoc _ hmem _ _ ih =>
    rcases List.mem_append.mp ha with ha | ha
    · exact ih ha
    · exact List.mem_singleton.mp ha ▸ hmem

/-- What has to stand before a unit of the order stands before it. -/
theorem idxOf_lt (h : Settled metadata batch order) (ha : a ∈ order)
    (hba : Precedes metadata batch b a) : b ∈ order ∧ order.idxOf b < order.idxOf a := by
  induction h with
  | nil => cases ha
  | @snoc order unit _ _ hfresh hclosed ih =>
    by_cases hmem : a ∈ order
    · obtain ⟨hb, hlt⟩ := ih hmem
      refine ⟨List.mem_append_left _ hb, ?_⟩
      rwa [List.idxOf_append_of_mem hb, List.idxOf_append_of_mem hmem]
    · obtain rfl : a = unit := by simpa [hmem] using ha
      have hb : b ∈ order := hclosed b hba
      refine ⟨List.mem_append_left _ hb, ?_⟩
      rw [List.idxOf_append_of_mem hb, List.idxOf_append_of_notMem hfresh]
      exact Nat.lt_add_right _ (List.idxOf_lt_length_of_mem hb)

theorem idxOf_lt_of_transGen (h : Settled metadata batch order) (ha : a ∈ order)
    (hba : TransGen (Precedes metadata batch) b a) :
    b ∈ order ∧ order.idxOf b < order.idxOf a := by
  induction hba using TransGen.head_induction_on with
  | single hba => exact h.idxOf_lt ha hba
  | head hcb _ ih =>
    obtain ⟨hc, hlt⟩ := h.idxOf_lt ih.1 hcb
    exact ⟨hc, Nat.lt_trans hlt ih.2⟩

/-- A settled order holds everything that its units wait for. -/
theorem mem_of_reflTransGen (h : Settled metadata batch order) (ha : a ∈ order)
    (hba : ReflTransGen (Precedes metadata batch) b a) : b ∈ order := by
  rcases Relation.reflTransGen_iff_eq_or_transGen.mp hba with rfl | hba
  · exact ha
  · exact (h.idxOf_lt_of_transGen ha hba).1

end Settled

/-! ### What a visit adds -/

/-- What visiting the predecessors of a unit makes of an order: it stays settled, goes on with units
that have to stand before the unit, and leaves out the units on the path. -/
structure Extends (metadata : UnitId → Metadata) (batch path : UnitSet) (unit : UnitId)
    (order after : List UnitId) : Prop where
  settled : Settled metadata batch after
  added : ∃ new, after = order ++ new ∧ ∀ x ∈ new, TransGen (Precedes metadata batch) x unit
  offPath : ∀ x ∈ path, x ∉ after

namespace Extends

variable {path : UnitSet} {unit candidate : UnitId} {order mid after : List UnitId}

theorem refl (h : Settled metadata batch order) (hpath : ∀ x ∈ path, x ∉ order) :
    Extends metadata batch path unit order order :=
  ⟨h, ⟨[], by simp, by simp⟩, hpath⟩

theorem subset (h : Extends metadata batch path unit order after) : order ⊆ after := by
  obtain ⟨new, rfl, -⟩ := h.added
  exact List.subset_append_left order new

theorem trans (h : Extends metadata batch path unit order mid)
    (h' : Extends metadata batch path unit mid after) :
    Extends metadata batch path unit order after := by
  obtain ⟨new, rfl, hnew⟩ := h.added
  obtain ⟨new', rfl, hnew'⟩ := h'.added
  refine ⟨h'.settled, ⟨new ++ new', List.append_assoc .., fun x hx => ?_⟩, h'.offPath⟩
  exact (List.mem_append.mp hx).elim (hnew x) (hnew' x)

/-- The visited unit comes in after everything that it waits for. -/
theorem snoc (h : Extends metadata batch (path.insert candidate) candidate order mid)
    (hprecedes : Precedes metadata batch candidate unit) (hpath : candidate ∉ path)
    (hclosed : ∀ x, Precedes metadata batch x candidate → x ∈ mid) :
    Extends metadata batch path unit order (mid ++ [candidate]) := by
  obtain ⟨new, rfl, hnew⟩ := h.added
  refine ⟨h.settled.snoc hprecedes.1 (h.offPath _ (by simp)) hclosed,
    ⟨new ++ [candidate], List.append_assoc .., fun x hx => ?_⟩, fun x hx hmem => ?_⟩
  · rcases List.mem_append.mp hx with hx | hx
    · exact (hnew x hx).tail hprecedes
    · exact List.mem_singleton.mp hx ▸ .single hprecedes
  · rcases List.mem_append.mp hmem with hmem | hmem
    · exact h.offPath x (by simp [hx]) hmem
    · exact hpath (List.mem_singleton.mp hmem ▸ hx)

end Extends

/-- A visit that ends adds the unit after what the unit waits for; the candidates that have to stand
before a unit are all there after their visits. -/
theorem extends_of_visit :
    (∀ (path : UnitSet) (order : List UnitId) (unit : UnitId), Settled metadata batch order →
      unit ∉ order → (∀ x ∈ path, x ∉ order) → ∀ after,
      visit metadata batch path order unit = .ok after →
        ∃ mid, after = mid ++ [unit] ∧
          Extends metadata batch (path.insert unit) unit order mid ∧
          ∀ x, Precedes metadata batch x unit → x ∈ mid) ∧
    (∀ (path : UnitSet) (unit : UnitId) (candidates order : List UnitId),
      Settled metadata batch order → (∀ x ∈ path, x ∉ order) → ∀ after,
      visitEach metadata batch path unit candidates order = .ok after →
        Extends metadata batch path unit order after ∧
          ∀ x ∈ candidates, Precedes metadata batch x unit → x ∈ after) := by
  refine visit.mutual_induct metadata batch _ _ ?_ ?_ ?_ ?_ ?_
  · -- A visit: all candidates are looked at, so nothing that has to stand before is missing.
    intro path order unit ih hsettled hfresh hpath after h
    have hpath : ∀ x ∈ path.insert unit, x ∉ order := by
      intro x hx
      rcases mem_insert_iff.mp hx with rfl | hx
      · exact hfresh
      · exact hpath x hx
    rw [visit_eq] at h
    obtain ⟨mid, hmid, hafter⟩ := bind_eq_ok.mp h
    cases hafter
    obtain ⟨hextends, hclosed⟩ := ih hsettled hpath mid hmid
    exact ⟨mid, rfl, hextends, fun x hx => hclosed x (Std.ExtTreeSet.mem_toList.mpr hx.1) hx⟩
  · -- No candidate is left.
    intro path unit order hsettled hpath after h
    rw [visitEach] at h
    cases h
    exact ⟨.refl hsettled hpath, by simp⟩
  · -- The candidate is on the path, and no order comes out.
    rintro path unit candidate candidates order ⟨hprecedes, horder⟩ hmem hsettled hpath after h
    rw [visitEach_cycle hprecedes horder hmem] at h
    cases h
  · -- The candidate is visited.
    rintro path unit candidate candidates order ⟨hprecedes, horder⟩ hmem ihvisit iheach hsettled
      hpath after h
    rw [visitEach_visit hprecedes horder hmem] at h
    obtain ⟨visited, hvisit, hrest⟩ := bind_eq_ok.mp h
    obtain ⟨mid, rfl, hmid, hclosed⟩ := ihvisit hsettled horder hpath visited hvisit
    have hvisited := hmid.snoc hprecedes hmem hclosed
    obtain ⟨hafter, heach⟩ := iheach _ hvisited.settled hvisited.offPath after hrest
    refine ⟨hvisited.trans hafter, fun x hx hxu => ?_⟩
    rcases List.mem_cons.mp hx with rfl | hx
    · exact hafter.subset (by simp)
    · exact heach x hx hxu
  · -- The candidate is passed by: it is in the order, or does not have to be.
    intro path unit candidate candidates order hskip ih hsettled hpath after h
    rw [not_and_not_right] at hskip
    rw [visitEach_skip hskip] at h
    obtain ⟨hafter, heach⟩ := ih hsettled hpath after h
    refine ⟨hafter, fun x hx hxu => ?_⟩
    rcases List.mem_cons.mp hx with rfl | hx
    · exact hafter.subset (hskip hxu)
    · exact heach x hx hxu

/-! ### What a failed visit has found -/

/-- The predecessor has to stand before the unit, and is the unit itself or waits for it. -/
def OnCycle (metadata : UnitId → Metadata) (batch : UnitSet) (cycle : Cycle) : Prop :=
  Precedes metadata batch cycle.predecessor cycle.unit ∧
    ReflTransGen (Precedes metadata batch) cycle.unit cycle.predecessor

/-- Everything on the path waits for the unit that is being visited, so a predecessor on the path
closes a cycle. -/
theorem onCycle_of_visit :
    (∀ (path : UnitSet) (order : List UnitId) (unit : UnitId),
      (∀ x ∈ path, TransGen (Precedes metadata batch) unit x) → ∀ cycle,
      visit metadata batch path order unit = .error cycle → OnCycle metadata batch cycle) ∧
    (∀ (path : UnitSet) (unit : UnitId) (candidates order : List UnitId),
      (∀ x ∈ path, ReflTransGen (Precedes metadata batch) unit x) → ∀ cycle,
      visitEach metadata batch path unit candidates order = .error cycle →
        OnCycle metadata batch cycle) := by
  refine visit.mutual_induct metadata batch _ _ ?_ ?_ ?_ ?_ ?_
  · -- A visit: the unit itself comes onto the path.
    intro path order unit ih hpath cycle h
    refine ih (fun x hx => ?_) cycle ?_
    · rcases mem_insert_iff.mp hx with rfl | hx
      · exact .refl
      · exact (hpath x hx).to_reflTransGen
    · rw [visit_eq] at h
      rcases bind_eq_error.mp h with h | ⟨mid, -, h⟩
      · exact h
      · cases h
  · -- No candidate is left, and nothing fails.
    intro path unit order hpath cycle h
    rw [visitEach] at h
    cases h
  · -- The candidate is on the path.
    rintro path unit candidate candidates order ⟨hprecedes, horder⟩ hmem hpath cycle h
    rw [visitEach_cycle hprecedes horder hmem] at h
    cases h
    exact ⟨hprecedes, hpath candidate hmem⟩
  · -- The candidate is visited: what waits for the unit waits for the candidate.
    rintro path unit candidate candidates order ⟨hprecedes, horder⟩ hmem ihvisit iheach hpath
      cycle h
    rw [visitEach_visit hprecedes horder hmem] at h
    rcases bind_eq_error.mp h with h | ⟨visited, -, h⟩
    · exact ihvisit (fun x hx => .head' hprecedes (hpath x hx)) cycle h
    · exact iheach visited hpath cycle h
  · -- The candidate is passed by.
    intro path unit candidate candidates order hskip ih hpath cycle h
    rw [visitEach_skip (not_and_not_right.mp hskip)] at h
    exact ih hpath cycle h

theorem onCycle_of_visitRoots {cycle : Cycle} : ∀ {roots order : List UnitId},
    visitRoots metadata batch roots order = .error cycle → OnCycle metadata batch cycle
  | [], order, h => by rw [visitRoots] at h; cases h
  | root :: roots, order, h => by
    by_cases hroot : root ∈ order
    · rw [visitRoots_skip hroot] at h
      exact onCycle_of_visitRoots h
    · rw [visitRoots_visit hroot] at h
      rcases bind_eq_error.mp h with h | ⟨visited, -, h⟩
      · exact onCycle_of_visit.1 ∅ order root (by simp) cycle h
      · exact onCycle_of_visitRoots h

/-! ### Root by root -/

/-- The order holds these roots, all that has to stand before them, and nothing else. -/
def Covers (metadata : UnitId → Metadata) (batch : UnitSet) (roots order : List UnitId) : Prop :=
  ∀ x, x ∈ order ↔ ∃ root ∈ roots, ReflTransGen (Precedes metadata batch) x root

/-- One more root brings in what it waits for. -/
theorem Covers.append {seen order after : List UnitId} {root : UnitId}
    (hcovers : Covers metadata batch seen order) (hsettled : Settled metadata batch after)
    (hsubset : order ⊆ after) (hroot : root ∈ after)
    (hadded : ∀ x ∈ after, x ∈ order ∨ ReflTransGen (Precedes metadata batch) x root) :
    Covers metadata batch (seen ++ [root]) after := by
  intro x
  constructor
  · intro hx
    rcases hadded x hx with hx | hx
    · obtain ⟨r, hr, hxr⟩ := (hcovers x).mp hx
      exact ⟨r, List.mem_append_left _ hr, hxr⟩
    · exact ⟨root, by simp, hx⟩
  · rintro ⟨r, hr, hxr⟩
    refine hsettled.mem_of_reflTransGen ?_ hxr
    rcases List.mem_append.mp hr with hr | hr
    · exact hsubset ((hcovers r).mpr ⟨r, hr, .refl⟩)
    · exact List.mem_singleton.mp hr ▸ hroot

/-- A root that is not there yet comes in last, after what it waits for. -/
theorem covers_of_visit {seen order after : List UnitId} {root : UnitId} (hroot : root ∈ batch)
    (hsettled : Settled metadata batch order) (hcovers : Covers metadata batch seen order)
    (hfresh : root ∉ order) (h : visit metadata batch ∅ order root = .ok after) :
    Settled metadata batch after ∧ Covers metadata batch (seen ++ [root]) after ∧
      ∃ new, after = order ++ new ++ [root] := by
  obtain ⟨mid, rfl, hextends, hclosed⟩ :=
    extends_of_visit.1 ∅ order root hsettled hfresh (by simp) after h
  obtain ⟨new, rfl, hnew⟩ := hextends.added
  have hafter := hextends.settled.snoc hroot (hextends.offPath root (by simp)) hclosed
  refine ⟨hafter, hcovers.append hafter ?_ (by simp) fun x hx => ?_, new, rfl⟩
  · rw [List.append_assoc]
    exact List.subset_append_left order _
  · rcases List.mem_append.mp hx with hx | hx
    · exact (List.mem_append.mp hx).imp_right fun hx => (hnew x hx).to_reflTransGen
    · exact .inr (List.mem_singleton.mp hx ▸ .refl)

/-- Visiting roots continues the order, and covers these roots too. -/
theorem covers_of_visitRoots : ∀ {roots seen order after : List UnitId},
    (∀ root ∈ roots, root ∈ batch) → Settled metadata batch order →
    Covers metadata batch seen order → visitRoots metadata batch roots order = .ok after →
    Settled metadata batch after ∧ Covers metadata batch (seen ++ roots) after ∧ order <+: after
  | [], seen, order, after, _, hsettled, hcovers, h => by
    rw [visitRoots] at h
    cases h
    exact ⟨hsettled, by rwa [List.append_nil], List.prefix_rfl⟩
  | root :: roots, seen, order, after, hroots, hsettled, hcovers, h => by
    have hrest : ∀ r ∈ roots, r ∈ batch := fun r hr => hroots r (List.mem_cons_of_mem root hr)
    rw [List.append_cons]
    by_cases hmem : root ∈ order
    · rw [visitRoots_skip hmem] at h
      exact covers_of_visitRoots hrest hsettled
        (hcovers.append hsettled (List.Subset.refl order) hmem fun x hx => .inl hx) h
    · rw [visitRoots_visit hmem] at h
      obtain ⟨visited, hvisit, hafter⟩ := bind_eq_ok.mp h
      obtain ⟨hvisited, hcovered, new, rfl⟩ :=
        covers_of_visit (hroots root List.mem_cons_self) hsettled hcovers hmem hvisit
      obtain ⟨hafter, hall, hstart⟩ := covers_of_visitRoots hrest hvisited hcovered hafter
      rw [List.append_assoc] at hstart
      exact ⟨hafter, hall, (List.prefix_append order _).trans hstart⟩

/-- Roots are visited one after the other. -/
theorem visitRoots_append (rest : List UnitId) : ∀ front order : List UnitId,
    visitRoots metadata batch (front ++ rest) order =
      (visitRoots metadata batch front order).bind (visitRoots metadata batch rest)
  | [], order => by
    rw [visitRoots]
    rfl
  | root :: front, order => by
    rw [List.cons_append]
    by_cases hroot : root ∈ order
    · rw [visitRoots_skip hroot, visitRoots_skip hroot, visitRoots_append rest front]
    · rw [visitRoots_visit hroot, visitRoots_visit hroot]
      cases visit metadata batch ∅ order root with
      | error cycle => rfl
      | ok visited => exact visitRoots_append rest front visited

theorem exists_of_visitRoots_append {front rest order after : List UnitId}
    (h : visitRoots metadata batch (front ++ rest) order = .ok after) :
    ∃ mid, visitRoots metadata batch front order = .ok mid ∧
      visitRoots metadata batch rest mid = .ok after :=
  bind_eq_ok.mp (visitRoots_append rest front order ▸ h)

theorem covers_nil : Covers metadata batch [] [] := by simp [Covers]

/-- The whole search: the order is settled, and holds the batch. -/
theorem settled_of_depthFirst {order : List UnitId} (h : depthFirst metadata batch = .ok order) :
    Settled metadata batch order ∧ ∀ x, x ∈ order ↔ x ∈ batch := by
  have hroots : ∀ root ∈ priorityOrder metadata batch, root ∈ batch :=
    fun root hroot => mem_priorityOrder.mp hroot
  obtain ⟨hsettled, hcovers, -⟩ := covers_of_visitRoots hroots .nil covers_nil h
  refine ⟨hsettled, fun x => ⟨hsettled.mem_batch, fun hx => ?_⟩⟩
  exact (hcovers x).mpr ⟨x, by simpa using mem_priorityOrder.mpr hx, .refl⟩

/-- The search fails when the constraints run in a circle, and only then. -/
theorem depthFirst_error_iff :
    (∃ cycle, depthFirst metadata batch = .error cycle) ↔
      ∃ x, TransGen (Precedes metadata batch) x x := by
  constructor
  · rintro ⟨cycle, h⟩
    obtain ⟨hprecedes, hreach⟩ := onCycle_of_visitRoots h
    exact ⟨cycle.unit, .tail' hreach hprecedes⟩
  · rintro ⟨x, hx⟩
    cases h : depthFirst metadata batch with
    | error cycle => exact ⟨cycle, rfl⟩
    | ok order =>
      obtain ⟨hsettled, hmem⟩ := settled_of_depthFirst h
      obtain ⟨y, hxy, -⟩ := TransGen.head'_iff.mp hx
      have hlt := (hsettled.idxOf_lt_of_transGen ((hmem x).mpr hxy.1) hx).2
      exact absurd hlt (Nat.lt_irrefl _)

end ActivationOrder
