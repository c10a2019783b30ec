import ActivationOrder.Batch.Relations

/-!
The constraint pass: a depth-first search that puts every unit after its predecessors. Roots are
taken in order of priority, and the predecessors of a unit in ascending order. `step` makes one
move on the search's configuration:

    no frame    ── next root resolved ──▶ drop it
                ── otherwise ──▶ enter it
    top frame   ── no predecessor left ──▶ leave: resolve the unit
                ── next one outside the batch or resolved ──▶ drop it
                ── next one on the stack ──▶ cycle
                ── otherwise ──▶ enter it

Every step takes a root, or enters a unit that was never entered, or takes something from a frame,
so the search ends on every input, cyclic ones included.
-/

namespace ActivationOrder

/-- A unit on the way, with those of its predecessors that have not been looked at. -/
structure Frame where
  unit : UnitId
  pending : List UnitId
  deriving DecidableEq

/-- A unit that has to follow a unit that has to follow it. -/
structure Cycle where
  unit : UnitId
  predecessor : UnitId
  deriving DecidableEq

/-- A configuration of the search. -/
structure Pass where
  roots : List UnitId
  /-- The units on the way, the innermost one first. -/
  stack : List Frame := []
  /-- The units on the stack. -/
  visiting : UnitSet := ∅
  /-- The units that are resolved. -/
  done : UnitSet := ∅
  /-- The resolved units, the last one first. -/
  resolved : List UnitId := []

/-- What one step leads to. -/
inductive Move where
  | next (pass : Pass)
  | cycle (cycle : Cycle)
  | finished (resolved : List UnitId)

namespace Pass

/-- Puts a unit on the stack. -/
def enter (relations : Relations) (pass : Pass) (unit : UnitId) : Pass :=
  { pass with
    stack := ⟨unit, (relations.predecessors unit).toList⟩ :: pass.stack
    visiting := pass.visiting.insert unit }

/-- One step of the search. -/
def step (relations : Relations) (pass : Pass) : Move :=
  match pass.stack with
  | [] =>
    match pass.roots with
    | [] => .finished pass.resolved.reverse
    | root :: roots =>
      if root ∈ pass.done then .next { pass with roots }
      else .next (enter relations { pass with roots } root)
  | ⟨unit, []⟩ :: stack =>
    .next { pass with
      stack
      visiting := pass.visiting.erase unit
      done := pass.done.insert unit
      resolved := unit :: pass.resolved }
  | ⟨unit, predecessor :: pending⟩ :: stack =>
    let advanced := { pass with stack := ⟨unit, pending⟩ :: stack }
    if predecessor ∉ relations.batch ∨ predecessor ∈ pass.done then .next advanced
    else if predecessor ∈ pass.visiting then .cycle ⟨unit, predecessor⟩
    else .next (enter relations advanced predecessor)

/-- The units of the batch that are neither on the stack nor resolved. -/
def untouched (relations : Relations) (pass : Pass) : Nat :=
  relations.batch.toList.countP fun unit =>
    decide (unit ∉ pass.visiting ∧ unit ∉ pass.done)

/-- The frames of the stack and what they have left. -/
def work (pass : Pass) : Nat :=
  pass.stack.foldr (fun frame left => frame.pending.length + 1 + left) 0

/-! ### The search ends -/

theorem untouched_le {relations : Relations} {p q : Pass}
    (h : ∀ unit, unit ∈ p.visiting ∨ unit ∈ p.done → unit ∈ q.visiting ∨ unit ∈ q.done) :
    q.untouched relations ≤ p.untouched relations := by
  refine List.countP_mono_left fun unit _ hq => ?_
  simp only [decide_eq_true_eq] at hq ⊢
  exact ⟨fun hp => (h unit (.inl hp)).elim hq.1 hq.2, fun hp => (h unit (.inr hp)).elim hq.1 hq.2⟩

theorem countP_lt {α : Type} {p q : α → Bool} {l : List α} (h : ∀ x ∈ l, q x = true → p x = true)
    {a : α} (ha : a ∈ l) (hp : p a = true) (hq : q a = false) : l.countP q < l.countP p := by
  induction l with
  | nil => simp at ha
  | cons x l ih =>
    have hle : l.countP q ≤ l.countP p :=
      List.countP_mono_left fun y hy => h y (List.mem_cons_of_mem _ hy)
    rw [List.countP_cons, List.countP_cons]
    rcases List.mem_cons.mp ha with rfl | ha
    · rw [hp, hq]; simp; omega
    · have := ih (fun y hy => h y (List.mem_cons_of_mem _ hy)) ha
      have hx := h x List.mem_cons_self
      by_cases hqx : q x = true
      · rw [if_pos hqx, if_pos (hx hqx)]; omega
      · rw [if_neg hqx]; split <;> omega

theorem untouched_enter_lt {relations : Relations} {pass : Pass} {unit : UnitId}
    (hb : unit ∈ relations.batch) (hv : unit ∉ pass.visiting) (hd : unit ∉ pass.done) :
    (pass.enter relations unit).untouched relations < pass.untouched relations := by
  refine countP_lt (fun x _ hx => ?_) (Std.ExtTreeSet.mem_toList.mpr hb) ?_ ?_
  · simp only [enter, decide_eq_true_eq, Std.ExtTreeSet.mem_insert, not_or] at hx ⊢
    exact ⟨hx.1.2, hx.2⟩
  · simp [hv, hd]
  · simp [enter]

/-- Every step makes what is left to do smaller. -/
theorem step_lt {relations : Relations} {pass next : Pass} (h : pass.step relations = .next next) :
    Prod.Lex (· < ·) (Prod.Lex (· < ·) (· < ·))
      (next.roots.length, next.untouched relations, next.work)
      (pass.roots.length, pass.untouched relations, pass.work) := by
  unfold step at h
  split at h
  · split at h
    · simp at h
    · next roots hr =>
      refine Prod.Lex.left _ _ ?_
      split at h <;> cases h <;> simp [hr, enter]
  · next unit stack hs =>
    cases h
    have hle : ({ pass with
        stack
        visiting := pass.visiting.erase unit
        done := pass.done.insert unit
        resolved := unit :: pass.resolved } : Pass).untouched relations ≤
          pass.untouched relations := by
      refine untouched_le fun x hx => ?_
      by_cases hux : compare unit x = .eq
      · exact .inr (Std.ExtTreeSet.mem_insert.mpr (.inl hux))
      · rcases hx with hx | hx
        · exact .inl (Std.ExtTreeSet.mem_erase.mpr ⟨hux, hx⟩)
        · exact .inr (Std.ExtTreeSet.mem_insert.mpr (.inr hx))
    refine Prod.Lex.right _ ?_
    rcases Nat.lt_or_eq_of_le hle with hlt | heq
    · exact Prod.Lex.left _ _ hlt
    · rw [heq]
      refine Prod.Lex.right _ ?_
      simp [work, hs]
  · next unit predecessor pending stack hs =>
    split at h
    · cases h
      refine Prod.Lex.right _ (Prod.Lex.right _ ?_)
      simp [work, hs]
    · next hskip =>
      split at h
      · simp at h
      · next hvisiting =>
        cases h
        rw [not_or, Decidable.not_not] at hskip
        exact Prod.Lex.right _ (Prod.Lex.left _ _
          (untouched_enter_lt hskip.1 hvisiting hskip.2))

/-- The outcome of a search from a configuration: the batch in an order that respects all
constraints, or a cycle. -/
def run (relations : Relations) (pass : Pass) : Except Cycle (List UnitId) :=
  match _h : pass.step relations with
  | .next next => run relations next
  | .cycle cycle => .error cycle
  | .finished resolved => .ok resolved
termination_by (pass.roots.length, pass.untouched relations, pass.work)
decreasing_by exact step_lt _h

end Pass

/-- The batch by priority, rearranged only as far as constraints demand. -/
def Relations.resolve (relations : Relations) : Except Cycle (List UnitId) :=
  Pass.run relations { roots := relations.byPriority }

end ActivationOrder
