import Mathlib.Algebra.BigOperators.Group.List.Basic
import Mathlib.Data.List.Nodup
import ActivationOrder.Proofs.Reads

/-!
The iterations of the constraint pass. `Sound` is what holds at the head of each of them: the stack,
the two sets and the order so far agree. A unit is put on the stack only when it is in neither set,
and from then on it is in one of them, so it is put there once. Every iteration is spent on one
thing: on a root, on a frame, or on a predecessor in a frame; entering a unit brings its frame and
its predecessors, which until then count for the unit. So `cost` falls by one with every iteration,
and the pass ends after as many as the batch and its declarations pay for, cyclic ones included.
-/

namespace ActivationOrder

namespace Pass

variable {relations : Relations} {batch : UnitSet} {pass next : Pass} {unit : UnitId}

/-- What one step does: it drops a root or a predecessor, leaves a unit, or enters one. -/
inductive Step (relations : Relations) : Pass → Pass → Prop
  | dropRoot {root : UnitId} {roots : List UnitId} {visiting done : UnitSet}
      {resolved : List UnitId} (hdone : root ∈ done) :
      Step relations ⟨root :: roots, [], visiting, done, resolved⟩
        ⟨roots, [], visiting, done, resolved⟩
  | enterRoot {root : UnitId} {roots : List UnitId} {visiting done : UnitSet}
      {resolved : List UnitId} (hdone : root ∉ done) :
      Step relations ⟨root :: roots, [], visiting, done, resolved⟩
        (enter relations ⟨roots, [], visiting, done, resolved⟩ root)
  | leave {unit : UnitId} {roots : List UnitId} {stack : List Frame} {visiting done : UnitSet}
      {resolved : List UnitId} :
      Step relations ⟨roots, ⟨unit, []⟩ :: stack, visiting, done, resolved⟩
        ⟨roots, stack, visiting.erase unit, done.insert unit, unit :: resolved⟩
  | dropPredecessor {unit predecessor : UnitId} {roots pending : List UnitId} {stack : List Frame}
      {visiting done : UnitSet} {resolved : List UnitId}
      (hskip : predecessor ∉ relations.batch ∨ predecessor ∈ done) :
      Step relations ⟨roots, ⟨unit, predecessor :: pending⟩ :: stack, visiting, done, resolved⟩
        ⟨roots, ⟨unit, pending⟩ :: stack, visiting, done, resolved⟩
  | enterPredecessor {unit predecessor : UnitId} {roots pending : List UnitId}
      {stack : List Frame} {visiting done : UnitSet} {resolved : List UnitId}
      (hbatch : predecessor ∈ relations.batch) (hdone : predecessor ∉ done)
      (hvisiting : predecessor ∉ visiting) :
      Step relations ⟨roots, ⟨unit, predecessor :: pending⟩ :: stack, visiting, done, resolved⟩
        (enter relations ⟨roots, ⟨unit, pending⟩ :: stack, visiting, done, resolved⟩ predecessor)

theorem Step.of_step (h : pass.step relations = .next next) : Step relations pass next := by
  rcases pass with ⟨roots, stack, visiting, done, resolved⟩
  rw [step] at h
  split at h
  · next hstack =>
    dsimp only at hstack
    subst hstack
    split at h
    · cases h
    · next root roots hroots =>
      dsimp only at hroots
      subst hroots
      split at h
      · next hdone =>
        cases h
        exact .dropRoot hdone
      · next hdone =>
        cases h
        exact .enterRoot hdone
  · next unit stack hstack =>
    dsimp only at hstack
    subst hstack
    cases h
    exact .leave
  · next unit predecessor pending stack hstack =>
    dsimp only at hstack
    subst hstack
    dsimp only at h
    split at h
    · next hskip =>
      cases h
      exact .dropPredecessor hskip
    · next hskip =>
      rw [not_or, Decidable.not_not] at hskip
      split at h
      · cases h
      · next hvisiting =>
        cases h
        exact .enterPredecessor hskip.1 hskip.2 hvisiting

/-! ### At the head of an iteration -/

/-- The units on the stack. -/
def onStack (pass : Pass) : List UnitId := pass.stack.map (·.unit)

/-- What holds at the head of every iteration of a pass over a batch. -/
structure Sound (batch : UnitSet) (pass : Pass) : Prop where
  /-- Only units of the batch are still to be taken as roots. -/
  roots_mem : ∀ root ∈ pass.roots, root ∈ batch
  /-- The units on the stack are distinct units of the batch. -/
  nodup_onStack : pass.onStack.Nodup
  onStack_mem : ∀ unit ∈ pass.onStack, unit ∈ batch
  /-- The units that are being visited are those on the stack. -/
  mem_visiting : ∀ unit, unit ∈ pass.visiting ↔ unit ∈ pass.onStack
  /-- The units that are done are those that have been resolved, each once. -/
  mem_done : ∀ unit, unit ∈ pass.done ↔ unit ∈ pass.resolved
  nodup_resolved : pass.resolved.Nodup
  /-- No resolved unit is being visited. -/
  disjoint : ∀ unit ∈ pass.resolved, unit ∉ pass.visiting

/-- Between two roots nothing is being visited. -/
theorem Sound.visiting_eq (h : pass.Sound batch) (hstack : pass.stack = []) :
    pass.visiting = ∅ := by
  refine Std.ExtTreeSet.ext_mem fun unit => ?_
  rw [h.mem_visiting, onStack, hstack]
  simp

theorem sound_start {roots : List UnitId} (h : ∀ root ∈ roots, root ∈ batch) :
    Sound batch { roots } :=
  ⟨h, by simp [onStack], by simp [onStack], by simp [onStack], by simp, by simp, by simp⟩

/-- A unit of the batch that is in neither set can be entered. -/
theorem Sound.enter (h : pass.Sound batch) (hbatch : unit ∈ batch) (hvisiting : unit ∉ pass.visiting)
    (hdone : unit ∉ pass.done) : (pass.enter relations unit).Sound batch where
  roots_mem := h.roots_mem
  nodup_onStack := by
    refine List.nodup_cons.mpr ⟨fun hmem => ?_, h.nodup_onStack⟩
    exact hvisiting ((h.mem_visiting unit).mpr hmem)
  onStack_mem := List.forall_mem_cons.mpr ⟨hbatch, h.onStack_mem⟩
  mem_visiting u := by
    change u ∈ pass.visiting.insert unit ↔ u ∈ unit :: pass.onStack
    rw [mem_insert_iff, List.mem_cons, h.mem_visiting]
  mem_done := h.mem_done
  nodup_resolved := h.nodup_resolved
  disjoint u hu := by
    change u ∉ pass.visiting.insert unit
    rw [mem_insert_iff, not_or]
    refine ⟨?_, h.disjoint u hu⟩
    rintro rfl
    exact hdone ((h.mem_done u).mpr hu)

/-- One iteration keeps what holds at its head. -/
theorem Sound.step (h : pass.Sound relations.batch) (hstep : Step relations pass next) :
    next.Sound relations.batch := by
  cases hstep with
  | dropRoot hdone =>
    exact { h with roots_mem := fun root hroot => h.roots_mem root (List.mem_cons_of_mem _ hroot) }
  | enterRoot hdone =>
    rename_i root roots visiting done resolved
    have hrest : Sound relations.batch ⟨roots, [], visiting, done, resolved⟩ :=
      { h with roots_mem := fun root hroot => h.roots_mem root (List.mem_cons_of_mem _ hroot) }
    refine hrest.enter (h.roots_mem root List.mem_cons_self) ?_ hdone
    rw [hrest.visiting_eq rfl]
    simp
  | leave =>
    rename_i unit roots stack visiting done resolved
    obtain ⟨hnot, hnodup⟩ := List.nodup_cons.mp h.nodup_onStack
    have hunit : unit ∈ visiting := (h.mem_visiting unit).mpr List.mem_cons_self
    constructor
    · exact h.roots_mem
    · exact hnodup
    · exact fun u hu => h.onStack_mem u (List.mem_cons_of_mem unit hu)
    · intro u
      dsimp only
      rw [Std.ExtTreeSet.mem_erase, h.mem_visiting, Ne, Std.LawfulEqCmp.compare_eq_iff_eq]
      change (¬ unit = u ∧ u ∈ unit :: stack.map (·.unit)) ↔ u ∈ stack.map (·.unit)
      rw [List.mem_cons]
      constructor
      · rintro ⟨hne, hu⟩
        exact hu.resolve_left (Ne.symm hne)
      · intro hu
        refine ⟨?_, .inr hu⟩
        rintro rfl
        exact hnot hu
    · intro u
      dsimp only
      rw [mem_insert_iff, List.mem_cons, h.mem_done]
    · exact List.nodup_cons.mpr ⟨fun hmem => h.disjoint unit hmem hunit, h.nodup_resolved⟩
    · intro u hu
      dsimp only at hu ⊢
      rw [Std.ExtTreeSet.mem_erase, Ne, Std.LawfulEqCmp.compare_eq_iff_eq, not_and]
      intro hne
      exact h.disjoint u ((List.mem_cons.mp hu).resolve_left (Ne.symm hne))
  | dropPredecessor hskip => exact ⟨h.1, h.2, h.3, h.4, h.5, h.6, h.7⟩
  | enterPredecessor hbatch hdone hvisiting =>
    exact Sound.enter ⟨h.1, h.2, h.3, h.4, h.5, h.6, h.7⟩ hbatch hvisiting hdone

/-! ### What is put on the stack -/

/-- The unit has been entered. -/
def Entered (pass : Pass) (unit : UnitId) : Prop := unit ∈ pass.visiting ∨ unit ∈ pass.done

instance (pass : Pass) (unit : UnitId) : Decidable (pass.Entered unit) :=
  inferInstanceAs (Decidable (_ ∨ _))

theorem entered_enter {u : UnitId} :
    (pass.enter relations unit).Entered u ↔ u = unit ∨ pass.Entered u := by
  change u ∈ pass.visiting.insert unit ∨ _ ↔ _
  rw [mem_insert_iff, or_assoc]
  rfl

/-- A unit that is left goes from one set to the other. -/
theorem entered_leave {u : UnitId} {roots resolved : List UnitId} {stack : List Frame}
    {visiting done : UnitSet} (hunit : unit ∈ visiting) :
    Entered ⟨roots, stack, visiting.erase unit, done.insert unit, unit :: resolved⟩ u ↔
      Entered ⟨roots, ⟨unit, []⟩ :: stack, visiting, done, resolved⟩ u := by
  change u ∈ visiting.erase unit ∨ u ∈ done.insert unit ↔ u ∈ visiting ∨ u ∈ done
  rw [mem_insert_iff, Std.ExtTreeSet.mem_erase, Ne, Std.LawfulEqCmp.compare_eq_iff_eq]
  by_cases heq : u = unit
  · simp [heq, hunit]
  · simp [heq, Ne.symm heq]

/-- The unit that an iteration puts on the stack: the top of a stack that has grown. -/
def pushed? (pass next : Pass) : Option UnitId :=
  if pass.stack.length < next.stack.length then next.onStack.head? else none

/-- The units that are put on the stack from one pass on, in this order. -/
def pushed (pass : Pass) : List Pass → List UnitId
  | [] => []
  | next :: later => (pushed? pass next).toList ++ pushed next later

/-- A unit that has been entered is being visited or done from then on. -/
theorem Step.entered (h : Step relations pass next) (hsound : pass.Sound batch)
    (hunit : pass.Entered unit) : next.Entered unit := by
  cases h with
  | dropRoot hdone => exact hunit
  | enterRoot hdone => exact entered_enter.mpr (.inr hunit)
  | leave => exact (entered_leave ((hsound.mem_visiting _).mpr List.mem_cons_self)).mpr hunit
  | dropPredecessor hskip => exact hunit
  | enterPredecessor hbatch hdone hvisiting => exact entered_enter.mpr (.inr hunit)

/-- What is put on the stack has not been there before. -/
theorem Step.not_entered (h : Step relations pass next) (hsound : pass.Sound batch)
    (hpushed : pushed? pass next = some unit) : ¬ pass.Entered unit ∧ next.Entered unit := by
  cases h with
  | dropRoot hdone => simp [pushed?] at hpushed
  | enterRoot hdone =>
    rename_i root roots visiting done resolved
    obtain rfl : root = unit := by simpa [pushed?, Pass.enter, onStack] using hpushed
    refine ⟨?_, entered_enter.mpr (.inl rfl)⟩
    have hempty : visiting = ∅ := hsound.visiting_eq rfl
    simp [Entered, hempty, hdone]
  | leave => simp [pushed?] at hpushed
  | dropPredecessor hskip => simp [pushed?] at hpushed
  | enterPredecessor hbatch hdone hvisiting =>
    rename_i below predecessor roots pending stack visiting done resolved
    obtain rfl : predecessor = unit := by simpa [pushed?, Pass.enter, onStack] using hpushed
    exact ⟨not_or.mpr ⟨hvisiting, hdone⟩, entered_enter.mpr (.inl rfl)⟩

/-! ### What iterations are spent on -/

/-- The units of the batch that have not been entered. -/
def fresh (relations : Relations) (pass : Pass) : List UnitId :=
  relations.batch.toList.filter fun unit => decide (¬ pass.Entered unit)

/-- What a unit can be looked at for: its predecessors, and then itself. -/
def share (relations : Relations) (unit : UnitId) : Nat :=
  (relations.predecessors unit).toList.length + 1

/-- What is left to spend iterations on. -/
def cost (relations : Relations) (pass : Pass) : Nat :=
  pass.roots.length + pass.work + ((pass.fresh relations).map (share relations)).sum

theorem fresh_enter : (pass.enter relations unit).fresh relations =
    (pass.fresh relations).erase unit := by
  have hnodup : (pass.fresh relations).Nodup := (nodup_toList relations.batch).filter _
  rw [hnodup.erase_eq_filter, fresh, fresh, List.filter_filter]
  refine List.filter_congr fun u _ => ?_
  simp only [entered_enter, not_or, Bool.decide_and, decide_not, bne, beq_eq_decide]

/-- Entering a unit spends nothing: its frame and its predecessors have been counted for it. -/
theorem cost_enter (hbatch : unit ∈ relations.batch) (hunit : ¬ pass.Entered unit) :
    (pass.enter relations unit).cost relations = pass.cost relations := by
  have hfresh : unit ∈ pass.fresh relations :=
    List.mem_filter.mpr ⟨Std.ExtTreeSet.mem_toList.mpr hbatch, decide_eq_true hunit⟩
  have hsum := List.sum_map_erase (share relations) hfresh
  have hwork : (pass.enter relations unit).work = share relations unit + pass.work := rfl
  have hroots : (pass.enter relations unit).roots = pass.roots := rfl
  rw [cost, cost, fresh_enter, hwork, hroots]
  omega

/-- A root, a frame or a predecessor less is one iteration less. -/
theorem cost_succ (hfresh : ∀ unit, next.Entered unit ↔ pass.Entered unit)
    (hcount : next.roots.length + next.work + 1 = pass.roots.length + pass.work) :
    next.cost relations + 1 = pass.cost relations := by
  have hsame : next.fresh relations = pass.fresh relations :=
    List.filter_congr fun unit _ => decide_eq_decide.mpr (not_congr (hfresh unit))
  rw [cost, cost, hsame]
  omega

/-- Every iteration is spent on one thing. -/
theorem Step.cost_succ (h : Step relations pass next) (hsound : pass.Sound relations.batch) :
    next.cost relations + 1 = pass.cost relations := by
  cases h with
  | dropRoot hdone => exact Pass.cost_succ (fun _ => Iff.rfl) (by simp [work])
  | enterRoot hdone =>
    rename_i root roots visiting done resolved
    have hempty : visiting = ∅ := hsound.visiting_eq rfl
    rw [cost_enter (hsound.roots_mem root List.mem_cons_self) (by simp [hempty, hdone, Entered])]
    exact Pass.cost_succ (fun _ => Iff.rfl) (by simp [work])
  | leave =>
    refine Pass.cost_succ (fun _ => entered_leave ?_) (by simp [work]; omega)
    exact (hsound.mem_visiting _).mpr List.mem_cons_self
  | dropPredecessor hskip => exact Pass.cost_succ (fun _ => Iff.rfl) (by simp [work]; omega)
  | enterPredecessor hbatch hdone hvisiting =>
    rw [cost_enter hbatch (not_or.mpr ⟨hvisiting, hdone⟩)]
    exact Pass.cost_succ (fun _ => Iff.rfl) (by simp [work]; omega)

/-! ### The whole pass -/

/-- The passes at the heads of the iterations after the one at `pass`, up to the one at which the
search ends, and its outcome. -/
inductive Path (relations : Relations) : Pass → List Pass → Except Cycle (List UnitId) → Prop
  | cycle {pass : Pass} {cycle : Cycle} (hstep : pass.step relations = .cycle cycle) :
      Path relations pass [] (.error cycle)
  | finished {pass : Pass} {order : List UnitId} (hstep : pass.step relations = .finished order) :
      Path relations pass [] (.ok order)
  | next {pass next : Pass} {later : List Pass} {outcome : Except Cycle (List UnitId)}
      (hstep : pass.step relations = .next next) (rest : Path relations next later outcome) :
      Path relations pass (next :: later) outcome

/-- A search ends, with the outcome of the pass. -/
theorem exists_path (relations : Relations) (pass : Pass) :
    ∃ later, Path relations pass later (run relations pass) := by
  induction pass using run.induct relations with
  | case1 pass next hstep ih =>
    obtain ⟨later, hlater⟩ := ih
    rw [run_of_step_next hstep]
    exact ⟨next :: later, .next hstep hlater⟩
  | case2 pass cycle hstep =>
    rw [run_of_step_cycle hstep]
    exact ⟨[], .cycle hstep⟩
  | case3 pass order hstep =>
    rw [run_of_step_finished hstep]
    exact ⟨[], .finished hstep⟩

namespace Path

variable {later : List Pass} {outcome : Except Cycle (List UnitId)}

theorem sound (h : Path relations pass later outcome) (hsound : pass.Sound relations.batch) :
    ∀ head ∈ pass :: later, head.Sound relations.batch := by
  induction h with
  | cycle hstep => simpa using hsound
  | finished hstep => simpa using hsound
  | next hstep rest ih =>
    exact List.forall_mem_cons.mpr ⟨hsound, ih (hsound.step (.of_step hstep))⟩

/-- No unit is put on the stack twice, and none that was there when the path began. -/
theorem nodup_pushed (h : Path relations pass later outcome)
    (hsound : pass.Sound relations.batch) :
    (pass.pushed later).Nodup ∧ ∀ unit ∈ pass.pushed later, ¬ pass.Entered unit := by
  induction h with
  | cycle hstep => simp [pushed]
  | finished hstep => simp [pushed]
  | next hstep rest ih =>
    rename_i pass next later outcome
    have hmove := Step.of_step hstep
    obtain ⟨hnodup, hrest⟩ := ih (hsound.step hmove)
    have hrest' : ∀ unit ∈ next.pushed later, ¬ pass.Entered unit :=
      fun unit hunit hentered => hrest unit hunit (hmove.entered hsound hentered)
    rw [pushed]
    cases hpushed : pushed? pass next with
    | none => exact ⟨hnodup, hrest'⟩
    | some unit =>
      obtain ⟨hnot, hentered⟩ := hmove.not_entered hsound hpushed
      refine ⟨List.nodup_cons.mpr ⟨fun hmem => hrest unit hmem hentered, hnodup⟩, ?_⟩
      exact List.forall_mem_cons.mpr ⟨hnot, hrest'⟩

/-- There are no more iterations than there are things to spend them on. -/
theorem length_le_cost (h : Path relations pass later outcome)
    (hsound : pass.Sound relations.batch) : later.length ≤ pass.cost relations := by
  induction h with
  | cycle hstep => simp
  | finished hstep => simp
  | next hstep rest ih =>
    have hmove := Step.of_step hstep
    have hcost := hmove.cost_succ hsound
    have hlength := ih (hsound.step hmove)
    rw [List.length_cons]
    omega

end Path

end Pass

/-- The pass before its first iteration. -/
def Relations.start (relations : Relations) : Pass := { roots := relations.byPriority }

theorem Relations.sound_start (relations : Relations) :
    relations.start.Sound relations.batch :=
  Pass.sound_start fun _ hroot =>
    Std.ExtTreeSet.mem_toList.mp ((perm_byPriority relations).mem_iff.mp hroot)

/-- Each unit of the batch pays for itself as a root, for its frame and for its predecessors. -/
theorem Relations.cost_start (relations : Relations) :
    relations.start.cost relations =
      (relations.batch.toList.map fun unit => (relations.predecessors unit).size + 2).sum := by
  have hroots : relations.byPriority.length =
      (relations.batch.toList.map fun _ => 1).sum := by
    rw [(perm_byPriority relations).length_eq]
    simp
  have hfresh : relations.start.fresh relations = relations.batch.toList :=
    List.filter_eq_self.mpr fun unit _ => by simp [Pass.Entered, start]
  have hshare : ∀ unit, Pass.share relations unit + 1 = (relations.predecessors unit).size + 2 := by
    intro unit
    rw [Pass.share, Std.ExtTreeSet.length_toList]
  rw [Pass.cost, hfresh]
  change relations.byPriority.length + 0 + _ = _
  rw [hroots, Nat.add_zero, Nat.add_comm, ← List.sum_map_add]
  simp only [hshare]

namespace View

variable {σ : Type} [Source σ]

/-- The passes at the heads of the iterations of a search through a view, after the one at `pass`,
and its outcome. -/
inductive Path : View → σ → Pass → List Pass → Except SortError (List UnitId) → Prop
  | failed {view seen : View} {source next : σ} {pass : Pass} {cause : MetadataError}
      (hstep : view.step source pass = (.error cause, seen, next)) :
      Path view source pass [] (.error (.ofMetadata cause))
  | cycle {view seen : View} {source next : σ} {pass : Pass} {cycle : Cycle}
      (hstep : view.step source pass = (.ok (.cycle cycle), seen, next)) :
      Path view source pass [] (.error (.cycle cycle))
  | finished {view seen : View} {source next : σ} {pass : Pass} {order : List UnitId}
      (hstep : view.step source pass = (.ok (.finished order), seen, next)) :
      Path view source pass [] (.ok order)
  | next {view seen : View} {source next : σ} {pass after : Pass} {later : List Pass}
      {outcome : Except SortError (List UnitId)}
      (hstep : view.step source pass = (.ok (.next after), seen, next))
      (rest : Path seen next after later outcome) :
      Path view source pass (after :: later) outcome

/-- A search through a view of the whole batch goes the way of the constraint pass. -/
theorem path_of_ready {relations : Relations} {pass : Pass} {later : List Pass}
    {outcome : Except Cycle (List UnitId)} (h : Pass.Path relations pass later outcome)
    (hsound : pass.Sound relations.batch) (source : σ) :
    ∀ {view : View}, view.Ready → view.relations = relations →
      Path view source pass later (outcome.mapError .cycle) := by
  induction h with
  | cycle hmove =>
    rintro view hready rfl
    obtain ⟨seen, -, -, hstep⟩ := step_ready hready source hsound.roots_mem
    rw [hmove] at hstep
    exact .cycle hstep
  | finished hmove =>
    rintro view hready rfl
    obtain ⟨seen, -, -, hstep⟩ := step_ready hready source hsound.roots_mem
    rw [hmove] at hstep
    exact .finished hstep
  | next hmove rest ih =>
    rintro view hready rfl
    obtain ⟨seen, hseen, hrelations, hstep⟩ := step_ready hready source hsound.roots_mem
    rw [hmove] at hstep
    exact .next hstep (ih (hsound.step (.of_step hmove)) hseen hrelations)

end View

/-- The constraint pass ends on every input. A sort whose batch cannot be read makes no pass; of any
other, whatever was declared, the pass goes through finitely many iterations, no more than two for
each unit of the batch and one for each of its predecessors, and they are those of a search that
asks the view for predecessors. At the head of each the units on the stack are distinct and of the
batch, `visiting` is the set of them, `done` is the set of the resolved units, these are distinct
and none is being visited; when the stack is empty, nothing is. No unit is put on the stack twice. -/
theorem iterations_end {σ : Type} [Source σ] (source : σ) (units : List UnitId) :
    (∃ cause view last, (View.ofUnits units).getBatch source = (.error cause, view, last) ∧
      sort source units = (.error (.ofMetadata cause), last)) ∨
    ∃ view last later outcome,
      (View.ofUnits units).getBatch source = (.ok (), view, last) ∧
      sort source units = (outcome.mapError .cycle, last) ∧
      Pass.Path view.relations view.relations.start later outcome ∧
      View.Path view last view.relations.start later (outcome.mapError .cycle) ∧
      later.length ≤ ((batchOf units).toList.map fun unit =>
        (view.relations.predecessors unit).size + 2).sum ∧
      (∀ head ∈ view.relations.start :: later,
        head.Sound (batchOf units) ∧ (head.stack = [] → head.visiting = ∅)) ∧
      (view.relations.start.pushed later).Nodup := by
  rcases hget : (View.ofUnits units).getBatch source with ⟨cause | _, view, last⟩
  · exact .inl ⟨cause, view, last, rfl, by rw [sort, hget]⟩
  · obtain ⟨hbatch, hready⟩ := View.ready_of_getBatch hget
    have hsound := view.relations.sound_start
    have hrelations : view.relations.batch = batchOf units := hbatch
    obtain ⟨later, hpath⟩ := Pass.exists_path view.relations view.relations.start
    refine .inr ⟨view, last, later, view.relations.resolve, rfl, ?_, hpath,
      View.path_of_ready hpath hsound last hready rfl, ?_, fun head hhead => ?_,
      (hpath.nodup_pushed hsound).1⟩
    · rw [sort, hget, View.relations]
      dsimp only
      cases (Relations.of view.batch view.memo).resolve <;> rfl
    · rw [← hrelations, ← Relations.cost_start]
      exact hpath.length_le_cost hsound
    · have hhead := hpath.sound hsound head hhead
      rw [hrelations] at hhead
      exact ⟨hhead, hhead.visiting_eq⟩

end ActivationOrder
