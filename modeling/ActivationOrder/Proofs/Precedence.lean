import Mathlib.Data.List.Basic
import Mathlib.Data.List.Nodup
import ActivationOrder.Batch.Relations

/-!
What the metadata of a batch demands. `Precedes` is the constraint that one unit of the batch puts
on another, read off the two declarations that can state it; `Ahead` is priority. Both are relations
on units that know nothing of how a search gets at them. This module shows that `Relations` computes
just these: its predecessors inside the batch are the units that precede, and its roots are the
batch in the order of priority.
-/

namespace ActivationOrder

/-- The first unit has to stand before the second: the second declares to come after the first, or
the first to come before the second, and both are in the batch. -/
def Precedes (metadata : UnitId → Metadata) (batch : UnitSet) (earlier later : UnitId) : Prop :=
  earlier ∈ batch ∧ later ∈ batch ∧
    (earlier ∈ (metadata later).after ∨ later ∈ (metadata earlier).before)

instance (metadata : UnitId → Metadata) (batch : UnitSet) (earlier later : UnitId) :
    Decidable (Precedes metadata batch earlier later) :=
  inferInstanceAs (Decidable (_ ∧ _ ∧ (_ ∨ _)))

/-- The first unit has priority: its order is smaller, or its id is among units of one order. -/
def Ahead (metadata : UnitId → Metadata) (a b : UnitId) : Prop :=
  (metadata a).order.value < (metadata b).order.value ∨
    (metadata a).order.value = (metadata b).order.value ∧ compare a b = .lt

instance (metadata : UnitId → Metadata) (a b : UnitId) : Decidable (Ahead metadata a b) :=
  inferInstanceAs (Decidable (_ ∨ _ ∧ _))

/-- The batch sorted by order and id. -/
def priorityOrder (metadata : UnitId → Metadata) (batch : UnitSet) : List UnitId :=
  batch.toList.mergeSort fun a b => decide (a = b ∨ Ahead metadata a b)

variable {metadata : UnitId → Metadata} {batch : UnitSet}

/-- Units are listed in ascending order in one way. -/
theorem eq_of_ascending {l l' : List UnitId} (h : l.Pairwise (compare · · = .lt))
    (h' : l'.Pairwise (compare · · = .lt)) (hmem : ∀ unit, unit ∈ l ↔ unit ∈ l') : l = l' := by
  have hne : ∀ {a b : UnitId}, compare a b = .lt → a ≠ b := by
    rintro a _ hlt rfl
    exact Std.OrientedCmp.not_lt_of_lt hlt hlt
  have hperm : l.Perm l' := (List.perm_ext_iff_of_nodup (h.imp hne) (h'.imp hne)).mpr hmem
  refine hperm.eq_of_pairwise (fun a b _ _ hab hba => ?_) h h'
  exact absurd hba (Std.OrientedCmp.not_lt_of_lt hab)

/-! ### Priority -/

theorem Ahead.trans {a b c : UnitId} (hab : Ahead metadata a b) (hbc : Ahead metadata b c) :
    Ahead metadata a c := by
  rcases hab with hab | ⟨hab, hab'⟩
  · rcases hbc with hbc | ⟨hbc, -⟩
    · exact .inl (Int.lt_trans hab hbc)
    · exact .inl (hbc ▸ hab)
  · rcases hbc with hbc | ⟨hbc, hbc'⟩
    · exact .inl (hab ▸ hbc)
    · exact .inr ⟨hab.trans hbc, Std.TransCmp.lt_trans hab' hbc'⟩

theorem Ahead.asymm {a b : UnitId} (hab : Ahead metadata a b) : ¬ Ahead metadata b a := by
  rintro (hba | ⟨hba, hba'⟩)
  · rcases hab with hab | ⟨hab, -⟩ <;> omega
  · rcases hab with hab | ⟨-, hab'⟩
    · omega
    · exact Std.OrientedCmp.not_lt_of_lt hab' hba'

theorem ahead_or_ahead {a b : UnitId} (hne : a ≠ b) :
    Ahead metadata a b ∨ Ahead metadata b a := by
  unfold Ahead
  rcases Int.lt_trichotomy (metadata a).order.value (metadata b).order.value with h | h | h
  · exact .inl (.inl h)
  · cases hc : compare a b with
    | lt => exact .inl (.inr ⟨h, rfl⟩)
    | eq => exact absurd (Std.LawfulEqCmp.compare_eq_iff_eq.mp hc) hne
    | gt => exact .inr (.inr ⟨h.symm, Std.OrientedCmp.lt_of_gt hc⟩)
  · exact .inr (.inl h)

/-- Only the metadata of the two units matters. -/
theorem Ahead.congr {metadata' : UnitId → Metadata} {a b : UnitId} (ha : metadata a = metadata' a)
    (hb : metadata b = metadata' b) (hab : Ahead metadata a b) : Ahead metadata' a b := by
  unfold Ahead at hab ⊢
  rwa [ha, hb] at hab

/-- A batch is sorted by priority in one way. -/
theorem eq_of_pairwise_ahead {l l' : List UnitId} (h : l.Pairwise (Ahead metadata))
    (h' : l'.Pairwise (Ahead metadata)) (hperm : l.Perm l') : l = l' :=
  hperm.eq_of_pairwise (fun _ _ _ _ hab hba => absurd hba hab.asymm) h h'

theorem mem_priorityOrder {unit : UnitId} :
    unit ∈ priorityOrder metadata batch ↔ unit ∈ batch := by
  rw [priorityOrder, List.mem_mergeSort, Std.ExtTreeSet.mem_toList]

theorem nodup_priorityOrder : (priorityOrder metadata batch).Nodup :=
  (List.mergeSort_perm _ _).nodup_iff.mpr (nodup_toList batch)

theorem pairwise_priorityOrder : (priorityOrder metadata batch).Pairwise (Ahead metadata) := by
  have hsorted : (priorityOrder metadata batch).Pairwise
      fun a b => decide (a = b ∨ Ahead metadata a b) = true := by
    refine List.pairwise_mergeSort (fun a b c hab hbc => ?_) (fun a b => ?_) _
    · simp only [decide_eq_true_eq] at hab hbc ⊢
      rcases hab with rfl | hab
      · exact hbc
      · rcases hbc with rfl | hbc
        · exact .inr hab
        · exact .inr (hab.trans hbc)
    · simp only [Bool.or_eq_true, decide_eq_true_eq]
      by_cases heq : a = b
      · exact .inl (.inl heq)
      · exact (ahead_or_ahead heq).imp .inr .inr
  refine (hsorted.and nodup_priorityOrder).imp fun {a b} ⟨hab, hne⟩ => ?_
  exact (of_decide_eq_true hab).resolve_left hne

/-! ### The roots of a search -/

/-- Among distinct members no two stand before each other. -/
theorem not_sublist_swap {α : Type} {l : List α} {x y : α} (hnodup : l.Nodup)
    (hxy : List.Sublist [x, y] l) : ¬ List.Sublist [y, x] l := by
  intro hyx
  obtain ⟨l₁, l₂, rfl, hx, hy⟩ := List.cons_sublist_iff.mp hxy
  obtain ⟨r₁, r₂, heq, hy', hx'⟩ := List.cons_sublist_iff.mp hyx
  rw [List.singleton_sublist] at hy hx'
  have hdisjoint := List.disjoint_of_nodup_append hnodup
  rcases List.append_eq_append_iff.mp heq with ⟨t, rfl, rfl⟩ | ⟨t, rfl, rfl⟩
  · exact (List.disjoint_of_nodup_append (heq ▸ hnodup)) (List.mem_append_left t hx) hx'
  · exact hdisjoint (List.mem_append_left t hy') hy

/-- Of two members one stands before the other. -/
theorem sublist_or_sublist {α : Type} {l : List α} {x y : α} (hx : x ∈ l) (hy : y ∈ l)
    (hne : x ≠ y) : List.Sublist [x, y] l ∨ List.Sublist [y, x] l := by
  obtain ⟨l₁, l₂, rfl⟩ := List.append_of_mem hx
  rcases List.mem_append.mp hy with hy | hy
  · exact .inr (List.Sublist.append (List.singleton_sublist.mpr hy) (by simp))
  · have hy : y ∈ l₂ := (List.mem_cons.mp hy).resolve_left hne.symm
    exact .inl (((List.singleton_sublist.mpr hy).cons_cons x).trans (List.sublist_append_right _ _))

/-- Sorting is stable: what the list says about two members decides their ties. -/
theorem pairwise_mergeSort_ties {α : Type} {le : α → α → Bool} {R : α → α → Prop} {l : List α}
    (trans : ∀ a b c, le a b → le b c → le a c) (total : ∀ a b, le a b || le b a)
    (hnodup : l.Nodup) (h : l.Pairwise R) :
    (l.mergeSort le).Pairwise fun a b => le a b = true ∧ (le b a = true → R a b) := by
  have hsorted := List.pairwise_mergeSort trans total l
  have hnodup' : (l.mergeSort le).Nodup := (List.mergeSort_perm l le).nodup_iff.mpr hnodup
  rw [List.pairwise_iff_forall_sublist] at hsorted ⊢
  intro a b hab
  refine ⟨hsorted hab, fun hle => ?_⟩
  have hne : a ≠ b := List.pairwise_pair.mp (hab.nodup hnodup')
  have ha : a ∈ l := List.mem_mergeSort.mp (hab.subset (by simp))
  have hb : b ∈ l := List.mem_mergeSort.mp (hab.subset (by simp))
  rcases sublist_or_sublist ha hb hne with hl | hl
  · exact h.forall_sublist hl
  · exact absurd (List.pair_sublist_mergeSort trans total hle hl) (not_sublist_swap hnodup' hab)

/-- The roots of a search are in the order of priority. -/
theorem pairwise_byPriority (relations : Relations) :
    relations.byPriority.Pairwise (Ahead fun unit => relations.metadata.getD unit {}) := by
  rw [Relations.byPriority, List.pairwise_map]
  have hascending : relations.batch.toList.Pairwise (compare · · = .lt) :=
    Std.ExtTreeSet.ordered_toList
  have hids : (relations.batch.toList.map fun unit => (relations.orderOf unit, unit)).Pairwise
      fun a b => compare a.2 b.2 = .lt := List.pairwise_map.mpr hascending
  have hnodup : (relations.batch.toList.map fun unit => (relations.orderOf unit, unit)).Nodup :=
    (nodup_toList _).map fun _ _ h => congrArg Prod.snd h
  have hplaced : ∀ a ∈ relations.batch.toList.map (fun unit => (relations.orderOf unit, unit)),
      relations.orderOf a.2 = a.1 := by
    intro a ha
    obtain ⟨unit, -, rfl⟩ := List.mem_map.mp ha
    rfl
  refine (pairwise_mergeSort_ties ?_ ?_ hnodup hids).imp_of_mem fun {a b} ha hb ⟨hle, hties⟩ => ?_
  · intro a b c hab hbc
    exact decide_eq_true (Int.le_trans (of_decide_eq_true hab) (of_decide_eq_true hbc))
  · intro a b
    rw [Bool.or_eq_true, decide_eq_true_eq, decide_eq_true_eq]
    exact Int.le_total a.1.value b.1.value
  · have hle : a.1.value ≤ b.1.value := of_decide_eq_true hle
    have hties : b.1.value ≤ a.1.value → compare a.2 b.2 = .lt := fun h => hties (decide_eq_true h)
    rw [← hplaced a (List.mem_mergeSort.mp ha), ← hplaced b (List.mem_mergeSort.mp hb)] at hle hties
    rcases Int.lt_or_le (relations.orderOf a.2).value (relations.orderOf b.2).value with hlt | hge
    · exact .inl hlt
    · exact .inr ⟨Int.le_antisymm hle hge, hties hge⟩

theorem perm_byPriority (relations : Relations) :
    relations.byPriority.Perm relations.batch.toList := by
  refine ((List.mergeSort_perm _ _).map Prod.snd).trans (List.Perm.of_eq ?_)
  rw [List.map_map]
  exact List.map_id _

/-! ### The index of `before` declarations -/

/-- One `before` set of a batch member, entered target by target. -/
theorem mem_foldl_alter {unit a b : UnitId} : ∀ {targets : List UnitId}
    {declared : UnitMap UnitSet},
    b ∈ (targets.foldl (fun declared target =>
      if target ∈ batch then
        declared.alter target fun units => some ((units.getD ∅).insert unit)
      else declared) declared).getD a ∅ ↔
    (b = unit ∧ a ∈ batch ∧ a ∈ targets) ∨ b ∈ declared.getD a ∅
  | [], declared => by simp
  | target :: targets, declared => by
    rw [List.foldl_cons, mem_foldl_alter]
    by_cases hbatch : target ∈ batch
    · rw [if_pos hbatch, Std.ExtTreeMap.getD_alter, List.mem_cons]
      by_cases heq : target = a
      · subst heq
        rw [if_pos (Std.LawfulEqCmp.compare_eq_iff_eq.mpr rfl), Option.getD_some, mem_insert_iff,
          Std.ExtTreeMap.getD_eq_getD_getElem?]
        grind
      · rw [if_neg fun h => heq (Std.LawfulEqCmp.compare_eq_iff_eq.mp h)]
        grind
    · rw [if_neg hbatch, List.mem_cons]
      grind

/-- The index holds the batch members that name a batch member, and nothing else. -/
theorem mem_declaredBefore {memo : UnitMap Metadata} {a b : UnitId} :
    b ∈ (declaredBefore batch memo).getD a ∅ ↔
      b ∈ batch ∧ a ∈ batch ∧ a ∈ (memo.getD b {}).before := by
  have hfold : ∀ (units : List UnitId) (declared : UnitMap UnitSet),
      b ∈ (units.foldl (fun declared unit =>
        (memo.getD unit {}).before.toList.foldl (fun declared target =>
          if target ∈ batch then
            declared.alter target fun units => some ((units.getD ∅).insert unit)
          else declared) declared) declared).getD a ∅ ↔
      (b ∈ units ∧ a ∈ batch ∧ a ∈ (memo.getD b {}).before) ∨ b ∈ declared.getD a ∅ := by
    intro units
    induction units with
    | nil => intro declared; simp
    | cons unit units ih =>
      intro declared
      rw [List.foldl_cons, ih, mem_foldl_alter, Std.ExtTreeSet.mem_toList, List.mem_cons]
      grind
  rw [declaredBefore, hfold, Std.ExtTreeSet.mem_toList]
  simp

/-! ### Relations of a batch -/

@[simp] theorem Relations.of_batch (batch : UnitSet) (memo : UnitMap Metadata) :
    (Relations.of batch memo).batch = batch := rfl

section
variable {memo : UnitMap Metadata} (hmemo : ∀ unit ∈ batch, memo.getD unit {} = metadata unit)
include hmemo

theorem byPriority_eq : (Relations.of batch memo).byPriority = priorityOrder metadata batch := by
  have hperm := perm_byPriority (Relations.of batch memo)
  refine eq_of_pairwise_ahead ?_ pairwise_priorityOrder (hperm.trans (List.mergeSort_perm _ _).symm)
  refine (pairwise_byPriority (Relations.of batch memo)).imp_of_mem fun {a b} ha hb hab => ?_
  have hmem : ∀ {unit}, unit ∈ (Relations.of batch memo).byPriority → unit ∈ batch :=
    fun h => Std.ExtTreeSet.mem_toList.mp (hperm.mem_iff.mp h)
  exact hab.congr (hmemo a (hmem ha)) (hmemo b (hmem hb))

/-- The predecessors that a search finds in the batch are the units that precede. -/
theorem mem_predecessors {earlier later : UnitId} (hlater : later ∈ batch)
    (hearlier : earlier ∈ batch) :
    earlier ∈ (Relations.of batch memo).predecessors later ↔
      Precedes metadata batch earlier later := by
  rw [Relations.predecessors, Std.ExtTreeSet.mem_union_iff, Relations.of, mem_declaredBefore,
    hmemo later hlater, hmemo earlier hearlier]
  simp [Precedes, hlater, hearlier]

/-- Without those outside the batch, the predecessors are the units that precede. -/
theorem filter_predecessors {unit : UnitId} (hunit : unit ∈ batch) :
    ((Relations.of batch memo).predecessors unit).toList.filter (decide <| · ∈ batch) =
      batch.toList.filter (decide <| Precedes metadata batch · unit) := by
  refine eq_of_ascending (Std.ExtTreeSet.ordered_toList.filter _)
    (Std.ExtTreeSet.ordered_toList.filter _) fun x => ?_
  rw [List.mem_filter, List.mem_filter, Std.ExtTreeSet.mem_toList, Std.ExtTreeSet.mem_toList,
    decide_eq_true_eq, decide_eq_true_eq]
  constructor
  · rintro ⟨hpred, hx⟩
    exact ⟨hx, (mem_predecessors hmemo hunit hx).mp hpred⟩
  · rintro ⟨hx, hprecedes⟩
    exact ⟨(mem_predecessors hmemo hunit hx).mpr hprecedes, hx⟩

end

end ActivationOrder
