import ActivationOrder.Batch.View
import ActivationOrder.Source.Index

/-!
What a view has read. A source may answer differently from one read to the next, so "the metadata of
a batch" means what the source answers to this one sequence of reads. `Source.Answers` says so about
the source alone; a fresh view gets a whole batch exactly when the source answers for it, and then
remembers just these answers.
-/

namespace ActivationOrder

/-- The units of a request, in which duplicates count once. -/
abbrev batchOf (units : List UnitId) : UnitSet := (View.ofUnits units).batch

theorem mem_foldl_insert (unit : UnitId) : ∀ (units : List UnitId) (set : UnitSet),
    unit ∈ units.foldl (·.insert ·) set ↔ unit ∈ units ∨ unit ∈ set
  | [], set => by simp
  | u :: units, set => by
    rw [List.foldl_cons, mem_foldl_insert unit units, mem_insert_iff, List.mem_cons, or_left_comm,
      or_assoc]

@[simp] theorem mem_batchOf {unit : UnitId} {units : List UnitId} :
    unit ∈ batchOf units ↔ unit ∈ units := by
  simp [batchOf, View.ofUnits, mem_foldl_insert]

variable {σ : Type} [Source σ]

/-- The source answers reads of these units, one after the other, with this metadata. -/
def Source.Answers : σ → List UnitId → (UnitId → Metadata) → Prop
  | _, [], _ => True
  | source, unit :: units, metadata =>
    (Source.read source unit).1 = .ok (metadata unit) ∧
      Answers (Source.read source unit).2 units metadata

/-- Only the metadata of the units that are read matters. -/
theorem Source.Answers.congr {metadata metadata' : UnitId → Metadata} : ∀ {source : σ}
    {units : List UnitId}, (∀ unit ∈ units, metadata unit = metadata' unit) →
    Answers source units metadata → Answers source units metadata'
  | _, [], _, _ => trivial
  | _, _ :: _, heq, ⟨hread, hrest⟩ =>
    ⟨heq _ List.mem_cons_self ▸ hread, hrest.congr fun u hu => heq u (List.mem_cons_of_mem _ hu)⟩

namespace View

/-- The view after a successful read. -/
def remember (view : View) (unit : UnitId) (metadata : Metadata) : View :=
  { view with memo := view.memo.insert unit metadata }

theorem remember_memo (view : View) (unit u : UnitId) (metadata : Metadata) :
    (view.remember unit metadata).memo[u]? = if unit = u then some metadata else view.memo[u]? := by
  simp [remember, Std.ExtTreeMap.getElem?_insert, Std.LawfulEqCmp.compare_eq_iff_eq]

/-- A unit that is not remembered is read. -/
theorem getAll_cons {view : View} {source next : σ} {unit : UnitId} {metadata : Metadata}
    (hfresh : view.memo[unit]? = none) (hread : Source.read source unit = (.ok metadata, next))
    (units : List UnitId) :
    view.getAll source (unit :: units) = (view.remember unit metadata).getAll next units := by
  simp [getAll, get, hfresh, hread, remember]

theorem getAll_cons_error {view : View} {source next : σ} {unit : UnitId} {cause : MetadataError}
    (hfresh : view.memo[unit]? = none) (hread : Source.read source unit = (.error cause, next))
    (units : List UnitId) :
    view.getAll source (unit :: units) = (.error cause, view, next) := by
  simp [getAll, get, hfresh, hread]

/-- Reading distinct units leaves the later ones to be read. -/
theorem fresh_tail {view : View} {unit : UnitId} {units : List UnitId} (metadata : Metadata)
    (hnodup : (unit :: units).Nodup) (hfresh : ∀ u ∈ unit :: units, view.memo[u]? = none) :
    ∀ u ∈ units, (view.remember unit metadata).memo[u]? = none := by
  intro u hu
  have hne : unit ≠ u := fun heq => (List.nodup_cons.mp hnodup).1 (heq ▸ hu)
  rw [remember_memo, if_neg hne]
  exact hfresh u (List.mem_cons_of_mem _ hu)

/-- Answers are remembered as they were given. -/
theorem getAll_of_answers {metadata : UnitId → Metadata} : ∀ {view : View} {source : σ}
    {units : List UnitId}, units.Nodup → (∀ u ∈ units, view.memo[u]? = none) →
    Source.Answers source units metadata →
    ∃ after next, view.getAll source units = (.ok (), after, next) ∧ after.batch = view.batch ∧
      ∀ u, after.memo[u]? = if u ∈ units then some (metadata u) else view.memo[u]?
  | view, source, [], _, _, _ => ⟨view, source, rfl, rfl, by simp⟩
  | view, source, unit :: units, hnodup, hfresh, ⟨hread, hrest⟩ => by
    obtain ⟨after, next, hget, hbatch, hmemo⟩ := getAll_of_answers
      (List.nodup_cons.mp hnodup).2 (fresh_tail (metadata unit) hnodup hfresh) hrest
    refine ⟨after, next, ?_, hbatch, fun u => ?_⟩
    · rw [getAll_cons (hfresh unit List.mem_cons_self) (Prod.ext hread rfl), hget]
    · rw [hmemo, remember_memo]
      by_cases hu : u ∈ units
      · simp [hu]
      · by_cases heq : unit = u
        · simp [heq]
        · simp [hu, heq, Ne.symm heq]

/-- Getting every unit means that the source answered for every unit. -/
theorem answers_of_getAll : ∀ {view : View} {source : σ} {units : List UnitId}, units.Nodup →
    (∀ u ∈ units, view.memo[u]? = none) → (view.getAll source units).1 = .ok () →
    ∃ metadata, Source.Answers source units metadata
  | _, _, [], _, _, _ => ⟨fun _ => {}, trivial⟩
  | view, source, unit :: units, hnodup, hfresh, h => by
    have hunit : view.memo[unit]? = none := hfresh unit List.mem_cons_self
    rcases hread : Source.read source unit with ⟨cause | answer, next⟩
    · rw [getAll_cons_error hunit hread] at h
      cases h
    · rw [getAll_cons hunit hread] at h
      obtain ⟨metadata, hrest⟩ := answers_of_getAll (List.nodup_cons.mp hnodup).2
        (fresh_tail answer hnodup hfresh) h
      refine ⟨fun u => if u = unit then answer else metadata u, by simp [hread], ?_⟩
      rw [hread]
      refine hrest.congr fun u hu => (if_neg ?_).symm
      exact fun heq => (List.nodup_cons.mp hnodup).1 (heq ▸ hu)

theorem memo_ofUnits (units : List UnitId) (u : UnitId) :
    (ofUnits units).memo[u]? = none := by
  simp [ofUnits]

/-- A fresh view gets its batch from a source that answers, and has the answers. -/
theorem getBatch_of_answers {source : σ} {units : List UnitId} {metadata : UnitId → Metadata}
    (h : Source.Answers source (batchOf units).toList metadata) :
    ∃ view next, (ofUnits units).getBatch source = (.ok (), view, next) ∧
      view.batch = batchOf units ∧ ∀ u ∈ batchOf units, view.memo.getD u {} = metadata u := by
  obtain ⟨view, next, hget, hbatch, hmemo⟩ :=
    getAll_of_answers (nodup_toList _) (fun u _ => memo_ofUnits units u) h
  refine ⟨view, next, hget, hbatch, fun u hu => ?_⟩
  rw [Std.ExtTreeMap.getD_eq_getD_getElem?, hmemo,
    if_pos (Std.ExtTreeSet.mem_toList.mpr hu), Option.getD_some]

/-- A fresh view gets its batch only from a source that answers. -/
theorem answers_of_getBatch {source : σ} {units : List UnitId}
    (h : ((ofUnits units).getBatch source).1 = .ok ()) :
    ∃ metadata, Source.Answers source (batchOf units).toList metadata :=
  answers_of_getAll (nodup_toList _) (fun u _ => memo_ofUnits units u) h

end View

/-- An index answers for every unit. -/
theorem Index.answers (index : Index) : ∀ units : List UnitId,
    Source.Answers index units index.metadataOf
  | [] => trivial
  | _ :: units => ⟨rfl, Index.answers index units⟩

/-! Three units, and indexes that put them in a chain, in a circle and out of priority. -/

namespace Sample

def a : UnitId := ⟨"a", by decide⟩

def b : UnitId := ⟨"b", by decide⟩

def c : UnitId := ⟨"c", by decide⟩

/-- `c` before `b`, and `b` before `a`. -/
def chain : Index := .ofEntries [(a, { after := .ofList [b] }), (c, { before := .ofList [b] })]

/-- The chain, and `a` before `c`. -/
def circle : Index :=
  .ofEntries [(a, { after := .ofList [b] }), (c, { before := .ofList [b], after := .ofList [a] })]

/-- The first unit by priority waits for the last one. -/
def late : Index :=
  .ofEntries [(b, { order := .first }), (c, { order := .first, before := .ofList [b] })]

end Sample

end ActivationOrder
