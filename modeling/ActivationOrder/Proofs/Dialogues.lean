import ActivationOrder.Batch.Dialogue
import ActivationOrder.Proofs.Mirrors

/-!
A dialogue comes down to reads. Every request reads the source and does nothing else with it, except
that coverage is asked for by requests of its own. So a dialogue goes on alike with the mirror of
its source.
-/

namespace ActivationOrder

open Source (Leads Mirrors)

variable {σ τ : Type} [Source σ] [Source τ]

namespace Dialogue

/-- Asking a view comes down to reads when looking through it does. -/
theorem byReads_askView {α : Type} (views : List View) (number : Nat) (reply : α → Reply)
    (look : ∀ {τ : Type} [Source τ], View → τ → α × View × τ)
    (hlook : ∀ view, View.ByReads (look view ·)) :
    ByReads fun other (outcome : Reply × List View) last =>
      (mk other views).askView number
          (fun view source => (reply (look view source).1, (look view source).2)) =
        (outcome.1, ⟨last, outcome.2⟩) := by
  intro σ _ source
  cases hview : views[number]? with
  | none =>
    refine ⟨[], source, (.noView, views), rfl, ?_⟩
    rintro τ _ other _ rfl
    simp only [askView, hview]
  | some view =>
    obtain ⟨reads, next, ⟨answer, seen⟩, hleads, hanswer⟩ := hlook view σ source
    refine ⟨reads, next, (reply answer, views.set number seen), hleads, fun h => ?_⟩
    simp only [askView, hview, hanswer h]

/-- Every request comes down to reads, but for those that ask for coverage. -/
theorem byReads_answer (views : List View) {request : Request}
    (hcovers : ∀ unit, request ≠ .covers unit) :
    ByReads fun other (outcome : Reply × List View) last =>
      (mk other views).answer request = (outcome.1, ⟨last, outcome.2⟩) := by
  cases request with
  | read unit =>
    intro σ _ source
    rcases hread : Source.read source unit with ⟨answer, next⟩
    refine ⟨[⟨unit, answer⟩], next, (.metadata answer, views), ⟨next, hread, rfl⟩, ?_⟩
    rintro τ _ other _ ⟨last, hother, rfl⟩
    simp only [Dialogue.answer, hother]
  | covers unit => exact absurd rfl (hcovers unit)
  | sort units =>
    intro σ _ source
    obtain ⟨reads, next, order, hleads, hsort⟩ := byReads_sort units σ source
    refine ⟨reads, next, (.order order, views), hleads, fun h => ?_⟩
    simp only [answer, hsort h]
  | check units =>
    intro σ _ source
    obtain ⟨reads, next, report, hleads, hcheck⟩ := byReads_check units σ source
    refine ⟨reads, next, (.report report, views), hleads, fun h => ?_⟩
    simp only [answer, hcheck h]
  | view units =>
    intro σ _ source
    let view := View.ofUnits units
    refine ⟨[], source, (.opened view.batch, views ++ [view]), rfl, ?_⟩
    rintro τ _ other _ rfl
    rfl
  | contains number unit =>
    refine byReads_askView views number .truth
      (fun view source => (view.batch.contains unit, view, source)) fun view σ _ source => ?_
    refine ⟨[], source, (view.batch.contains unit, view), rfl, ?_⟩
    rintro τ _ other _ rfl
    rfl
  | get number unit =>
    exact byReads_askView views number .metadata (fun view source => view.get source unit)
      fun view => view.byReads_get unit
  | predecessors number unit =>
    exact byReads_askView views number .predecessors
      (fun view source => view.predecessors source unit) fun view => view.byReads_predecessors unit
  | external number =>
    exact byReads_askView views number .external (fun view source => view.external source)
      fun view => view.byReads_external

/-- The reads that answering a request leads through. -/
theorem exists_leads_answer (dialogue : Dialogue σ) (request : Request) :
    ∃ reads, Leads dialogue.source reads (dialogue.answer request).2.source := by
  by_cases hcovers : ∃ unit, request = .covers unit
  · obtain ⟨unit, rfl⟩ := hcovers
    exact ⟨[], rfl⟩
  · obtain ⟨reads, next, outcome, hleads, hanswer⟩ :=
      byReads_answer dialogue.views (not_exists.mp hcovers) σ dialogue.source
    exact ⟨reads, by rw [hanswer hleads]; exact hleads⟩

theorem exists_leads_after : ∀ (requests : List Request) (dialogue : Dialogue σ),
    ∃ reads, Leads dialogue.source reads (dialogue.after requests).source
  | [], _ => ⟨[], rfl⟩
  | request :: requests, dialogue => by
    obtain ⟨reads, hleads⟩ := dialogue.exists_leads_answer request
    obtain ⟨more, hmore⟩ := exists_leads_after requests (dialogue.answer request).2
    exact ⟨reads ++ more, Source.leads_append.mpr ⟨_, hleads, hmore⟩⟩

/-- The same dialogue with the mirror of its source. -/
def mirrored (f : σ → τ) (dialogue : Dialogue σ) : Dialogue τ := ⟨f dialogue.source, dialogue.views⟩

variable {f : σ → τ} (h : Mirrors f)
include h

theorem answer_mirrors (dialogue : Dialogue σ) (request : Request) :
    (dialogue.mirrored f).answer request =
      ((dialogue.answer request).1, (dialogue.answer request).2.mirrored f) := by
  by_cases hcovers : ∃ unit, request = .covers unit
  · obtain ⟨unit, rfl⟩ := hcovers
    simp only [answer, mirrored, h.covers_eq]
  · obtain ⟨outcome, next, hanswer, hmirror⟩ :=
      (byReads_answer dialogue.views (not_exists.mp hcovers)).exists_mirrors h dialogue.source
    rw [hanswer]
    exact hmirror

theorem after_mirrors : ∀ (requests : List Request) (dialogue : Dialogue σ),
    (dialogue.mirrored f).after requests = (dialogue.after requests).mirrored f
  | [], _ => rfl
  | request :: requests, dialogue => by
    rw [after, after, answer_mirrors h]
    exact after_mirrors requests _

theorem answers_mirrors : ∀ (requests : List Request) (dialogue : Dialogue σ),
    (dialogue.mirrored f).answers requests = dialogue.answers requests
  | [], _ => rfl
  | request :: requests, dialogue => by
    rw [answers, answers, answer_mirrors h, answers_mirrors requests]

end Dialogue

end ActivationOrder
