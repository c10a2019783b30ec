import ActivationOrder.Proofs.Dialogues
import ActivationOrder.Proofs.Remembering
import Mathlib.Data.List.Dedup
import Mathlib.Data.List.Induction

/-!
A cache keeps first answers. The source inside may answer every read differently, and whoever asks
the cache may be a sort, a check or a view that stops in the middle. With an account on either side
of the cache, one of the reads that it is asked for and one of those that it passes on, the second
is decided by the first: `passed`. `Serves` is one read of the cache, `Kept` is what reads one after
the other make of its entries.

Since requests come down to reads, a request that finds every unit it reads among the entries gets
its reply from these alone.
-/

namespace ActivationOrder

open Source (Leads)

/-- The reads that a cache passes on: those of units of which none before has succeeded. -/
def passed (asked : List Read) : List Read :=
  asked.foldl (fun passed read =>
    if passed.any fun earlier => earlier.unit = read.unit && earlier.answer.isOk then passed
    else passed ++ [read]) []

/-- What a cache holds after it has been asked for these reads: the answers of the successful reads
that it has passed on, which are one for each unit and are those that it has given. -/
structure Kept (asked : List Read) (entries : UnitMap Metadata) : Prop where
  once : ReadOnce (passed asked)
  entries_iff : ∀ unit metadata,
    entries[unit]? = some metadata ↔ ⟨unit, .ok metadata⟩ ∈ passed asked
  asked_iff : ∀ unit metadata, entries[unit]? = some metadata ↔ ⟨unit, .ok metadata⟩ ∈ asked

variable {σ : Type}

section

variable [Source σ]

/-- One read of a cache: the entries and the source inside, the read, the entries and the source
after it, and the reads that have been passed on to the source. -/
inductive Serves : UnitMap Metadata → σ → Read → UnitMap Metadata → σ → List Read → Prop
  | kept {entries : UnitMap Metadata} {source : σ} {unit : UnitId} {metadata : Metadata}
      (h : entries[unit]? = some metadata) :
      Serves entries source ⟨unit, .ok metadata⟩ entries source []
  | learned {entries : UnitMap Metadata} {source next : σ} {unit : UnitId} {metadata : Metadata}
      (h : entries[unit]? = none) (hread : Source.read source unit = (.ok metadata, next)) :
      Serves entries source ⟨unit, .ok metadata⟩ (entries.insert unit metadata) next
        [⟨unit, .ok metadata⟩]
  | failed {entries : UnitMap Metadata} {source next : σ} {unit : UnitId} {cause : MetadataError}
      (h : entries[unit]? = none) (hread : Source.read source unit = (.error cause, next)) :
      Serves entries source ⟨unit, .error cause⟩ entries next [⟨unit, .error cause⟩]

/-! ### Reads of the cache -/

theorem serves_read (entries : UnitMap Metadata) (inner : Recorded σ) (unit : UnitId) :
    ∃ answer after next new,
      Source.read (SourceTree.cached entries (.leaf inner)) unit =
        (answer, .cached after (.leaf ⟨next, inner.reads ++ new⟩)) ∧
      Serves entries inner.source ⟨unit, answer⟩ after next new := by
  change ∃ answer after next new, (SourceTree.cached entries (.leaf inner)).read unit = _ ∧ _
  rw [SourceTree.read]
  cases hentry : entries[unit]? with
  | some metadata => exact ⟨_, entries, inner.source, [], by simp, .kept hentry⟩
  | none =>
    rcases hread : Source.read inner.source unit with ⟨cause | metadata, next⟩
    · rw [SourceTree.read, Recorded.read_eq hread]
      exact ⟨_, entries, next, _, rfl, .failed hentry hread⟩
    · rw [SourceTree.read, Recorded.read_eq hread]
      exact ⟨_, _, next, _, rfl, .learned hentry hread⟩

theorem any_isOk_iff {reads : List Read} {unit : UnitId} :
    (reads.any fun earlier => earlier.unit = unit && earlier.answer.isOk) = true ↔
      ∃ metadata, ⟨unit, .ok metadata⟩ ∈ reads := by
  simp only [List.any_eq_true, Bool.and_eq_true, decide_eq_true_eq]
  constructor
  · rintro ⟨⟨u, _ | metadata⟩, hmem, rfl, hok⟩
    · cases hok
    · exact ⟨metadata, hmem⟩
  · rintro ⟨metadata, hmem⟩
    exact ⟨_, hmem, rfl, rfl⟩

theorem passed_concat_of_mem {asked : List Read} {read : Read} {metadata : Metadata}
    (h : ⟨read.unit, .ok metadata⟩ ∈ passed asked) : passed (asked ++ [read]) = passed asked := by
  rw [passed, List.foldl_concat]
  exact if_pos (any_isOk_iff.mpr ⟨metadata, h⟩)

theorem passed_concat_of_notMem {asked : List Read} {read : Read}
    (h : ∀ metadata, ⟨read.unit, .ok metadata⟩ ∉ passed asked) :
    passed (asked ++ [read]) = passed asked ++ [read] := by
  rw [passed, List.foldl_concat]
  exact if_neg fun hany => not_exists.mpr h (any_isOk_iff.mp hany)

/-- A read of a unit that has not been read successfully may follow. -/
theorem ReadOnce.concat {reads : List Read} {read : Read} (h : ReadOnce reads)
    (hfresh : ∀ metadata, ⟨read.unit, .ok metadata⟩ ∉ reads) : ReadOnce (reads ++ [read]) := by
  refine List.pairwise_append.mpr ⟨h, List.pairwise_singleton _ _, ?_⟩
  rintro ⟨unit, _ | metadata⟩ hearlier later hlater hok rfl
  · cases hok
  · rw [List.mem_singleton.mp hlater] at hearlier
    exact hfresh metadata hearlier

namespace Kept

variable {asked new : List Read} {entries after : UnitMap Metadata} {read : Read} {source next : σ}

theorem nil : Kept [] ∅ := ⟨.nil, by simp [passed], by simp⟩

/-- No unit without an entry has been read successfully. -/
theorem fresh (h : Kept asked entries) {unit : UnitId} (hunit : entries[unit]? = none)
    (metadata : Metadata) : ⟨unit, .ok metadata⟩ ∉ passed asked := by
  rw [← h.entries_iff, hunit]
  exact fun hsome => nomatch hsome

/-- The next read is passed on just when there is no entry for it, and the entries stay right. -/
theorem serves (h : Kept asked entries) (hserves : Serves entries source read after next new) :
    passed (asked ++ [read]) = passed asked ++ new ∧ Kept (asked ++ [read]) after := by
  cases hserves with
  | @kept unit metadata hunit =>
    have hpassed : passed (asked ++ [⟨unit, .ok metadata⟩]) = passed asked :=
      passed_concat_of_mem ((h.entries_iff _ _).mp hunit)
    refine ⟨by simpa using hpassed, hpassed ▸ h.once, hpassed ▸ h.entries_iff, fun u m => ?_⟩
    have hagain : u = unit ∧ m = metadata → entries[u]? = some m := by
      rintro ⟨rfl, rfl⟩
      exact hunit
    simpa [← h.asked_iff] using hagain
  | @learned _ unit metadata hunit hread =>
    have hpassed : passed (asked ++ [⟨unit, .ok metadata⟩]) = passed asked ++ [_] :=
      passed_concat_of_notMem (h.fresh hunit)
    have hinsert : ∀ u m, (entries.insert unit metadata)[u]? = some m ↔
        entries[u]? = some m ∨ u = unit ∧ m = metadata := by
      intro u m
      simp only [Std.ExtTreeMap.getElem?_insert, Std.LawfulEqCmp.compare_eq_iff_eq]
      split
      · next heq =>
        subst heq
        simp [hunit, eq_comm]
      · next hne => simp [Ne.symm hne]
    refine ⟨hpassed, hpassed ▸ h.once.concat (h.fresh hunit), fun u m => ?_, fun u m => ?_⟩
    · simp [hinsert, hpassed, h.entries_iff]
    · simp [hinsert, h.asked_iff]
  | @failed _ unit cause hunit hread =>
    have hpassed : passed (asked ++ [⟨unit, .error cause⟩]) = passed asked ++ [_] :=
      passed_concat_of_notMem (h.fresh hunit)
    refine ⟨hpassed, hpassed ▸ h.once.concat (h.fresh hunit), fun u m => ?_, fun u m => ?_⟩
    · simp [hpassed, h.entries_iff]
    · simp [h.asked_iff]

/-- There are as many entries as units of which a read has succeeded. -/
theorem size_eq (h : Kept asked entries) :
    entries.size = ((asked.filter (·.answer.isOk)).map (·.unit)).dedup.length := by
  have hmem : ∀ unit, unit ∈ entries.keys ↔
      unit ∈ ((asked.filter (·.answer.isOk)).map (·.unit)).dedup := by
    intro unit
    rw [List.mem_dedup, Std.ExtTreeMap.mem_keys, Std.ExtTreeMap.mem_iff_isSome_getElem?,
      Option.isSome_iff_exists]
    simp only [h.asked_iff]
    rw [← any_isOk_iff]
    simp [and_assoc, and_comm]
  rw [← Std.ExtTreeMap.length_keys]
  exact ((List.perm_ext_iff_of_nodup Std.ExtTreeMap.nodup_keys (List.nodup_dedup _)).mpr
    hmem).length_eq

end Kept

namespace SourceTree

/-- A cache with nothing in it, over a source whose reads are put on record. -/
def watched (source : σ) : SourceTree (Recorded σ) := .cache (.leaf ⟨source, []⟩)

/-- Such a cache with entries in it, when it has been asked for reads and has passed on what it had
to. -/
def holding (entries : UnitMap Metadata) (source : σ) (asked : List Read) :
    SourceTree (Recorded σ) :=
  .cached entries (.leaf ⟨source, passed asked⟩)

end SourceTree

open SourceTree (watched holding)

/-- One more read of a cache that has been kept right. -/
theorem Kept.read {asked : List Read} {entries : UnitMap Metadata} (h : Kept asked entries)
    {source : σ} {read : Read} {last : SourceTree (Recorded σ)}
    (hread : Source.read (holding entries source asked) read.unit = (read.answer, last)) :
    ∃ after next new, last = holding after next (asked ++ [read]) ∧
      Serves entries source read after next new ∧
      passed (asked ++ [read]) = passed asked ++ new ∧ Kept (asked ++ [read]) after := by
  obtain ⟨answer, after, next, new, hserved, hserves⟩ :=
    serves_read entries ⟨source, passed asked⟩ read.unit
  rw [holding, hserved] at hread
  cases hread
  obtain ⟨hpassed, hafter⟩ := h.serves hserves
  exact ⟨after, next, new, by rw [holding, hpassed], hserves, hpassed, hafter⟩

variable {source : σ} {asked : List Read}

/-- What a new cache has become when its reads have led on. -/
theorem kept_of_leads : ∀ {last : SourceTree (Recorded σ)}, Leads (watched source) asked last →
    ∃ entries next, last = holding entries next asked ∧ Kept asked entries := by
  induction asked using List.reverseRecOn with
  | nil =>
    rintro _ rfl
    exact ⟨∅, source, rfl, .nil⟩
  | append_singleton asked read ih =>
    intro last hleads
    obtain ⟨_, hbefore, hread⟩ := Source.leads_concat.mp hleads
    obtain ⟨entries, inner, rfl, hkept⟩ := ih hbefore
    obtain ⟨after, next, new, hlast, -, -, hafter⟩ := hkept.read hread
    exact ⟨after, next, hlast, hafter⟩

/-- Every read on the way, with the cache before and after it. -/
theorem serves_of_leads {last : SourceTree (Recorded σ)} (h : Leads (watched source) asked last)
    {earlier : List Read} {read : Read} (hearlier : earlier ++ [read] <+: asked) :
    ∃ before inner after next new,
      Leads (watched source) earlier (holding before inner earlier) ∧
      Leads (watched source) (earlier ++ [read]) (holding after next (earlier ++ [read])) ∧
      Kept earlier before ∧ Serves before inner read after next new ∧
      passed (earlier ++ [read]) = passed earlier ++ new := by
  obtain ⟨later, rfl⟩ := hearlier
  obtain ⟨mid, hmid, -⟩ := Source.leads_append.mp h
  obtain ⟨_, hbefore, hread⟩ := Source.leads_concat.mp hmid
  obtain ⟨before, inner, rfl, hkept⟩ := kept_of_leads hbefore
  obtain ⟨after, next, new, rfl, hserves, hpassed, -⟩ := hkept.read hread
  exact ⟨before, inner, after, next, new, hbefore, hmid, hkept, hserves, hpassed⟩

/-- A cache whose entries have all the answers is led on by them as it is. -/
theorem leads_of_entries {entries : UnitMap Metadata} {inner : SourceTree σ} :
    ∀ {reads : List Read}, (∀ read ∈ reads, ∃ metadata, read.answer = .ok metadata ∧
      entries[read.unit]? = some metadata) →
    Leads (SourceTree.cached entries inner) reads (.cached entries inner)
  | [], _ => rfl
  | read :: reads, h => by
    rw [List.forall_mem_cons] at h
    obtain ⟨⟨metadata, hok, hentry⟩, hrest⟩ := h
    refine ⟨.cached entries inner, ?_, leads_of_entries hrest⟩
    change (SourceTree.cached entries inner).read read.unit = _
    rw [SourceTree.read, hentry, hok]

end

/-! ### Views of the cache -/

namespace Dialogue

/-- What the views remember, the source has told; and their indexes are complete. -/
def Informed (dialogue : Dialogue (Recorded σ)) : Prop :=
  ∀ view ∈ dialogue.views, view.Indexed ∧ ∀ unit metadata, view.memo[unit]? = some metadata →
    ⟨unit, .ok metadata⟩ ∈ dialogue.source.reads

namespace Informed

variable {dialogue : Dialogue (Recorded σ)}

/-- More reads take nothing away. -/
theorem mono (h : dialogue.Informed) {recorded : Recorded σ} {reads : List Read}
    (hreads : recorded.reads = dialogue.source.reads ++ reads) :
    Informed ⟨recorded, dialogue.views⟩ := by
  intro view hview
  refine ⟨(h view hview).1, fun unit metadata hmemo => ?_⟩
  rw [hreads]
  exact List.mem_append_left _ ((h view hview).2 unit metadata hmemo)

/-- A view that has been asked is informed by the reads that account for what it has become. -/
theorem askView {α : Type} (h : dialogue.Informed) (number : Nat) (reply : α → Reply)
    (look : View → Recorded σ → α × View × Recorded σ)
    (hlook : ∀ view, view.Indexed → ∃ new,
      (look view dialogue.source).2.2.reads = dialogue.source.reads ++ new ∧
      view.Learns new (look view dialogue.source).2.1 ∧
      (look view dialogue.source).2.1.Indexed) :
    Informed (dialogue.askView number
      fun view source => (reply (look view source).1, (look view source).2)).2 := by
  rw [Dialogue.askView]
  cases hview : dialogue.views[number]? with
  | none => exact h
  | some view =>
    obtain ⟨hindexed, hmemo⟩ := h view (List.mem_of_getElem? hview)
    obtain ⟨new, hreads, hlearns, hseen⟩ := hlook view hindexed
    intro v hv
    rcases List.mem_or_eq_of_mem_set hv with hold | rfl
    · exact h.mono hreads v hold
    · refine ⟨hseen, fun unit metadata hsome => ?_⟩
      rw [hreads, List.mem_append]
      exact ((hlearns.memo_iff unit metadata).mp hsome).imp_left (hmemo unit metadata)

end Informed

variable [Source σ]

theorem informed_answer {dialogue : Dialogue (Recorded σ)} (h : dialogue.Informed)
    (request : Request) : (dialogue.answer request).2.Informed := by
  obtain ⟨reads, hleads⟩ := dialogue.exists_leads_answer request
  have hreads := Recorded.reads_eq hleads
  cases request with
  | read unit => exact h.mono hreads
  | covers unit => exact h
  | sort units => exact h.mono hreads
  | check units => exact h.mono hreads
  | view units =>
    have hnew : (View.ofUnits units).Indexed := by
      rintro _ ⟨⟩
    exact List.forall_mem_append.mpr
      ⟨h, List.forall_mem_singleton.mpr ⟨hnew, by simp [View.ofUnits]⟩⟩
  | contains number unit =>
    refine h.askView number .truth (fun view source => (view.batch.contains unit, view, source))
      fun view hindexed => ?_
    exact ⟨[], by simp, .refl view, hindexed⟩
  | get number unit =>
    refine h.askView number .metadata (fun view source => view.get source unit)
      fun view hindexed => ?_
    obtain ⟨new, haccounts, -⟩ := view.accounts_get dialogue.source unit
    exact ⟨new, haccounts.reads_eq, haccounts.learns, haccounts.indexed hindexed⟩
  | predecessors number unit =>
    refine h.askView number .predecessors (fun view source => view.predecessors source unit)
      fun view hindexed => ?_
    obtain ⟨new, haccounts, -⟩ := View.accounts_predecessors hindexed dialogue.source unit
    exact ⟨new, haccounts.reads_eq, haccounts.learns, haccounts.indexed hindexed⟩
  | external number =>
    refine h.askView number .external (fun view source => view.external source)
      fun view hindexed => ?_
    obtain ⟨new, haccounts, -⟩ := view.accounts_external dialogue.source
    exact ⟨new, haccounts.reads_eq, haccounts.learns, haccounts.indexed hindexed⟩

theorem informed_after : ∀ (requests : List Request) {dialogue : Dialogue (Recorded σ)},
    dialogue.Informed → (dialogue.after requests).Informed
  | [], _, h => h
  | request :: requests, _, h => informed_after requests (informed_answer h request)

end Dialogue

/-! ### Sessions -/

namespace Dialogue

variable [Source σ]

/-- A dialogue with a new cache over a source, with an account on either side of the cache. -/
def watched (source : σ) : Dialogue (Recorded (SourceTree (Recorded σ))) :=
  ⟨⟨.watched source, []⟩, []⟩

/-- A dialogue with a new cache over a source. -/
def cached (source : σ) : Dialogue (SourceTree σ) := ⟨.cache (.leaf source), []⟩

/-- The accounts change nothing. -/
theorem cached_eq_watched (source : σ) (requests : List Request) :
    (cached source).after requests =
        (((watched source).after requests).mirrored Recorded.source).mirrored
          (SourceTree.map Recorded.source) ∧
      (cached source).answers requests = (watched source).answers requests := by
  have hmap : Source.Mirrors (SourceTree.map (@Recorded.source σ)) :=
    SourceTree.mirrors_map Recorded.mirrors
  constructor
  · rw [← after_mirrors Recorded.mirrors, ← after_mirrors hmap]
    rfl
  · rw [← answers_mirrors Recorded.mirrors, ← answers_mirrors hmap]
    rfl

/-- A request that leads a cache through successful reads. From then on, the entries of the cache
alone give the reply. -/
theorem answer_of_entries {source : σ} {asked : List Read} {tree : SourceTree (Recorded σ)}
    (h : Leads (SourceTree.watched source) asked tree) (views : List View) {request : Request}
    (hcovers : ∀ unit, request ≠ .covers unit) :
    ∃ reply entries next new views', (mk (Recorded.mk tree asked) views).answer request =
        (reply, ⟨⟨.holding entries next (asked ++ new), asked ++ new⟩, views'⟩) ∧
      ((∀ read ∈ new, read.answer.isOk) →
        ∀ {τ : Type} [Source τ] (later : UnitMap Metadata) (other : SourceTree τ),
          (∀ (unit : UnitId) metadata, entries[unit]? = some metadata →
            later[unit]? = some metadata) →
          (mk (SourceTree.cached later other) views).answer request =
            (reply, ⟨.cached later other, views'⟩)) := by
  obtain ⟨new, ⟨last, reads⟩, ⟨reply, views'⟩, hleads, hanswer⟩ :=
    byReads_answer views hcovers _ (Recorded.mk tree asked)
  obtain rfl : reads = asked ++ new := Recorded.reads_eq hleads
  obtain ⟨entries, next, rfl, hkept⟩ := kept_of_leads
    (Source.leads_append.mpr ⟨tree, h, hleads.mirrors Recorded.mirrors⟩)
  refine ⟨reply, entries, next, new, views', hanswer hleads, fun hok τ _ later other hlater => ?_⟩
  refine hanswer (leads_of_entries fun read hread => ?_)
  rcases hread' : read with ⟨unit, cause | metadata⟩
  · have := hok read hread
    rw [hread'] at this
    cases this
  · have hentry := (hkept.asked_iff unit metadata).mpr
      (List.mem_append_right _ (hread' ▸ hread))
    exact ⟨metadata, rfl, hlater unit metadata hentry⟩

/-- A session of requests with a cache over a source whose answers may change with every read. -/
theorem session_keeps_first_answers (source : σ) (requests : List Request) :
    ∃ entries last asked views,
      (watched source).after requests = ⟨⟨.holding entries last asked, asked⟩, views⟩ ∧
      -- Nothing of this is different when no accounts are kept.
      (cached source).after requests = ⟨.cached entries (.leaf last), views⟩ ∧
      (cached source).answers requests = (watched source).answers requests ∧
      -- No unit is read from the source again after a success, and the entries are these answers.
      Kept asked entries ∧
      entries.size = ((asked.filter (·.answer.isOk)).map (·.unit)).dedup.length ∧
      -- So it is at every moment of the session, in the middle of a request or not: each read is
      -- given the entry of its unit, or is passed on and leaves an entry just when it succeeds.
      (∀ earlier read, earlier ++ [read] <+: asked → ∃ before inner after next new,
        Leads (SourceTree.watched source) earlier (.holding before inner earlier) ∧
        Leads (SourceTree.watched source) (earlier ++ [read])
          (.holding after next (earlier ++ [read])) ∧
        Kept earlier before ∧ Serves before inner read after next new ∧
        passed (earlier ++ [read]) = passed earlier ++ new) ∧
      -- What the views remember, with indexes made from all of a batch, is what the entries are.
      (∀ view ∈ views, view.Indexed ∧ ∀ (unit : UnitId) metadata,
        view.memo[unit]? = some metadata → entries[unit]? = some metadata) ∧
      -- And what comes next gets, unless one of its reads fails, the reply that the entries give it
      -- from then on, whatever source is inside.
      ∀ request, (∀ unit, request ≠ .covers unit) → ∃ reply held next new views',
        (mk (Recorded.mk (SourceTree.holding entries last asked) asked) views).answer request =
          (reply, ⟨⟨.holding held next (asked ++ new), asked ++ new⟩, views'⟩) ∧
        ((∀ read ∈ new, read.answer.isOk) →
          ∀ {τ : Type} [Source τ] (later : UnitMap Metadata) (other : SourceTree τ),
            (∀ (unit : UnitId) metadata, held[unit]? = some metadata →
              later[unit]? = some metadata) →
            (mk (SourceTree.cached later other) views).answer request =
              (reply, ⟨.cached later other, views'⟩)) := by
  have hstart : (watched source).Informed := by simp [Informed, watched]
  have hinformed := informed_after requests hstart
  obtain ⟨hplain, hanswers⟩ := cached_eq_watched source requests
  obtain ⟨asked, hleads⟩ := exists_leads_after requests (watched source)
  have hcache := hleads.mirrors Recorded.mirrors
  have hreads := Recorded.reads_eq hleads
  rcases hafter : (watched source).after requests with ⟨⟨tree, reads⟩, views⟩
  rw [hafter] at hinformed hplain hcache hreads
  obtain rfl : reads = asked := hreads
  obtain ⟨entries, last, rfl, hkept⟩ := kept_of_leads hcache
  refine ⟨entries, last, reads, views, rfl, hplain, hanswers, hkept, hkept.size_eq,
    fun earlier read hearlier => serves_of_leads hcache hearlier, fun view hview => ?_,
    fun request hcovers => answer_of_entries hcache views hcovers⟩
  obtain ⟨hindexed, hmemo⟩ := hinformed view hview
  exact ⟨hindexed, fun unit metadata hsome =>
    (hkept.asked_iff unit metadata).mpr (hmemo unit metadata hsome)⟩

end Dialogue

end ActivationOrder
