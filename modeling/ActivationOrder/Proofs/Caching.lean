import Mathlib
import ActivationOrder.Batch.Dialogue
import ActivationOrder.Proofs.Alike
import ActivationOrder.Source.Tree

/-!
Caches never show. A cache holds only what the source inside answers again, so a tree of sources
whose leaves are steady is alike to the tree without its caches, however deep these are: caches
answer reads alone, failed reads are not kept, and coverage is asked of the leaves. Sources that are
alike give the same replies to every dialogue, in which views live on from one request to the next.
-/

namespace ActivationOrder

open Source (Alike)

/-! ### Dialogues with sources that are alike -/

namespace Dialogue

variable {σ τ : Type} [Source σ] [Source τ] {source : σ} {source' : τ}

/-- Asking a view keeps two dialogues in step when asking this one view does. -/
theorem askView_alike (views : List View) (number : Nat) (h : Alike (fun _ => True) source source')
    {ask : View → σ → Reply × View × σ} {ask' : View → τ → Reply × View × τ}
    (hask : ∀ view, SameOutcome (fun _ => True) (ask view source) (ask' view source')) :
    ∃ reply views' next next', askView ⟨source, views⟩ number ask = (reply, ⟨next, views'⟩) ∧
      askView ⟨source', views⟩ number ask' = (reply, ⟨next', views'⟩) ∧
      Alike (fun _ => True) next next' := by
  rw [askView, askView]
  cases views[number]? with
  | none => exact ⟨_, _, _, _, rfl, rfl, h⟩
  | some view =>
    obtain ⟨reply, seen, next, next', hseen, hseen', hnext⟩ := hask view
    dsimp only
    rw [hseen, hseen']
    exact ⟨_, _, _, _, rfl, rfl, hnext⟩

/-- One request, asked of two sources that are alike. -/
theorem answer_alike (views : List View) (h : Alike (fun _ => True) source source')
    (request : Request) :
    ∃ reply views' next next',
      (Dialogue.mk source views).answer request = (reply, ⟨next, views'⟩) ∧
      (Dialogue.mk source' views).answer request = (reply, ⟨next', views'⟩) ∧
      Alike (fun _ => True) next next' := by
  cases request with
  | read unit =>
    have hunit : (fun _ : UnitId => True) unit := trivial
    obtain ⟨answer, next, next', hread, hread', hnext⟩ := h.exists_read hunit
    rw [Dialogue.answer, Dialogue.answer, hread, hread']
    exact ⟨_, _, _, _, rfl, rfl, hnext⟩
  | covers unit =>
    rw [answer, answer, h.covers_eq trivial]
    exact ⟨_, _, _, _, rfl, rfl, h⟩
  | sort units =>
    have hunits : ∀ u ∈ units, (fun _ : UnitId => True) u := fun _ _ => trivial
    obtain ⟨answer, next, next', hsort, hsort', hnext⟩ := sort_alike h hunits
    rw [Dialogue.answer, Dialogue.answer, hsort, hsort']
    exact ⟨_, _, _, _, rfl, rfl, hnext⟩
  | check units =>
    have hunits : ∀ u ∈ units, (fun _ : UnitId => True) u := fun _ _ => trivial
    obtain ⟨answer, next, next', hcheck, hcheck', hnext⟩ := check_alike h hunits
    rw [Dialogue.answer, Dialogue.answer, hcheck, hcheck']
    exact ⟨_, _, _, _, rfl, rfl, hnext⟩
  | view units => exact ⟨_, _, _, _, rfl, rfl, h⟩
  | contains number unit =>
    rw [Dialogue.answer, Dialogue.answer]
    refine askView_alike views number h fun view => ?_
    exact ⟨.truth (view.batch.contains unit), view, source, source', rfl, rfl, h⟩
  | get number unit =>
    rw [Dialogue.answer, Dialogue.answer]
    exact askView_alike views number h fun view => (view.get_alike h trivial).map Reply.metadata
  | predecessors number unit =>
    rw [Dialogue.answer, Dialogue.answer]
    exact askView_alike views number h fun view =>
      (View.predecessors_alike (fun _ _ => trivial) h trivial).map Reply.predecessors
  | external number =>
    rw [Dialogue.answer, Dialogue.answer]
    exact askView_alike views number h fun view =>
      (View.external_alike (fun _ _ => trivial) h).map Reply.external

/-- A whole dialogue with two sources that are alike. -/
theorem answers_alike : ∀ {requests : List Request} {views : List View} {source : σ} {source' : τ},
    Alike (fun _ => True) source source' →
    (Dialogue.mk source views).answers requests = (Dialogue.mk source' views).answers requests
  | [], _, _, _, _ => rfl
  | request :: requests, views, source, source', h => by
    obtain ⟨reply, views', next, next', hreply, hreply', hnext⟩ := answer_alike views h request
    rw [answers, answers, hreply, hreply', answers_alike hnext]

end Dialogue

/-! ### Trees with and without caches -/

/-- A source that answers for every unit the same, whatever it was asked for before. -/
def Source.Steady {σ : Type} [Source σ] (source : σ) : Prop := Alike (fun _ => True) source source

namespace SourceTree

variable {α : Type}

/-- The sources that a tree is built over. -/
def leaves : SourceTree α → List α
  | .leaf source => [source]
  | .layered index fallback => index.leaves ++ fallback.leaves
  | .cached _ inner => inner.leaves
  | .narrowed _ inner => inner.leaves

/-- A tree whose caches have nothing in them, as they are made. -/
def Fresh : SourceTree α → Prop
  | .leaf _ => True
  | .layered index fallback => index.Fresh ∧ fallback.Fresh
  | .cached entries inner => entries = ∅ ∧ inner.Fresh
  | .narrowed _ inner => inner.Fresh

/-- The tree without its caches. -/
def uncached : SourceTree α → SourceTree α
  | .leaf source => .leaf source
  | .layered index fallback => .layered index.uncached fallback.uncached
  | .cached _ inner => inner.uncached
  | .narrowed covered inner => .narrowed covered inner.uncached

variable [Source α]

/-- The second tree is the first without its caches, and each cache holds what is read without it.
The two need not have been asked for the same. -/
inductive Uncaches : SourceTree α → SourceTree α → Prop
  | leaf {source source' : α} (h : Alike (fun _ => True) source source') :
      Uncaches (.leaf source) (.leaf source')
  | layered {index index' fallback fallback' : SourceTree α} (hindex : Uncaches index index')
      (hfallback : Uncaches fallback fallback') :
      Uncaches (.layered index fallback) (.layered index' fallback')
  | cached {entries : UnitMap Metadata} {inner tree : SourceTree α} (h : Uncaches inner tree)
      (hentries : ∀ unit metadata, entries[unit]? = some metadata →
        (tree.read unit).1 = .ok metadata) :
      Uncaches (.cached entries inner) tree
  | narrowed (covered : UnitSet) {inner inner' : SourceTree α} (h : Uncaches inner inner') :
      Uncaches (.narrowed covered inner) (.narrowed covered inner')

namespace Uncaches

variable {tree tree' : SourceTree α} {unit : UnitId}

theorem covers_eq (h : Uncaches tree tree') : tree.covers unit = tree'.covers unit := by
  induction h with
  | leaf h => exact h.covers_eq trivial
  | layered _ _ ihindex ihfallback => rw [covers, covers, ihindex, ihfallback]
  | cached _ _ ih => exact ih
  | narrowed => rfl

theorem read_eq (h : Uncaches tree tree') : (tree.read unit).1 = (tree'.read unit).1 := by
  induction h with
  | leaf h => exact h.read_eq trivial
  | layered hindex _ ihindex ihfallback =>
    rw [read, read, hindex.covers_eq]
    split
    · exact ihindex
    · exact ihfallback
  | @cached entries inner tree _ hentries ih =>
    rw [read]
    cases hentry : entries[unit]? with
    | some metadata => exact (hentries unit metadata hentry).symm
    | none =>
      rw [← ih]
      rcases inner.read unit with ⟨_ | _, next⟩ <;> rfl
  | narrowed _ _ ih => exact ih

/-- A read of the tree with caches. What a cache takes in was read just now. -/
theorem left (h : Uncaches tree tree') : Uncaches (tree.read unit).2 tree' := by
  induction h with
  | leaf h => exact .leaf (h.left trivial)
  | @layered index _ _ _ hindex hfallback ihindex ihfallback =>
    rw [read]
    split
    · exact .layered ihindex hfallback
    · exact .layered hindex ihfallback
  | @cached entries inner tree hinner hentries ih =>
    rw [read]
    cases hentry : entries[unit]? with
    | some metadata => exact .cached hinner hentries
    | none =>
      rcases hread : inner.read unit with ⟨cause | metadata, next⟩
      · rw [hread] at ih
        exact .cached ih hentries
      · rw [hread] at ih
        refine .cached ih fun u m hm => ?_
        rw [Std.ExtTreeMap.getElem?_insert] at hm
        split at hm
        · next heq =>
          obtain rfl := Std.LawfulEqCmp.compare_eq_iff_eq.mp heq
          rw [← hinner.read_eq, hread, Option.some.inj hm]
        · exact hentries u m hm
  | narrowed covered _ ih => exact .narrowed covered ih

/-- A read of the tree without caches. What the caches hold stays right, because the tree with
caches, which was not read, answers as both states of the other. -/
theorem right (h : Uncaches tree tree') : Uncaches tree (tree'.read unit).2 := by
  induction h with
  | leaf h => exact .leaf (h.symm.left trivial).symm
  | @layered _ index' _ _ hindex hfallback ihindex ihfallback =>
    rw [read]
    split
    · exact .layered ihindex hfallback
    · exact .layered hindex ihfallback
  | cached hinner hentries ih =>
    refine .cached ih fun u m hm => ?_
    rw [← ih.read_eq, hinner.read_eq]
    exact hentries u m hm
  | narrowed covered _ ih => exact .narrowed covered ih

theorem alike (h : Uncaches tree tree') : Alike (fun _ => True) tree tree' :=
  .of_invariant Uncaches (fun _ _ _ h _ => h.covers_eq) (fun _ _ _ h _ => h.read_eq)
    (fun _ _ _ h _ => h.left) (fun _ _ _ h _ => h.right) h

end Uncaches

/-- Caches that have nothing in them hold nothing wrong. -/
theorem uncaches_uncached : ∀ {tree : SourceTree α}, tree.Fresh →
    (∀ leaf ∈ tree.leaves, Source.Steady leaf) → Uncaches tree tree.uncached
  | .leaf source, _, hleaves => .leaf (hleaves source (by simp [leaves]))
  | .layered index fallback, hfresh, hleaves => by
    rw [leaves, List.forall_mem_append] at hleaves
    exact .layered (uncaches_uncached hfresh.1 hleaves.1) (uncaches_uncached hfresh.2 hleaves.2)
  | .cached entries inner, ⟨hempty, hfresh⟩, hleaves =>
    .cached (uncaches_uncached hfresh hleaves) (by simp [hempty])
  | .narrowed covered inner, hfresh, hleaves => .narrowed covered (uncaches_uncached hfresh hleaves)

end SourceTree

/-- Every request of every dialogue with a tree of sources gets the reply that it gets without the
caches of the tree. -/
theorem answers_uncached {α : Type} [Source α] {tree : SourceTree α} (hfresh : tree.Fresh)
    (hleaves : ∀ leaf ∈ tree.leaves, Source.Steady leaf) (requests : List Request) :
    (Dialogue.mk tree []).answers requests = (Dialogue.mk tree.uncached []).answers requests :=
  Dialogue.answers_alike (SourceTree.uncaches_uncached hfresh hleaves).alike

/-- Reading an index or a directory of declarations changes neither. -/
theorem Store.steady (store : Store) : Source.Steady store := by
  have hread : ∀ unit, (Source.read store unit).2 = store := by
    intro unit
    rcases store with index | source <;> rfl
  exact .of_constant (fun _ _ => rfl) (fun _ _ => rfl) hread hread

namespace Sample

/-- Caches around and under two layers: the chain, and a directory in which nothing can be read. -/
def nested : SourceTree Store :=
  .cache (.layered (.cache (.leaf (.inl chain))) (.cache (.leaf (.inr ⟨⟨"units"⟩, default⟩))))

/-- A dialogue in which `b` cannot be read, neither at first nor later. -/
def questions : List Request :=
  [.read a, .check [a, b], .view [c, a], .predecessors 0 a, .read b, .sort [a, c]]

/-- What is wrong with `b`. -/
def missing : MetadataError := .unreadable b (.file ⟨"units/b.toml"⟩ .notFound)

end Sample

/-- Nothing sets the two dialogues apart: `b` fails in both whenever it is asked for, and the view
knows of it by what `a` says. A batch without it can be sorted. -/
theorem answers_uncached_nested :
    (Sample.nested.Fresh ∧ ∀ leaf ∈ Sample.nested.leaves, Source.Steady leaf) ∧
      (Dialogue.mk Sample.nested []).answers Sample.questions =
        (Dialogue.mk Sample.nested.uncached []).answers Sample.questions ∧
      ((Dialogue.mk Sample.nested []).answers Sample.questions)[1]? =
        some (.report (.error Sample.missing)) ∧
      ((Dialogue.mk Sample.nested []).answers Sample.questions)[3]? =
        some (.predecessors (.ok (.ofList [Sample.b]))) ∧
      ((Dialogue.mk Sample.nested []).answers Sample.questions)[4]? =
        some (.metadata (.error Sample.missing)) ∧
      (sort Sample.nested [Sample.a, Sample.c]).1 = .ok [Sample.a, Sample.c] ∧
      (Dialogue.mk Sample.nested.uncached []).answers [.sort [Sample.a, Sample.c]] =
        [.order (.ok [Sample.a, Sample.c])] := by
  have hfresh : Sample.nested.Fresh := ⟨rfl, ⟨rfl, trivial⟩, rfl, trivial⟩
  have hleaves : ∀ leaf ∈ Sample.nested.leaves, Source.Steady leaf := fun leaf _ => leaf.steady
  have hsorted : (sort Sample.nested [Sample.a, Sample.c]).1 = .ok [Sample.a, Sample.c] := by cbv
  refine ⟨⟨hfresh, hleaves⟩, answers_uncached hfresh hleaves _, rfl, rfl, rfl, hsorted, ?_⟩
  rw [← answers_uncached hfresh hleaves]
  exact congrArg (fun answer => [Reply.order answer]) hsorted

end ActivationOrder
