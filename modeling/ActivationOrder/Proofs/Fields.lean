import ActivationOrder.Proofs.DistinctKeys
import ActivationOrder.Schema.IndexDocument

/-!
Reading tables field by field. A record is read by a fold over the entries of a table, in which each
entry sets one field or is refused. So the fold succeeds when every entry is right by itself, and
when no key comes twice, a field of the record is what the entry of its key says.
-/

namespace ActivationOrder

open Toml (Value Entries)

/-! ### Folds -/

/-- What a reading goes on with succeeds when the reading does. -/
theorem bind_pure_eq_ok_iff {α β ε : Type} {answer : Except ε α} {f : α → β} {b : β} :
    (answer >>= fun a => pure (f a)) = (.ok b : Except ε β) ↔
      ∃ a, answer = .ok a ∧ b = f a := by
  cases answer <;> simp [bind, Except.bind, pure, Except.pure, eq_comm]

theorem foldlM_cons_eq_ok_iff {ι σ ε : Type} {step : σ → ι → Except ε σ} {item : ι}
    {items : List ι} {state last : σ} : (item :: items).foldlM step state = .ok last ↔
      ∃ next, step state item = .ok next ∧ items.foldlM step next = .ok last := by
  rw [List.foldlM_cons]
  cases step state item <;> simp [bind, Except.bind]

/-- A fold in which every item succeeds or fails by itself. -/
theorem exists_foldlM_ok_iff {ι σ ε : Type} {step : σ → ι → Except ε σ} {Right : ι → Prop}
    (h : ∀ state item, (∃ next, step state item = .ok next) ↔ Right item) {items : List ι}
    (state : σ) : (∃ last, items.foldlM step state = .ok last) ↔ ∀ item ∈ items, Right item := by
  induction items generalizing state with
  | nil => exact iff_of_true ⟨state, rfl⟩ (by simp)
  | cons item items ih =>
    rw [List.forall_mem_cons, ← h state item]
    simp only [foldlM_cons_eq_ok_iff]
    constructor
    · rintro ⟨last, next, hnext, hlast⟩
      exact ⟨⟨next, hnext⟩, (ih next).mp ⟨last, hlast⟩⟩
    · rintro ⟨⟨next, hnext⟩, hitems⟩
      obtain ⟨last, hlast⟩ := (ih next).mpr hitems
      exact ⟨last, next, hnext, hlast⟩

/-- The entry of the key `name` decides what a part of the state says, and no other entry changes
this part. -/
structure Sets {σ α ε : Type} (step : σ → String × Value → Except ε σ) (name : String)
    (part : σ → α) (Says : Option Value → α → Prop) : Prop where
  set : ∀ {state next : σ} {value : Value}, step state (name, value) = .ok next →
    Says (some value) (part next)
  keep : ∀ {state next : σ} {entry : String × Value}, step state entry = .ok next →
    entry.1 ≠ name → part next = part state

namespace Sets

variable {σ α ε : Type} {step : σ → String × Value → Except ε σ} {name : String} {part : σ → α}
  {Says : Option Value → α → Prop}

/-- Entries of other keys. -/
theorem keep_foldlM (h : Sets step name part Says) : ∀ {entries : Entries} {state last : σ},
    name ∉ entries.map (·.1) → entries.foldlM step state = .ok last → part last = part state
  | [], _, _, _, hfold => by
    cases hfold
    rfl
  | entry :: entries, state, last, hname, hfold => by
    rw [List.map_cons, List.mem_cons, not_or] at hname
    obtain ⟨next, hstep, hrest⟩ := foldlM_cons_eq_ok_iff.mp hfold
    rw [keep_foldlM h hname.2 hrest, h.keep hstep (Ne.symm hname.1)]

/-- When no key comes twice, the part says what is found under the key. -/
theorem foldlM (h : Sets step name part Says) : ∀ {entries : Entries} {state last : σ},
    (entries.map (·.1)).Nodup → entries.foldlM step state = .ok last → Says none (part state) →
    Says (entries.lookup name) (part last)
  | [], _, _, _, hfold, hstart => by
    cases hfold
    exact hstart
  | (key, value) :: entries, state, last, hnodup, hfold, hstart => by
    rw [List.map_cons, List.nodup_cons] at hnodup
    obtain ⟨next, hstep, hrest⟩ := foldlM_cons_eq_ok_iff.mp hfold
    rw [List.lookup_cons]
    split
    · next heq =>
      obtain rfl : name = key := eq_of_beq heq
      rw [h.keep_foldlM hnodup.1 hrest]
      exact h.set hstep
    · next hne =>
      have hkey : key ≠ name := fun heq => by simp [heq] at hne
      exact foldlM h hnodup.2 hrest (h.keep hstep hkey ▸ hstart)

end Sets

/-! ### Values -/

theorem decodeText_eq_ok_iff {value : Value} {text : String} :
    decodeText value = .ok text ↔ value = .string text := by
  cases value <;> simp [decodeText, Value.refuse]

theorem decodeVersion_eq_ok_iff {value : Value} {version : Nat} :
    decodeVersion value = .ok version ↔ value = .integer version ∧ version ≤ 4294967295 := by
  cases value with
  | integer number =>
    rw [decodeVersion]
    split
    · next h =>
      rw [Except.ok.injEq, Value.integer.injEq]
      omega
    · next h =>
      rw [Value.integer.injEq]
      refine iff_of_false (fun heq => nomatch heq) ?_
      rintro ⟨rfl, hle⟩
      omega
  | _ => simp [decodeVersion, Value.refuse]

theorem decodeOrder_eq_ok_iff {value : Value} {order : Order} :
    decodeOrder value = .ok order ↔ value = .integer order.value := by
  cases value with
  | integer number =>
    rw [Value.integer.injEq]
    constructor
    · intro h
      rw [decodeOrder] at h
      split at h
      · next found hfound =>
        cases h
        rw [Order.ofInt?] at hfound
        split at hfound
        · cases hfound
          rfl
        · cases hfound
      · cases h
    · rintro rfl
      rw [decodeOrder, Order.ofInt?_value]
  | _ => simp [decodeOrder, Value.refuse]

theorem decodeUnit_eq_ok_iff {value : Value} {unit : UnitId} :
    decodeUnit value = .ok unit ↔ value = .string unit.text := by
  cases value with
  | string text =>
    rw [Value.string.injEq, ← UnitId.ofString_eq_ok_iff]
    simp only [decodeUnit, decodeText, bind, Except.bind]
    cases UnitId.ofString text <;> simp
  | _ => simp [decodeUnit, decodeText, Value.refuse, bind, Except.bind]

/-- Ids are taken in one after the other, whatever was there before. -/
theorem foldlM_decodeUnit_eq_ok_iff {items : List Value} {start units : UnitSet} :
    items.foldlM (fun units item => return units.insert (← decodeUnit item)) start =
        (.ok units : Except DecodeError UnitSet) ↔
      (∀ item ∈ items, ∃ unit : UnitId, item = .string unit.text) ∧
        ∀ unit, unit ∈ units ↔ unit ∈ start ∨ .string unit.text ∈ items := by
  induction items generalizing start with
  | nil =>
    have hext : start = units ↔ ∀ unit, unit ∈ units ↔ unit ∈ start :=
      ⟨fun h unit => by rw [h], fun h => (Std.ExtTreeSet.ext_mem h).symm⟩
    simpa [pure, Except.pure] using hext
  | cons item items ih =>
    have hmem (first unit : UnitId) : (unit ∈ start.insert first ∨ .string unit.text ∈ items) ↔
        unit ∈ start ∨ .string unit.text ∈ .string first.text :: items := by
      rw [mem_insert_iff, List.mem_cons, Value.string.injEq, ← UnitId.ext_iff, or_assoc,
        or_left_comm]
    rw [foldlM_cons_eq_ok_iff, List.forall_mem_cons]
    simp only [bind_pure_eq_ok_iff, decodeUnit_eq_ok_iff]
    constructor
    · rintro ⟨_, ⟨first, rfl, rfl⟩, hrest⟩
      obtain ⟨hall, hunits⟩ := ih.mp hrest
      exact ⟨⟨⟨first, rfl⟩, hall⟩, fun unit => (hunits unit).trans (hmem first unit)⟩
    · rintro ⟨⟨⟨first, rfl⟩, hall⟩, hunits⟩
      exact ⟨_, ⟨first, rfl, rfl⟩,
        ih.mpr ⟨hall, fun unit => (hunits unit).trans (hmem first unit).symm⟩⟩

theorem decodeUnits_eq_ok_iff {value : Value} {units : UnitSet} :
    decodeUnits value = .ok units ↔ ∃ items, value = .array items ∧
      (∀ item ∈ items, ∃ unit : UnitId, item = .string unit.text) ∧
      ∀ unit, unit ∈ units ↔ .string unit.text ∈ items := by
  cases value with
  | array items =>
    rw [decodeUnits, foldlM_decodeUnit_eq_ok_iff]
    simp
  | _ => simp [decodeUnits, Value.refuse]

end ActivationOrder
