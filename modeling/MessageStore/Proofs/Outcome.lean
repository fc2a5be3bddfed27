import Mathlib.Data.List.Forall2
import MessageStore.Error

/-!
# Outcomes that are results

When an outcome that is put together from others is a result: all the outcomes
that it is put together from are results, and otherwise the first fault among them
is its error.  What only words an error differently does not change when there is a
result.
-/

namespace MessageStore

variable {ε α β : Type}

/-- One outcome after another is a result if both are. -/
theorem bind_eq_ok_iff {outcome : Except ε α} {next : α → Except ε β} {result : β} :
    (outcome >>= next) = .ok result ↔
      ∃ value, outcome = .ok value ∧ next value = .ok result := by
  cases outcome with
  | error error =>
      constructor
      · intro failed
        cases failed
      · rintro ⟨_, ⟨⟩, _⟩
  | ok value =>
      constructor
      · intro succeeded
        exact ⟨value, rfl, succeeded⟩
      · rintro ⟨_, ⟨⟩, succeeded⟩
        exact succeeded

/-- Outcomes for all elements of a list are one result if each of them is. -/
theorem mapM_of_ok {outcome : α → Except ε β} {value : α → β}
    (each : ∀ item, outcome item = .ok (value item)) (items : List α) :
    items.mapM outcome = .ok (items.map value) := by
  induction items with
  | nil => rfl
  | cons item rest ih =>
      rw [List.mapM_cons, each, ih]
      rfl

/-- Outcomes for the elements of a list depend on those of its elements only. -/
theorem mapM_congr {first second : α → Except ε β} {items : List α}
    (same : ∀ item ∈ items, first item = second item) : items.mapM first = items.mapM second := by
  induction items with
  | nil => rfl
  | cons item rest ih =>
      rw [List.mapM_cons, List.mapM_cons, same item List.mem_cons_self,
        ih fun other member => same other (List.mem_cons_of_mem item member)]

/-- Outcomes for all elements of a list are one result if each of them is the part of the result that
stands in the same place. -/
theorem mapM_eq_ok_iff {outcome : α → Except ε β} {items : List α} {results : List β} :
    items.mapM outcome = .ok results ↔
      List.Forall₂ (fun item result => outcome item = .ok result) items results := by
  induction items generalizing results with
  | nil =>
      rw [List.forall₂_nil_left_iff]
      change Except.ok [] = Except.ok results ↔ _
      rw [Except.ok.injEq, eq_comm]
  | cons item rest ih =>
      rw [List.mapM_cons, List.forall₂_cons_left_iff, bind_eq_ok_iff]
      constructor
      · rintro ⟨first, one, others⟩
        obtain ⟨later, tailed, ⟨⟩⟩ := bind_eq_ok_iff.mp others
        exact ⟨first, later, one, ih.mp tailed, rfl⟩
      · rintro ⟨first, later, one, tailed, rfl⟩
        exact ⟨first, one, bind_eq_ok_iff.mpr ⟨later, ih.mpr tailed, rfl⟩⟩

section Parts

variable {outcome : α → Except ε β} {items : List α} {results : List β}

/-- The parts of a result are those of the elements of the list. -/
theorem mem_of_mapM_eq_ok (succeeded : items.mapM outcome = .ok results) {result : β} :
    result ∈ results ↔ ∃ item ∈ items, outcome item = .ok result := by
  have parts := mapM_eq_ok_iff.mp succeeded
  clear succeeded
  induction parts with
  | nil => simp
  | cons same _ ih => simp [ih, same, eq_comm]

/-- Fewer elements in the same order have fewer parts of a result in the same order. -/
theorem sublist_of_mapM_eq_ok {fewer : List α} (some : fewer.Sublist items)
    (succeeded : items.mapM outcome = .ok results) :
    ∃ parts, fewer.mapM outcome = .ok parts ∧ parts.Sublist results := by
  have forall₂ := mapM_eq_ok_iff.mp succeeded
  clear succeeded
  induction some generalizing results with
  | slnil => exact ⟨[], rfl, List.nil_sublist _⟩
  | cons item _ ih =>
      obtain ⟨first, later, -, tailed, rfl⟩ := List.forall₂_cons_left_iff.mp forall₂
      obtain ⟨parts, read, shorter⟩ := ih tailed
      exact ⟨parts, read, shorter.cons first⟩
  | cons_cons item _ ih =>
      obtain ⟨first, later, one, tailed, rfl⟩ := List.forall₂_cons_left_iff.mp forall₂
      obtain ⟨parts, read, shorter⟩ := ih tailed
      refine ⟨first :: parts, ?_, shorter.cons_cons first⟩
      exact mapM_eq_ok_iff.mpr (.cons one (mapM_eq_ok_iff.mp read))

/-- Leaving elements of a list out leaves their parts of a result out. -/
theorem filter_of_mapM_eq_ok {wanted : α → Bool} {kept : β → Bool}
    (agree : ∀ item ∈ items, ∀ result, outcome item = .ok result → wanted item = kept result)
    (succeeded : items.mapM outcome = .ok results) :
    (items.filter wanted).mapM outcome = .ok (results.filter kept) := by
  have parts := (List.forall₂_and_left items results).mpr
    ⟨agree, mapM_eq_ok_iff.mp succeeded⟩
  refine mapM_eq_ok_iff.mpr ((List.rel_filter ?_ parts).imp fun _ _ part => part.2)
  intro item result part
  exact iff_of_eq (congrArg (· = true) (part.1 result part.2))

/-- Where every part of a result is still one once its element has been changed, the changed elements
have a result whose parts are related to those before. -/
theorem exists_related_of_mapM_eq_ok {change : α → α} {related : β → β → Prop}
    (each : ∀ item ∈ items, ∀ result, outcome item = .ok result →
      ∃ later, outcome (change item) = .ok later ∧ related result later)
    (succeeded : items.mapM outcome = .ok results) :
    ∃ laters, (items.map change).mapM outcome = .ok laters ∧
      List.Forall₂ related results laters := by
  have parts := mapM_eq_ok_iff.mp succeeded
  clear succeeded
  induction parts with
  | nil => exact ⟨[], rfl, .nil⟩
  | @cons item result _ _ read _ ih =>
      obtain ⟨later, readLater, relates⟩ := each item List.mem_cons_self result read
      obtain ⟨laters, others, relate⟩ :=
        ih fun other member => each other (List.mem_cons_of_mem item member)
      refine ⟨later :: laters, ?_, .cons relates relate⟩
      exact mapM_eq_ok_iff.mpr (.cons readLater (mapM_eq_ok_iff.mp others))

end Parts

/-! ## Values that there may be a fault with -/

/-- A value, or a fault if there is one. -/
def barring (fault : Option ε) (value : α) : Except ε α :=
  match fault with
  | none => .ok value
  | some error => .error error

section Faults

variable {fault rest : Option ε} {value : α}

theorem barring_eq_ok_iff {result : α} :
    barring fault value = .ok result ↔ fault = none ∧ value = result := by
  cases fault <;> simp [barring]

theorem barring_eq_error_iff {error : ε} :
    barring fault value = .error error ↔ fault = some error := by
  cases fault <;> simp [barring]

/-- Of the faults of one outcome after another, the first one counts. -/
theorem bind_eq_barring {outcome : Except ε α} {next : α → Except ε β} {result : β}
    (first : outcome = barring fault value) (later : next value = barring rest result) :
    (outcome >>= next) = barring (fault.or rest) result := by
  subst first
  cases fault with
  | none => exact later
  | some error => rfl

theorem findSome?_cons_eq_or (fault : α → Option ε) (item : α) (rest : List α) :
    (item :: rest).findSome? fault = (fault item).or (rest.findSome? fault) := by
  rw [List.findSome?_cons]
  cases fault item <;> rfl

/-- Of the faults of outcomes for all elements of a list, the first one counts. -/
theorem mapM_eq_barring {outcome : α → Except ε β} {fault : α → Option ε} {value : α → β}
    (each : ∀ item, outcome item = barring (fault item) (value item)) (items : List α) :
    items.mapM outcome = barring (items.findSome? fault) (items.map value) := by
  induction items with
  | nil => rfl
  | cons item rest ih =>
      rw [List.mapM_cons, List.findSome?_cons, List.map_cons, each, ih]
      cases fault item with
      | some error => rfl
      | none => cases rest.findSome? fault <;> rfl

end Faults

/-- A result stays what it is when an error is put in other words. -/
theorem mapError_eq_ok_iff {φ : Type} {outcome : Except ε α} {word : ε → φ} {value : α} :
    outcome.mapError word = .ok value ↔ outcome = .ok value := by
  cases outcome with
  | error error =>
      constructor <;> rintro ⟨⟩
  | ok result => simp [Except.mapError]

@[simp]
theorem ofEngine_ok (value : α) : ofEngine (.ok value) = .ok value :=
  rfl

@[simp]
theorem ofEngine_eq_ok_iff {outcome : Except Relational.Fault α} {value : α} :
    ofEngine outcome = .ok value ↔ outcome = .ok value :=
  mapError_eq_ok_iff

@[simp]
theorem during_eq_ok_iff {activity : String} {outcome : Except Error α} {value : α} :
    during activity outcome = .ok value ↔ outcome = .ok value :=
  mapError_eq_ok_iff

end MessageStore
