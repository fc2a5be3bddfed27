import MessageStore.Relational.Table

/-!
# Cells of rows by name

What is found under a name in a row after cells have been replaced, one or
several, and which row is found among others that it has joined.
-/

namespace MessageStore.Relational

/-! ## One cell -/

/-- Replacing a cell changes what is found under its name, if anything, and nothing else. -/
theorem Row.lookup_put (row : Row) (name : String) (cell : Cell) (other : String) :
    (row.put name cell).cells.lookup other =
      (row.cells.lookup other).map fun old => if other = name then cell else old := by
  unfold Row.put
  induction row.cells with
  | nil => rfl
  | cons first rest ih =>
      rcases first with ⟨firstName, old⟩
      simp only [List.map_cons, List.lookup_cons]
      by_cases found : other = firstName
      · simp [found]
      · have unequal : (other == firstName) = false := by simpa using found
        simp only [unequal]
        exact ih

@[simp]
theorem Row.position_put (row : Row) (name : String) (cell : Cell) :
    (row.put name cell).position = row.position :=
  rfl

@[simp]
theorem Row.names_put (row : Row) (name : String) (cell : Cell) :
    (row.put name cell).cells.map Prod.fst = row.cells.map Prod.fst := by
  unfold put
  rw [List.map_map]
  rfl

/-! ## Several cells -/

/-- A cell that is replaced by those of its name, one after the other. -/
def overlaid (cells : List (String × Cell)) (name : String) (old : Cell) : Cell :=
  cells.foldl (fun old cell => if name = cell.1 then cell.2 else old) old

/-- Of a name that cells have, the cell before does not matter. -/
theorem overlaid_of_mem {cells : List (String × Cell)} {name : String}
    (member : name ∈ cells.map Prod.fst) (old other : Cell) :
    overlaid cells name old = overlaid cells name other := by
  induction cells generalizing old other with
  | nil => cases member
  | cons cell rest ih =>
      unfold overlaid
      rw [List.foldl_cons, List.foldl_cons]
      by_cases named : name = cell.1
      · rw [if_pos named, if_pos named]
      · rw [if_neg named, if_neg named]
        exact ih ((List.mem_cons.mp member).resolve_left named) old other

/-- A cell stays under a name that no other cell has. -/
theorem overlaid_of_not_mem {cells : List (String × Cell)} {name : String}
    (absent : name ∉ cells.map Prod.fst) (old : Cell) : overlaid cells name old = old := by
  induction cells with
  | nil => rfl
  | cons cell rest ih =>
      rw [List.map_cons, List.mem_cons, not_or] at absent
      unfold overlaid
      rw [List.foldl_cons, if_neg absent.1]
      exact ih absent.2

/-- A cell stays where all that would replace it are the same. -/
theorem overlaid_eq_self {cells : List (String × Cell)} {name : String} {old : Cell}
    (same : ∀ cell, (name, cell) ∈ cells → cell = old) : overlaid cells name old = old := by
  induction cells with
  | nil => rfl
  | cons cell rest ih =>
      have restSame := ih fun other member => same other (List.mem_cons_of_mem cell member)
      unfold overlaid
      rw [List.foldl_cons]
      split
      · rename_i named
        obtain rfl := same cell.2 (named ▸ List.mem_cons_self)
        exact restSame
      · exact restSame

/-- A row with several cells replaced, one after the other. -/
def Row.putAll (row : Row) (cells : List (String × Cell)) : Row :=
  cells.foldl (fun row cell => row.put cell.1 cell.2) row

theorem Row.putAll_eq (row : Row) (cells : List (String × Cell)) :
    row.putAll cells =
      { row with cells := row.cells.map fun (name, old) => (name, overlaid cells name old) } := by
  induction cells generalizing row with
  | nil =>
      change row = { row with cells := row.cells.map fun cell => cell }
      rw [List.map_id']
  | cons cell rest ih =>
      change (row.put cell.1 cell.2).putAll rest = _
      rw [ih, put]
      simp only [List.map_map]
      rfl

@[simp]
theorem Row.position_putAll (row : Row) (cells : List (String × Cell)) :
    (row.putAll cells).position = row.position := by
  rw [putAll_eq]

/-- Replacing cells changes what is found under their names, if anything, and nothing else. -/
theorem Row.lookup_putAll (row : Row) (cells : List (String × Cell)) (name : String) :
    (row.putAll cells).cells.lookup name = (row.cells.lookup name).map (overlaid cells name) := by
  induction cells generalizing row with
  | nil => exact Option.map_id'.symm
  | cons cell rest ih =>
      change ((row.put cell.1 cell.2).putAll rest).cells.lookup name = _
      rw [ih, lookup_put, Option.map_map]
      rfl

/-- Cells that are replaced by others of the same names leave no trace. -/
theorem Row.putAll_putAll (row : Row) {first second : List (String × Cell)}
    (covered : ∀ name ∈ first.map Prod.fst, name ∈ second.map Prod.fst) :
    (row.putAll first).putAll second = row.putAll second := by
  rw [putAll_eq, putAll_eq, putAll_eq, List.map_map]
  congr 2
  funext cell
  simp only [Function.comp_apply, Prod.mk.injEq, true_and]
  by_cases member : cell.1 ∈ second.map Prod.fst
  · exact overlaid_of_mem member _ _
  · rw [overlaid_of_not_mem (mt (covered cell.1) member)]

/-- Cells that a row has already change nothing. -/
theorem Row.putAll_eq_self (row : Row) {given : List (String × Cell)}
    (same : ∀ cell ∈ row.cells, ∀ other, (cell.1, other) ∈ given → other = cell.2) :
    row.putAll given = row := by
  have each : ∀ cell ∈ row.cells, (cell.1, overlaid given cell.1 cell.2) = id cell :=
    fun cell member => congrArg (Prod.mk cell.1) (overlaid_eq_self (same cell member))
  rw [putAll_eq]
  change { row with cells := row.cells.map fun cell => (cell.1, overlaid given cell.1 cell.2) } = row
  rw [List.map_congr_left each, List.map_id]

/-! ## Rows among others -/

/-- A row that joins others is the only one that can be found among them where the others cannot. -/
theorem Table.find?_insertOrdered {wanted : Row → Bool} {row : Row} {rows : List Row}
    (is : wanted row = true) (others : ∀ other ∈ rows, wanted other = false) :
    (insertOrdered row rows).find? wanted = some row := by
  induction rows with
  | nil => simp [insertOrdered, is]
  | cons first rest ih =>
      have firstNot := others first List.mem_cons_self
      have restNot := ih fun other member => others other (List.mem_cons_of_mem first member)
      unfold insertOrdered
      split
      · simp [is]
      · simp [firstNot, restNot]

end MessageStore.Relational
