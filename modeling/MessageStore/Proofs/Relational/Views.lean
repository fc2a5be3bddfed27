import MessageStore.Proofs.Relational.Columns
import MessageStore.Relational.Query

/-!
# Tables that look alike

Two tables look alike if they find columns of the same kind under every name,
and have rows with the same positions and the same cells under every name, in
the same order.  The order of their columns, and what the columns give to new
rows, may differ.  Every query has the same result on both.
-/

namespace MessageStore.Relational

/-- What can be seen of a row: its position, and the cells under all names. -/
structure View where
  position : Int64
  cell? : String → Option Cell

/-- What can be seen of a row. -/
def Row.view (row : Row) : View :=
  ⟨row.position, fun name => row.cells.lookup name⟩

/-- What can be seen of a row beside the cells under some names. -/
def Row.viewBeside (hidden : List String) (row : Row) : View :=
  ⟨row.position, fun name => if name ∈ hidden then none else row.cells.lookup name⟩

theorem Row.viewBeside_nil (row : Row) : row.viewBeside [] = row.view := by
  simp [viewBeside, view]

theorem Row.viewBeside_eq_iff {hidden : List String} {row other : Row} :
    row.viewBeside hidden = other.viewBeside hidden ↔
      row.position = other.position ∧
        ∀ name ∉ hidden, row.cells.lookup name = other.cells.lookup name := by
  simp only [viewBeside, View.mk.injEq, funext_iff]
  refine and_congr_right fun _ => forall_congr' fun name => ?_
  by_cases isHidden : name ∈ hidden
  · simp [isHidden]
  · simp [isHidden]

/-- Rows that look the same beside some cells have the same cells in the other columns. -/
theorem Row.cell_congr {hidden : List String} {row other : Row} {column otherColumn : Column}
    (same : row.viewBeside hidden = other.viewBeside hidden) (visible : column.name ∉ hidden)
    (agree : column.bare = otherColumn.bare) : row.cell column = other.cell otherColumn := by
  obtain ⟨position, cells⟩ := Row.viewBeside_eq_iff.mp same
  obtain ⟨name, _, key⟩ := Column.of_bare_eq agree
  have lookup := cells column.name visible
  unfold Row.cell
  rw [position, key, lookup, name]

/-- Rows that look the same still do once a cell has been replaced alike. -/
theorem Row.view_put {row other : Row} (same : row.view = other.view) (name : String)
    (cell : Cell) : (row.put name cell).view = (other.put name cell).view := by
  obtain ⟨position, cells⟩ := View.mk.inj same
  unfold view
  rw [Row.position_put, Row.position_put, position]
  congr 1
  funext found
  have lookup : row.cells.lookup found = other.cells.lookup found := congrFun cells found
  rw [Row.lookup_put, Row.lookup_put, lookup]

/-! ## Lists that are seen to be the same -/

section Lists

variable {α β : Type} {view : α → β} {items others : List α}

/-- What is seen to be the same is mapped to the same. -/
theorem map_of_same_view {γ : Type} {f g : α → γ} (same : items.map view = others.map view)
    (agree : ∀ item other, view item = view other → f item = g other) :
    items.map f = others.map g := by
  induction items generalizing others with
  | nil =>
      rw [List.map_nil, eq_comm, List.map_eq_nil_iff] at same
      rw [same]
      rfl
  | cons item rest ih =>
      cases others with
      | nil => cases same
      | cons other otherRest =>
          obtain ⟨head, tail⟩ := List.cons.inj same
          rw [List.map_cons, List.map_cons, agree item other head, ih tail]

/-- What is seen to be the same is left or taken alike. -/
theorem filter_of_same_view {p q : α → Bool} (same : items.map view = others.map view)
    (agree : ∀ item other, view item = view other → p item = q other) :
    (items.filter p).map view = (others.filter q).map view := by
  induction items generalizing others with
  | nil =>
      rw [List.map_nil, eq_comm, List.map_eq_nil_iff] at same
      rw [same]
      rfl
  | cons item rest ih =>
      cases others with
      | nil => cases same
      | cons other otherRest =>
          obtain ⟨head, tail⟩ := List.cons.inj same
          have rests := ih tail
          by_cases taken : p item = true
          · have otherTaken := agree item other head
            rw [taken] at otherTaken
            rw [List.filter_cons_of_pos taken, List.filter_cons_of_pos otherTaken.symm,
              List.map_cons, List.map_cons, head, rests]
          · have otherLeft := agree item other head
            rw [Bool.not_eq_true] at taken
            rw [taken] at otherLeft
            rw [List.filter_cons_of_neg (by simp [taken]),
              List.filter_cons_of_neg (by simp [← otherLeft]), rests]

/-- What is seen to be the same is taken or changed alike. -/
theorem filterMap_of_same_view {f g : α → Option α} (same : items.map view = others.map view)
    (agree : ∀ item other, view item = view other → (f item).map view = (g other).map view) :
    (items.filterMap f).map view = (others.filterMap g).map view := by
  have each : items.map (fun item => (f item).map view) =
      others.map (fun other => (g other).map view) := map_of_same_view same agree
  have taken := congrArg (List.filterMap id) each
  rw [List.filterMap_map, List.filterMap_map] at taken
  rw [List.map_filterMap, List.map_filterMap]
  exact taken

/-- Lists that are seen to be the same are the halves of a list of pairs that are. -/
theorem exists_pairs_of_same_view (same : items.map view = others.map view) :
    ∃ pairs : List (α × α), pairs.map Prod.fst = items ∧ pairs.map Prod.snd = others ∧
      ∀ pair ∈ pairs, view pair.1 = view pair.2 := by
  have lengths : items.length = others.length := by
    simpa using congrArg List.length same
  refine ⟨items.zip others, List.map_fst_zip (by omega), List.map_snd_zip (by omega), ?_⟩
  intro pair member
  obtain ⟨index, bound, rfl⟩ := List.mem_iff_getElem.mp member
  have seen : (items.map view)[index]? = (others.map view)[index]? := by rw [same]
  rw [List.length_zip] at bound
  have inItems : index < items.length := by omega
  have inOthers : index < others.length := by omega
  simpa [inItems, inOthers] using seen

/-- The halves of a list of pairs are sorted like the list, if they are in one order. -/
theorem mergeSort_of_pairs {pairs : List (α × α)} {r s : α → α → Bool}
    (agree : ∀ pair ∈ pairs, ∀ next ∈ pairs, r pair.1 next.1 = s pair.2 next.2) :
    let sorted := pairs.mergeSort fun pair next => r pair.1 next.1
    sorted.map Prod.fst = (pairs.map Prod.fst).mergeSort r ∧
      sorted.map Prod.snd = (pairs.map Prod.snd).mergeSort s :=
  ⟨List.map_mergeSort fun _ _ _ _ => rfl, List.map_mergeSort agree⟩

/-- What is seen to be the same is sorted alike. -/
theorem mergeSort_of_same_view {r s : α → α → Bool} (same : items.map view = others.map view)
    (agree : ∀ item other, view item = view other → ∀ next otherNext, view next = view otherNext →
      r item next = s other otherNext) :
    (items.mergeSort r).map view = (others.mergeSort s).map view := by
  obtain ⟨pairs, rfl, rfl, seen⟩ := exists_pairs_of_same_view same
  obtain ⟨left, right⟩ := mergeSort_of_pairs (r := r) (s := s)
    fun pair member next nextMember =>
      agree pair.1 pair.2 (seen pair member) next.1 next.2 (seen next nextMember)
  rw [← left, ← right, List.map_map, List.map_map]
  apply List.map_congr_left
  intro pair member
  exact seen pair (List.mem_mergeSort.mp member)

end Lists

/-! ## Queries -/

/-- Tables that look alike beside the cells under some names. -/
structure Table.AlikeBeside (hidden : List String) (first second : Table) : Prop where
  name : first.name = second.name
  columns : ∀ name,
    (first.column? name).map Column.bare = (second.column? name).map Column.bare
  rows : first.rows.map (Row.viewBeside hidden) = second.rows.map (Row.viewBeside hidden)

/-- A name that does not find a column whose cells are hidden. -/
def Table.Visible (table : Table) (hidden : List String) (name : String) : Prop :=
  ∀ column, table.column? name = some column → column.name ∉ hidden

namespace Table.AlikeBeside

variable {hidden names : List String} {first second : Table} {row other : Row}

/-- Tables that look alike find columns of the same kind, or no columns. -/
theorem column? (alike : first.AlikeBeside hidden second) (name : String) :
    (first.column? name = none ∧ second.column? name = none) ∨
      ∃ column otherColumn, first.column? name = some column ∧
        second.column? name = some otherColumn ∧ column.bare = otherColumn.bare := by
  have same := alike.columns name
  cases found : first.column? name with
  | none =>
      rw [found, Option.map_none, eq_comm, Option.map_eq_none_iff] at same
      exact .inl ⟨rfl, same⟩
  | some column =>
      rw [found, Option.map_some, eq_comm, Option.map_eq_some_iff] at same
      obtain ⟨otherColumn, otherFound, agree⟩ := same
      exact .inr ⟨column, otherColumn, rfl, otherFound, agree.symm⟩

theorem isNone_column? (alike : first.AlikeBeside hidden second) (name : String) :
    (first.column? name).isNone = (second.column? name).isNone := by
  rcases alike.column? name with ⟨absent, otherAbsent⟩ | ⟨_, _, found, otherFound, _⟩
  · rw [absent, otherAbsent]
  · rw [found, otherFound]
    rfl

theorem requireColumns (alike : first.AlikeBeside hidden second) (names : List String) :
    Database.requireColumns first names = Database.requireColumns second names := by
  unfold Database.requireColumns
  simp only [alike.isNone_column?]

/-- Rows that look the same meet the same conditions on what is not hidden. -/
theorem holds (alike : first.AlikeBeside hidden second)
    (same : row.viewBeside hidden = other.viewBeside hidden) {condition : Condition}
    (visible : ∀ name ∈ condition.names, first.Visible hidden name) :
    condition.holds first row = condition.holds second other := by
  induction condition with
  | compare name test operand =>
      unfold Condition.holds
      rcases alike.column? name with ⟨absent, otherAbsent⟩ | ⟨column, _, found, otherFound, agree⟩
      · rw [absent, otherAbsent]
      · have cells := Row.cell_congr same (visible name List.mem_cons_self column found) agree
        rw [found, otherFound]
        simp only [cells, (Column.of_bare_eq agree).2.1]
  | both left right leftSame rightSame | either left right leftSame rightSame =>
      unfold Condition.holds
      rw [leftSame fun name member => visible name (List.mem_append_left _ member),
        rightSame fun name member => visible name (List.mem_append_right _ member)]

/-- Rows that look the same show the same in the columns that are read and not hidden. -/
theorem project (alike : first.AlikeBeside hidden second)
    (same : row.viewBeside hidden = other.viewBeside hidden)
    (visible : ∀ name ∈ names, first.Visible hidden name) :
    Query.project first names row = Query.project second names other := by
  refine List.filterMap_congr fun name member => ?_
  rcases alike.column? name with ⟨absent, otherAbsent⟩ | ⟨column, _, found, otherFound, agree⟩
  · rw [absent, otherAbsent]
    rfl
  · rw [found, otherFound, Option.map_some, Option.map_some,
      Row.cell_congr same (visible name member column found) agree, (Column.of_bare_eq agree).1]

/-- A query whose condition and order do not depend on what is hidden selects rows that look the
same. -/
theorem queryRows (alike : first.AlikeBeside hidden second) {query : Query}
    (visible : ∀ name ∈ (query.condition.map Condition.names).getD [] ++ query.orderBy,
      first.Visible hidden name) :
    (query.rows first).map (Row.viewBeside hidden) =
      (query.rows second).map (Row.viewBeside hidden) := by
  have met : (first.rows.filter fun row => query.condition.all (·.holds first row)).map
        (Row.viewBeside hidden) =
      (second.rows.filter fun row => query.condition.all (·.holds second row)).map
        (Row.viewBeside hidden) := by
    apply filter_of_same_view alike.rows
    intro row other same
    cases asked : query.condition with
    | none => rfl
    | some condition =>
        refine alike.holds same fun name member => visible name (List.mem_append_left _ ?_)
        rwa [asked]
  have ordered := mergeSort_of_same_view (r := Query.precedes first query.orderBy)
    (s := Query.precedes second query.orderBy) met (by
      have shown : ∀ name ∈ query.orderBy, first.Visible hidden name :=
        fun name member => visible name (List.mem_append_right _ member)
      intro row other same next otherNext nextSame
      unfold Query.precedes
      rw [alike.project same shown, alike.project nextSame shown])
  unfold Query.rows
  cases query.limit with
  | none =>
      simp only
      split
      · exact met
      · exact ordered
  | some limit =>
      simp only [List.map_take]
      split
      · rw [met]
      · rw [ordered]

/-- A query of what is not hidden has the same result on tables that look alike. -/
theorem run (alike : first.AlikeBeside hidden second) {query : Query} {db otherDb : Database}
    (visible : ∀ name ∈ query.names, first.Visible hidden name)
    (found : db.table? query.table = some first)
    (otherFound : otherDb.table? query.table = some second) :
    query.run db = query.run otherDb := by
  have selected : (query.rows first).map (Query.project first query.columns) =
      (query.rows second).map (Query.project second query.columns) := by
    refine map_of_same_view (alike.queryRows fun name member => visible name ?_) ?_
    · unfold Query.names
      rw [List.append_assoc]
      exact List.mem_append_right _ member
    · intro row other same
      refine alike.project same fun name member => visible name ?_
      exact List.mem_append_left _ (List.mem_append_left _ member)
  unfold Query.run
  rw [Database.readable_eq_ok_iff.mpr found, Database.readable_eq_ok_iff.mpr otherFound]
  change (do
    Database.requireColumns first query.names
    return (query.rows first).map (Query.project first query.columns)) = _
  rw [alike.requireColumns, selected]
  rfl

end Table.AlikeBeside

/-- Tables that look alike. -/
structure Table.Alike (first second : Table) : Prop where
  name : first.name = second.name
  columns : ∀ name,
    (first.column? name).map Column.bare = (second.column? name).map Column.bare
  rows : first.rows.map Row.view = second.rows.map Row.view

namespace Table.Alike

variable {first second : Table} {row other : Row}

/-- Tables that look alike do so where nothing is hidden. -/
theorem beside (alike : first.Alike second) : first.AlikeBeside [] second where
  name := alike.name
  columns := alike.columns
  rows := by
    rw [funext Row.viewBeside_nil]
    exact alike.rows

/-- Rows that look the same meet the same conditions. -/
theorem holds (alike : first.Alike second) (same : row.view = other.view) (condition : Condition) :
    condition.holds first row = condition.holds second other := by
  rw [← Row.viewBeside_nil, ← Row.viewBeside_nil] at same
  exact alike.beside.holds same fun _ _ _ _ => List.not_mem_nil

/-- An operand stands for the same in rows that look the same. -/
theorem operandCell (alike : first.Alike second) (same : row.view = other.view)
    (operand : Operand) :
    Database.operandCell first row operand = Database.operandCell second other operand := by
  cases operand with
  | cell value => rfl
  | column name =>
      rw [← Row.viewBeside_nil, ← Row.viewBeside_nil] at same
      rcases alike.beside.column? name with ⟨absent, otherAbsent⟩ |
        ⟨column, _, found, otherFound, agree⟩
      · simp only [Database.operandCell, absent, otherAbsent]
      · simp only [Database.operandCell, found, otherFound]
        exact Row.cell_congr same List.not_mem_nil agree

/-- Every query has the same result on tables that look alike. -/
theorem run (alike : first.Alike second) {query : Query} {db otherDb : Database}
    (found : db.table? query.table = some first)
    (otherFound : otherDb.table? query.table = some second) :
    query.run db = query.run otherDb :=
  alike.beside.run (fun _ _ _ _ => List.not_mem_nil) found otherFound

/-! ## Changes -/

/-- Rows that look the same still do once one more cell has been assigned alike. -/
theorem assignOne (alike : first.Alike second) (same : row.view = other.view)
    {changed otherChanged : Row} (changedSame : changed.view = otherChanged.view)
    (assignment : String × Operand) :
    (Database.assignOne first row changed assignment).view =
      (Database.assignOne second other otherChanged assignment).view := by
  unfold Database.assignOne
  rcases alike.beside.column? assignment.1 with ⟨absent, otherAbsent⟩ |
    ⟨column, _, found, otherFound, agree⟩
  · rw [absent, otherAbsent]
    exact changedSame
  · obtain ⟨name, affinity, _⟩ := Column.of_bare_eq agree
    rw [found, otherFound]
    simp only [alike.operandCell same, name, affinity]
    exact Row.view_put changedSame _ _

/-- Rows that look the same still do once cells have been assigned alike. -/
theorem assignRow (alike : first.Alike second) (same : row.view = other.view)
    (assignments : List (String × Operand)) :
    (Database.assignRow first assignments row).view =
      (Database.assignRow second assignments other).view := by
  rw [Database.assignRow_eq, Database.assignRow_eq]
  -- What has been changed already differs from the rows that operands refer to.
  have each : ∀ changed otherChanged : Row, changed.view = otherChanged.view →
      (assignments.foldl (Database.assignOne first row) changed).view =
        (assignments.foldl (Database.assignOne second other) otherChanged).view := by
    induction assignments with
    | nil =>
        intro changed otherChanged changedSame
        exact changedSame
    | cons assignment rest ih =>
        intro changed otherChanged changedSame
        rw [List.foldl_cons, List.foldl_cons]
        exact ih _ _ (alike.assignOne same changedSame assignment)
  exact each row other same

/-- An update of tables that look alike leaves tables that look alike. -/
theorem updated (alike : first.Alike second) (assignments : List (String × Operand))
    (condition : Option Condition) :
    (Database.updated first assignments condition).Alike
      (Database.updated second assignments condition) where
  name := alike.name
  columns := alike.columns
  rows := by
    unfold Database.updated
    rw [List.map_map, List.map_map]
    apply map_of_same_view alike.rows
    intro row other same
    have meets : Database.meets first condition row = Database.meets second condition other := by
      cases condition with
      | none => rfl
      | some condition => exact alike.holds same condition
    simp only [Function.comp_apply, meets]
    split
    · exact alike.assignRow same assignments
    · exact same

end Table.Alike

end MessageStore.Relational
