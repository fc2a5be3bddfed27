import MessageStore.Proofs.Relational.Ordering
import MessageStore.Proofs.Store.Reading

/-!
# Queries for messages

The queries that replays and lookups make, and what they come down to for a row
whatever it holds: by which of its cells it is wanted, and before which others it
stands.  A cell of any class compares with an integer, and stands before others or
behind them.
-/

namespace MessageStore.Store

open Relational (Cell Condition Database Query Row Selected Table Test)
open Schema (messageTable)

/-! ## Queries for messages -/

/-- What a query selects are rows of the table. -/
theorem mem_of_mem_rows {query : Query} {table : Table} {row : Row}
    (member : row ∈ query.rows table) : row ∈ table.rows := by
  have ordered {rows : List Row} (member : row ∈ if query.orderBy = [] then rows
      else rows.mergeSort (Query.precedes table query.orderBy)) : row ∈ rows := by
    split at member
    · exact member
    · exact List.mem_mergeSort.mp member
  unfold Query.rows at member
  simp only at member
  split at member
  · exact (List.mem_filter.mp (ordered (List.mem_of_mem_take member))).1
  · exact (List.mem_filter.mp (ordered member)).1

/-- A query for the messages in the rows that meet a condition. -/
def messageQuery (condition : Condition) : Query where
  table := messageTable
  columns := readColumns
  condition := some condition
  orderBy := replayOrder

/-- The rows that a query for messages selects, in the order of its result. -/
def chosenRows (db : Database) (condition : Condition) : List Row :=
  ((db.table? messageTable).map (messageQuery condition).rows).getD []

/-- A query for the first position of a topic with an ID. -/
def positionQuery (topic id : String) : Query where
  table := messageTable
  columns := ["id"]
  condition := some (ofMessage topic id)
  orderBy := ["id"]
  limit := some 1

/-- The rows that a subscriber of a topic is shown who has a marker, in the order in which they are
returned. -/
def shownRows (topic : String) (since : Since) (scheduled : Bool) (db : Database) : List Row :=
  match Replay.resolve since scheduled (position? db topic) with
  | .ok replay => ((replay.condition? topic).map (chosenRows db)).getD []
  | .error _ => []

/-- A condition that holds of the rows that are due at a time and not published. -/
def awaiting (now : Instant) : Condition :=
  .both (.compare "time" .atMost (secondCell now.seconds)) Replay.unpublished

/-- The rows that are due at a time and not published, in the order in which they are returned. -/
def dueRows (now : Instant) (db : Database) : List Row :=
  chosenRows db (awaiting now)

/-- The seconds of an instant fit into a cell. -/
theorem toInt_second (instant : Instant) :
    (Int64.ofInt instant.seconds).toInt = instant.seconds := by
  have lower := instant.earliest_le
  have upper := instant.le_latest
  unfold Instant.earliest at lower
  unfold Instant.latest at upper
  exact Int64.toInt_ofInt_of_le (by omega) (by omega)

/-- The condition of a replay names few columns. -/
theorem Replay.mem_names {topic : String} {condition : Condition} {replay : Replay}
    (found : replay.condition? topic = some condition) :
    ∀ name ∈ condition.names, name ∈ ["topic", "time", "id", "published"] := by
  intro name member
  cases replay with
  | nothing => cases found
  | fromSecond second scheduled | behind second scheduled =>
      cases found
      cases scheduled <;>
        simp [ofTopic, published, unpublished, Condition.names] at member <;>
        rcases member with rfl | rfl | rfl <;> simp

/-! ## What a row has under a name -/

/-- The integer that a row has under a name. -/
def integerOf (name : String) (row : Row) : Int64 :=
  match row.cells.lookup name with
  | some (.integer value) => value
  | _ => 0

/-- The text that a row has under a name. -/
def textOf (name : String) (row : Row) : String :=
  match row.cells.lookup name with
  | some (.text value) => value
  | _ => ""

/-- The cell that a row has under a name. -/
def cellUnder (name : String) (row : Row) : Cell :=
  (row.cells.lookup name).getD .null

/-- A row as a query for messages returns it. -/
def Current.named (row : Row) : Selected :=
  readColumns.map fun name => (name, (row.cells.lookup name).getD .null)

/-- What is read from a row. -/
def decode (row : Row) : Except Error Message :=
  readMessage (Current.named row)

instance (topic : String) (row : Row) : Decidable (OfTopic topic row) :=
  inferInstanceAs (Decidable (_ = _))

instance (id : String) (row : Row) : Decidable (OfId id row) :=
  inferInstanceAs (Decidable (_ = _))

instance (row : Row) : Decidable (IsPublished row) :=
  inferInstanceAs (Decidable (_ = _))

instance (row : Row) : Decidable (IsScheduled row) :=
  inferInstanceAs (Decidable (_ = _))

section Names

variable {row : Row} {name : String} {cell : Cell}

theorem cellUnder_of_lookup (found : row.cells.lookup name = some cell) :
    cellUnder name row = cell := by
  rw [cellUnder, found, Option.getD_some]

theorem cellAt_named {place : Nat} (found : readColumns[place]? = some name) :
    cellAt (Current.named row) place = (name, (row.cells.lookup name).getD .null) := by
  rw [cellAt, Current.named, List.getElem?_map, found]
  rfl

/-- The cell under a name is compared with an integer.  A null does not compare with anything. -/
def Compares (name : String) (test : Test) (value : Int64) (row : Row) : Prop :=
  cellUnder name row ≠ .null ∧ test.holds ((cellUnder name row).order (.integer value)) = true

instance (name : String) (test : Test) (value : Int64) (row : Row) :
    Decidable (Compares name test value row) :=
  inferInstanceAs (Decidable (_ ∧ _))

/-- An integer compares as integers do. -/
theorem compares_integer_iff {test : Test} {own value : Int64}
    (found : row.cells.lookup name = some (.integer own)) :
    Compares name test value row ↔ test.ofInts own.toInt value.toInt = true := by
  rw [Compares, cellUnder_of_lookup found, ← Test.holds_orderInt]
  exact and_iff_right nofun

/-- A cell cannot equal two integers. -/
theorem Compares.equal_unique {first second : Int64} (one : Compares name .equal first row)
    (other : Compares name .equal second row) : first = second := by
  have same : Cell.order (.integer first) (.integer second) = .eq := by
    rw [← eq_of_beq other.2]
    exact Std.TransCmp.congr_left (Std.OrientedCmp.eq_symm (eq_of_beq one.2))
  have equal := Test.holds_orderInt .equal first.toInt second.toInt
  rw [show Cell.orderInt first.toInt second.toInt = .eq from same] at equal
  exact Int64.toInt_inj.mp (of_decide_eq_true equal.symm)

end Names

/-! ## Orders of rows -/

/-- A row that stands before another one by the cells under the name of the time, or by their
positions if these cells are in no order. -/
def Precedes (first second : Row) : Prop :=
  (cellUnder "time" first).order (cellUnder "time" second) = .lt ∨
    (cellUnder "time" first).order (cellUnder "time" second) = .eq ∧
      first.position < second.position

theorem Precedes.asymm {first second : Row} (ahead : Precedes first second) :
    ¬ Precedes second first := by
  unfold Precedes at *
  rw [@Std.OrientedCmp.eq_swap _ Cell.order]
  simp only [Int64.lt_iff_toInt_lt] at *
  cases order : (cellUnder "time" first).order (cellUnder "time" second) <;>
    simp [order] at ahead ⊢
  omega

/-- Rows in strict order are told by which they are. -/
theorem eq_of_precedes {rows others : List Row} (perm : rows.Perm others)
    (ordered : rows.Pairwise Precedes) (otherOrdered : others.Pairwise Precedes) : rows = others :=
  List.Perm.eq_of_pairwise (fun _ _ _ _ ahead behind => absurd behind ahead.asymm) ordered
    otherOrdered perm

/-- The first row of a topic with an ID. -/
def firstRow? (db : Database) (topic id : String) : Option Row :=
  (messageRows db).find? fun row => OfTopic topic row ∧ OfId id row

/-- A row that a marker asks for where scheduled messages are wanted, by the cells that it has. -/
def Requested (db : Database) (topic : String) : Since → Row → Prop
  | .nothing, _ => False
  | .everything, row => Compares "time" .atLeast 0 row
  | .time instant, row => Compares "time" .atLeast (Int64.ofInt instant.seconds) row
  | .message id, row =>
      match firstRow? db topic id with
      | some first => first.position < row.position ∨ Compares "published" .equal 0 row
      | none => Compares "time" .atLeast 0 row

instance (db : Database) (topic : String) (since : Since) (row : Row) :
    Decidable (Requested db topic since row) :=
  match since with
  | .nothing => .isFalse id
  | .everything => inferInstanceAs (Decidable (Compares _ _ _ _))
  | .time _ => inferInstanceAs (Decidable (Compares _ _ _ _))
  | .message id =>
      match found : firstRow? db topic id with
      | some first =>
          decidable_of_iff (first.position < row.position ∨ Compares "published" .equal 0 row)
            (by simp only [Requested, found])
      | none => decidable_of_iff (Compares "time" .atLeast 0 row) (by simp only [Requested, found])

/-- A row that a subscriber is shown, by the cells that it has. -/
def Wanted (db : Database) (topic : String) (since : Since) (scheduled : Bool) (row : Row) : Prop :=
  OfTopic topic row ∧ Requested db topic since row ∧
    (scheduled = true ∨ Compares "published" .equal 1 row)

instance (db : Database) (topic : String) (since : Since) (scheduled : Bool) (row : Row) :
    Decidable (Wanted db topic since scheduled row) :=
  inferInstanceAs (Decidable (_ ∧ _))

end MessageStore.Store
