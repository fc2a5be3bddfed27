import MessageStore.Relational.Query

/-!
# Statements

The statements that build and change databases, as data, and batches of them.
A batch stops at the first statement that fails; a transaction then leaves the
database as it was.  Every change can meet a barrier, for instance because a
database may only be read: a batch then stops at the first statement that would
change something.
-/

namespace MessageStore.Relational

/-- A statement. -/
inductive Statement
  | createTable (name : String) (columns : List Column) (numbering : Numbering) (mayStay : Bool)
  | createIndex (name table : String)
  | addColumn (table : String) (column : Column)
  | insert (table : String) (given : List (String × Cell))
  | copyRows (target : String) (pairs : List (String × String)) (source : String)
  | update (table : String) (assignments : List (String × Operand)) (condition : Option Condition)
  | dropTable (name : String)
  | renameTable (name newName : String)
  deriving DecidableEq

namespace Statement

/-- Carry out a statement. -/
def exec (db : Database) : Statement → Except Fault Database
  | createTable name columns numbering mayStay => db.createTable name columns numbering mayStay
  | createIndex name table => db.createIndex name table
  | addColumn table column => db.addColumn table column
  | insert table given => db.insert table given
  | copyRows target pairs source => db.copyRows target pairs source
  | update table assignments condition => db.update table assignments condition
  | dropTable name => db.dropTable name
  | renameTable name newName => db.renameTable name newName

/-- Carry out statements in order. -/
def execAll (db : Database) : List Statement → Except Fault Database
  | [] => .ok db
  | statement :: rest => do execAll (← statement.exec db) rest

/-- Whether a statement changes nothing: a table that may be there already is there. -/
def isIdle (db : Database) : Statement → Bool
  | createTable name _ _ mayStay => mayStay && (db.table? name).isSome
  | _ => false

/-- Carry out statements in order where every change meets a fault.

The names that a statement uses are looked up first. -/
def execBarred (barrier : Fault) (db : Database) : List Statement → Except Fault Database
  | [] => .ok db
  | statement :: rest =>
      if statement.isIdle db then execBarred barrier db rest
      else
        match statement.exec db with
        | .error fault => .error (if fault.isEarly then fault else barrier)
        | .ok _ => .error barrier

/-- Carry out statements in order where changes meet the given fault, if any. -/
def execUnder (barrier : Option Fault) (db : Database) (statements : List Statement) :
    Except Fault Database :=
  match barrier with
  | none => execAll db statements
  | some fault => execBarred fault db statements

@[simp]
theorem execUnder_none (db : Database) (statements : List Statement) :
    execUnder none db statements = execAll db statements :=
  rfl

@[simp]
theorem execAll_nil (db : Database) : execAll db [] = .ok db :=
  rfl

theorem execAll_cons (db : Database) (statement : Statement) (rest : List Statement) :
    execAll db (statement :: rest) = (statement.exec db).bind fun next => execAll next rest :=
  rfl

end Statement

end MessageStore.Relational
