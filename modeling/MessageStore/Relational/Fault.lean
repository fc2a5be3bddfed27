/-!
# Faults of the relational engine

Why a statement or a query fails, and the wording.  A name is given as the
statement spells it where the statement asks for something, and as the database
spells it where a constraint refuses something.
-/

namespace MessageStore.Relational

/-- Why a statement fails, or why a database cannot be opened. -/
inductive Fault
  | noSuchTable (table : String)
  | noSuchColumn (column : String)
  /-- An insertion names a column that the table does not have. -/
  | unknownTarget (table column : String)
  | duplicateColumn (column : String)
  | tableExists (table : String)
  | viewExists (view : String)
  | indexExists (index : String)
  /-- A table or a view already has the name of a new index. -/
  | nameOfTable (name : String)
  /-- An index already has the name of a new table. -/
  | nameOfIndex (name : String)
  | viewIsFixed (view : String)
  | notNull (table column : String)
  | notUnique (table column : String)
  /-- The last row position has been used. -/
  | full
  | integerOverflow
  | notADatabase
  /-- The content of a database file has been replaced while it was in use. -/
  | malformed
  /-- A file cannot be opened; the path is told if it is the one that was asked for. -/
  | cannotOpen (path : Option String)
  | inputOutput
  /-- The database may only be read. -/
  | readOnly
  /-- Others use the database. -/
  | locked
  /-- The name of a database asks for a host. -/
  | foreignHost (host : String)
  | noSuchBackend (name : String)
  | noSuchSharing (name : String)
  | noSuchAccess (name : String)
  /-- Access to the database has been restricted before. -/
  | accessDenied (name : String)
  deriving DecidableEq, Repr

/-- The wording of a fault. -/
def Fault.message : Fault → String
  | noSuchTable table => "no such table: " ++ table
  | noSuchColumn column => "no such column: " ++ column
  | unknownTarget table column => "table " ++ table ++ " has no column named " ++ column
  | duplicateColumn column => "duplicate column name: " ++ column
  | tableExists table => "table " ++ table ++ " already exists"
  | viewExists view => "view " ++ view ++ " already exists"
  | indexExists index => "index " ++ index ++ " already exists"
  | nameOfTable name => "there is already a table named " ++ name
  | nameOfIndex name => "there is already an index named " ++ name
  | viewIsFixed view => "cannot modify " ++ view ++ " because it is a view"
  | notNull table column => "NOT NULL constraint failed: " ++ table ++ "." ++ column
  | notUnique table column => "UNIQUE constraint failed: " ++ table ++ "." ++ column
  | full => "database or disk is full"
  | integerOverflow => "integer overflow"
  | notADatabase => "file is not a database"
  | malformed => "database disk image is malformed"
  | cannotOpen none => "unable to open database file"
  | cannotOpen (some path) => "unable to open database file: " ++ path
  | inputOutput => "disk I/O error"
  | readOnly => "attempt to write a readonly database"
  | locked => "database is locked"
  | foreignHost host => "invalid uri authority: " ++ host
  | noSuchBackend name => "no such vfs: " ++ name
  | noSuchSharing name => "no such cache mode: " ++ name
  | noSuchAccess name => "no such access mode: " ++ name
  | accessDenied name => "access mode not allowed: " ++ name

/-- Whether a fault is found before a statement is carried out, from the names that it uses. -/
def Fault.isEarly : Fault → Bool
  | notNull _ _ => false
  | notUnique _ _ => false
  | full => false
  | integerOverflow => false
  | _ => true

end MessageStore.Relational
