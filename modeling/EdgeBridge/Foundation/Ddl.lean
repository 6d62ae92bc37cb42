import EdgeBridge.Foundation.Effect
import EdgeBridge.Foundation.PyValue

/-!
# Statements that add to a schema

The data definition of SQLite as far as it only adds: tables, columns and indexes, each of
them unless it is there already.  Names are compared without case.  A script is run in one
transaction, and each of its statements may fail.
-/

namespace EdgeBridge.Foundation.Ddl

def lowerCase (c : Nat) : Nat := if 65 ≤ c ∧ c ≤ 90 then c + 32 else c

def sameName (a b : Text) : Bool := a.map lowerCase == b.map lowerCase

inductive ColumnType where
  | integer
  | text
  deriving DecidableEq, Repr

/-- A column with its constraints; without a `DEFAULT` clause the default is `NULL`. -/
structure Column (V : Type) where
  name : Text
  type : ColumnType
  primaryKey : Bool
  notNull : Bool
  unique : Bool
  default : V
  deriving DecidableEq

/-- A table of a file: its columns, and its rows with a value for each of them. -/
structure Relation (V : Type) where
  columns : List (Column V)
  rows : List (List V)
  sized : ∀ row ∈ rows, row.length = columns.length

/-- A term of an index: a column, or its value with another one in the place of `NULL`. -/
inductive Term (V : Type) where
  | column (name : Text)
  | coalesce (name : Text) (value : V)

structure Index (V : Type) where
  table : Text
  unique : Bool
  terms : List (Term V)

structure Catalog (V : Type) where
  tables : List (Text × Relation V)
  indexes : List (Text × Index V)

inductive Statement (V : Type) where
  | createTable (name : Text) (columns : List (Column V))
  | addColumn (table : Text) (column : Column V)
  | createIndex (name : Text) (index : Index V)

/-- A statement, or the columns of a list that `PRAGMA table_info` does not show. -/
inductive Step (V : Type) where
  | execute (statement : Statement V)
  | ensureColumns (table : Text) (columns : List (Column V))

inductive SqlError where
  | noSuchTable (name : Text)
  | noSuchColumn (index : Text)
  | duplicateColumn (name : Text)
  | tableOfThatName (name : Text)
  | indexOfThatName (name : Text)
  | cannotAdd (name : Text)
  | uniqueConstraint (index : Text)
  | failed (message : Text)
  deriving DecidableEq

variable {V : Type}

/-! ## Reading -/

/-- The value of a named column. -/
def valueOf (columns : List (Column V)) (name : Text) (row : List V) : Option V :=
  ((columns.zip row).find? fun entry => sameName name entry.1.name).map Prod.snd

def Relation.has (relation : Relation V) (name : Text) : Bool :=
  relation.columns.any fun column => sameName name column.name

def Relation.empty (columns : List (Column V)) : Relation V := ⟨columns, [], by simp⟩

def Relation.add (relation : Relation V) (added : List (Column V)) : Relation V where
  columns := relation.columns ++ added
  rows := relation.rows.map fun row => row ++ added.map Column.default
  sized := by
    intro row hrow
    obtain ⟨old, hold, rfl⟩ := List.mem_map.mp hrow
    simp [relation.sized old hold]

def Term.name : Term V → Text
  | .column name => name
  | .coalesce name _ => name

namespace Catalog

def findTable (db : Catalog V) (name : Text) : Option (Relation V) :=
  (db.tables.find? fun entry => sameName name entry.1).map Prod.snd

def findIndex (db : Catalog V) (name : Text) : Option (Index V) :=
  (db.indexes.find? fun entry => sameName name entry.1).map Prod.snd

/-- `PRAGMA table_info`: the names of the columns, none without such a table. -/
def tableInfo (db : Catalog V) (table : Text) : List Text :=
  match db.findTable table with
  | some relation => relation.columns.map Column.name
  | none => []

def addColumn (db : Catalog V) (table : Text) (column : Column V) : Catalog V :=
  { db with
    tables := db.tables.map fun entry =>
      if sameName table entry.1 then (entry.1, entry.2.add [column]) else entry }

end Catalog

/-! ## Execution -/

section

variable [DecidableEq V] (null : V)

def Term.value (columns : List (Column V)) (row : List V) : Term V → V
  | .column name => (valueOf columns name row).getD null
  | .coalesce name value =>
      let stored := (valueOf columns name row).getD null
      if stored = null then value else stored

/-- No two rows have the same key; a key with a `NULL` is like no other. -/
def Relation.Distinct (relation : Relation V) (terms : List (Term V)) : Prop :=
  (relation.rows.map fun row => terms.map (Term.value null relation.columns row)).Pairwise
    fun a b => a = b → null ∈ a

instance (relation : Relation V) (terms : List (Term V)) :
    Decidable (relation.Distinct null terms) :=
  inferInstanceAs (Decidable (List.Pairwise _ _))

/-- `ALTER TABLE ... ADD COLUMN` allows no key, and no default of `NULL` where `NULL` is
not. -/
def Column.addable (column : Column V) : Bool :=
  !column.primaryKey && !column.unique && (!column.notNull || decide (column.default ≠ null))

/-- The catalog after a statement, and whether the statement has written. -/
def execute : Statement V → Catalog V → Except SqlError (Catalog V × Bool)
  | .createTable name columns, db =>
      if (db.findTable name).isSome then .ok (db, false)
      else if (db.findIndex name).isSome then .error (.indexOfThatName name)
      else .ok ({ db with tables := db.tables ++ [(name, .empty columns)] }, true)
  | .addColumn table column, db =>
      match db.findTable table with
      | none => .error (.noSuchTable table)
      | some relation =>
          if relation.has column.name then .error (.duplicateColumn column.name)
          else if column.addable null then .ok (db.addColumn table column, true)
          else .error (.cannotAdd column.name)
  | .createIndex name index, db =>
      match db.findTable index.table with
      | none => .error (.noSuchTable index.table)
      | some relation =>
          if (db.findTable name).isSome then .error (.tableOfThatName name)
          else if (db.findIndex name).isSome then .ok (db, false)
          else if (index.terms.all fun term => relation.has term.name) = false then
            .error (.noSuchColumn name)
          else if index.unique = true ∧ ¬ relation.Distinct null index.terms then
            .error (.uniqueConstraint name)
          else .ok ({ db with indexes := db.indexes ++ [(name, index)] }, true)

/-- An open transaction: what it has made of the file, whether it has written, and the
number of its calls. -/
structure Session (V : Type) where
  db : Catalog V
  wrote : Bool
  calls : Nat

/-- The exceptions of the calls that fail. -/
def Faults : Type := Nat → Option SqlError

def Faults.none : Faults := fun _ => .none

variable (faults : Faults)

/-- A call of the connection, which may fail. -/
def call (session : Session V) : Except SqlError (Session V) :=
  match faults session.calls with
  | some error => .error error
  | none => .ok { session with calls := session.calls + 1 }

def runStatement (session : Session V) (statement : Statement V) :
    Except SqlError (Session V) := do
  let session ← call faults session
  let (db, wrote) ← execute null statement session.db
  .ok { session with db := db, wrote := session.wrote || wrote }

def runStep (session : Session V) : Step V → Except SqlError (Session V)
  | .execute statement => runStatement null faults session statement
  | .ensureColumns table columns => do
      let session ← call faults session
      let existing := session.db.tableInfo table
      (columns.filter fun column => !existing.contains column.name).foldlM
        (fun session column => runStatement null faults session (.addColumn table column))
        session

/-- `BEGIN`, the steps, and `COMMIT`; an exception rolls the transaction back. -/
def runScript (steps : List (Step V)) : Effect (Catalog V) SqlError Bool :=
  .atomic fun file => do
    let session ← call faults ⟨file, false, 0⟩
    let session ← steps.foldlM (runStep null faults) session
    let session ← call faults session
    .ok (session.wrote, session.db)

end

end EdgeBridge.Foundation.Ddl
