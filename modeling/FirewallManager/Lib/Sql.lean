import Mathlib.Data.List.Basic

/-!
# What PostgreSQL refuses before it runs a statement

PostgreSQL resolves the column names of a statement and compares the types of its values with those
of the columns before it looks at any row. A statement that fails there is refused whatever the
tables hold. This module has the two rules for the statements that need them.

A driver that sends a value as a parameter declares its type, so a parameter is no untyped literal:
it goes into a column of its own type, or into another one by a cast that the statement writes out.
The driver reads a column into a value by the same comparison.
-/

namespace Sql

/-- The types of columns and of values. -/
inductive SqlType where
  | uuid
  | text
  | bigint
  | jsonb
  | inet
  | timestamptz
  | enum (name : String)
  deriving DecidableEq, Repr

/-- Why a statement is refused or a row cannot be read: a column name that more than one relation
has (42702), one that none has (42703), and a value of another type than its column (42804). -/
inductive SqlError where
  | ambiguousColumn (name : String)
  | undefinedColumn (name : String)
  | datatypeMismatch (column : String) (expected given : SqlType)
  deriving DecidableEq, Repr

/-! ## Types -/

/-- A column of a statement, with its type and that of the value. A value with a written cast has
the type of the cast. -/
structure Binding where
  column : String
  columnType : SqlType
  valueType : SqlType
  deriving DecidableEq, Repr

/-- The types of the values are compared with those of the columns, in order. -/
def checkTypes : List Binding → Except SqlError Unit
  | [] => .ok ()
  | binding :: rest =>
    if binding.columnType = binding.valueType then checkTypes rest
    else .error (.datatypeMismatch binding.column binding.columnType binding.valueType)

/-! ## Names -/

/-- A column by its name, with the name of its relation if the statement writes one. -/
structure ColumnRef where
  relation : Option String
  column : String
  deriving DecidableEq, Repr

/-- The right side of an assignment in `DO UPDATE SET`. -/
inductive SetExpr where
  | column (ref : ColumnRef)
  | literal (value : Nat)
  | add (left right : SetExpr)
  deriving DecidableEq, Repr

/-- `INSERT INTO table (key, column) VALUES ($1, initial) ON CONFLICT (key) DO UPDATE SET column =
set RETURNING column`. -/
structure Upsert where
  table : String
  key : String
  column : String
  initial : Nat
  set : SetExpr
  deriving DecidableEq, Repr

namespace Upsert

variable (stmt : Upsert)

/-- The relations that `DO UPDATE SET` can name: the row of the table, and the row that was to be
inserted. Both have all columns of the table. -/
def scope : List (String × List String) :=
  [(stmt.table, [stmt.key, stmt.column]), ("excluded", [stmt.key, stmt.column])]

/-- The relation that a column name is about. -/
def resolve (ref : ColumnRef) : Except SqlError String :=
  let named := stmt.scope.filter fun relation =>
    decide (ref.column ∈ relation.2) && ref.relation.all fun name => decide (name = relation.1)
  match named with
  | [] => .error (.undefinedColumn ref.column)
  | [relation] => .ok relation.1
  | _ => .error (.ambiguousColumn ref.column)

/-- An expression as a function of the stored value and of the one that was to be inserted. -/
def analyse : SetExpr → Except SqlError (Nat → Nat → Nat)
  | .column ref => do
    let relation ← stmt.resolve ref
    .ok fun stored excluded => if relation = stmt.table then stored else excluded
  | .literal value => .ok fun _ _ => value
  | .add left right => do
    let left ← analyse left
    let right ← analyse right
    .ok fun stored excluded => left stored excluded + right stored excluded

/-- The value that is returned, and the rows after the statement. -/
def exec (key : String) (rows : List (String × Nat)) :
    Except SqlError (Nat × List (String × Nat)) := do
  let set ← stmt.analyse stmt.set
  match rows.lookup key with
  | some stored =>
    let value := set stored stmt.initial
    .ok (value, rows.map fun row => if row.1 = key then (key, value) else row)
  | none => .ok (stmt.initial, rows ++ [(key, stmt.initial)])

/-- Nothing of a refused statement depends on the rows. -/
theorem exec_of_analyse_error {e : SqlError} (h : stmt.analyse stmt.set = .error e) (key : String)
    (rows : List (String × Nat)) : stmt.exec key rows = .error e := by
  rw [exec, h]
  rfl

end Upsert

end Sql
