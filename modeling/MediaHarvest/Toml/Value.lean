import MediaHarvest.Number.Real64

/-!
# TOML values

The values of a TOML document, and how a document is put together from its lines.  A table knows
how it came about, since that decides what may be added to it: a table in braces is complete, a
table that only stood on the way to another one may still be opened by a header, and a table that
dotted keys have made may only be extended by dotted keys and by the headers of tables in it.
-/

namespace MediaHarvest.Toml

open MediaHarvest.Number

/-- How a table came about. -/
inductive TableForm where
  /-- It stood on the way to another table. -/
  | implied
  | opened
  /-- It was made by a dotted key. -/
  | dotted
  | inline
deriving DecidableEq, Repr

/-- A value. -/
inductive Value where
  | text (value : String)
  | integer (value : Int)
  | real (value : Real64)
  | bool (value : Bool)
  /-- A date or a time of day, in its usual form. -/
  | moment (text : String)
  /-- An array; one that headers have made may be extended by them. -/
  | array (isExtensible : Bool) (items : List Value)
  | table (form : TableForm) (entries : List (String × Value))
deriving Repr

/-- A table that is being put together. -/
structure Table where
  form : TableForm
  /-- Its entries, the first one first. -/
  entries : List (String × Value)
deriving Repr

namespace Table

/-- A new table. -/
def new (form : TableForm) : Table := ⟨form, []⟩

instance : Inhabited Table := ⟨new .opened⟩

/-- The table as a value. -/
def value (table : Table) : Value := .table table.form table.entries

/-- The value of a key. -/
def get? (table : Table) (key : String) : Option Value := table.entries.lookup key

/-- The table with another value for a key that it has. -/
def replace (table : Table) (key : String) (value : Value) : Table :=
  { table with
    entries := table.entries.map fun entry => if entry.1 = key then (key, value) else entry }

/-- The table with a new key. -/
def add (table : Table) (key : String) (value : Value) : Table :=
  { table with entries := table.entries ++ [(key, value)] }

/-- Changes the table that a path leads to, and makes the tables that are missing.  By a dotted key
no table can be entered that a header has opened. -/
def within (byKey : Bool) (edit : Table → Option Table) : List String → Table → Option Table
  | [], table => edit table
  | key :: rest, table =>
      match table.get? key with
      | none => do
          let inner ← within byKey edit rest (new (if byKey then .dotted else .implied))
          return table.add key inner.value
      | some (.table form entries) => do
          guard (form ≠ .inline ∧ ¬(byKey = true ∧ form = .opened))
          let inner ← within byKey edit rest ⟨form, entries⟩
          return table.replace key inner.value
      | some (.array true items) =>
          match items.getLast? with
          | some (.table form entries) => do
              let inner ← within byKey edit rest ⟨form, entries⟩
              return table.replace key (.array true (items.dropLast ++ [inner.value]))
          | _ => none
      | _ => none

/-- Gives a value to a key, which must not have one.  A dotted key has to end in a table that
dotted keys have made, any other key must not. -/
def assign (keys : List String) (value : Value) (table : Table) : Option Table := do
  let key ← keys.getLast?
  let way := keys.dropLast
  let put (inner : Table) : Option Table := do
    guard ((inner.form = .dotted) ↔ way ≠ [])
    guard (inner.get? key).isNone
    return inner.add key value
  within true put way table

/-- Opens the table that a header names. -/
def openTable (keys : List String) (table : Table) : Option Table := do
  let key ← keys.getLast?
  let put (outer : Table) : Option Table :=
    match outer.get? key with
    | none => some (outer.add key (new .opened).value)
    | some (.table .implied entries) => some (outer.replace key (.table .opened entries))
    | _ => none
  within false put keys.dropLast table

/-- Adds a table to the array that a header names. -/
def openItem (keys : List String) (table : Table) : Option Table := do
  let key ← keys.getLast?
  let put (outer : Table) : Option Table :=
    match outer.get? key with
    | none => some (outer.add key (.array true [(new .opened).value]))
    | some (.array true items) =>
        some (outer.replace key (.array true (items ++ [(new .opened).value])))
    | _ => none
  within false put keys.dropLast table

/-- Gives a value to a key below a header. -/
def assignBelow (header keys : List String) (value : Value) (table : Table) : Option Table :=
  within false (assign keys value) header table

end Table

end MediaHarvest.Toml
