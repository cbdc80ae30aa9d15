import ObjectMapping.Statement

/-! The insertion of a record. Fields that the backend numbers are left to it while
they hold nothing, and unset nullable fields are left out unless required. -/
namespace ObjectMapping

/-- The insertion of a record into its table. -/
structure Insert where
  target : Storable

namespace Insert

/-- Whether the field is left to the backend because it holds no number yet. -/
def leftToBackend (f : Field) (v : Value) : Bool :=
  f.autoIncrement && (v.isNull || v.equal (.zero f.type))

/-- Whether the field is left out because it holds nothing. -/
def leftOut (f : Field) (v : Value) : Bool :=
  v.isNull && f.isNullable && f.mandatoriness != .required

/-- The column fields with their current values. -/
def currentValues (i : Insert) : Except Error (List (Field × Value)) :=
  i.target.descriptor.columns.mapM fun f => do
    let v ← f.get i.target.record
    return (f, v)

/-- The columns that are sent, by name, with their values. -/
def sent (values : List (Field × Value)) : List (String × Value) :=
  values.filterMap fun (f, v) =>
    if leftToBackend f v || leftOut f v then none else some (f.name, v)

/-- Whether the backend makes up the primary key. -/
def generatesKey (values : List (Field × Value)) : Bool :=
  values.any fun (f, v) => leftToBackend f v && f.primaryKey

/-- The text and the parameters of the insertion. -/
def bind (i : Insert) (dialect : Dialect) : Except Error BoundStatement := do
  let table := dialect.quoteIdentifier i.target.descriptor.table
  let columns := sent (← i.currentValues)
  if columns.isEmpty then return ⟨dialect.insertDefaults table, []⟩
  let names := ", ".intercalate (columns.map fun c => dialect.quoteIdentifier c.1)
  let places := ", ".intercalate
    ((List.range columns.length).map fun k => dialect.placeholder (k + 1))
  return ⟨"INSERT INTO " ++ table ++ " (" ++ names ++ ") VALUES (" ++ places ++ ")",
    columns.map (·.2)⟩

end Insert

end ObjectMapping
