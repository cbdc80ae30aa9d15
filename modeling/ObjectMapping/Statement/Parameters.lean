import ObjectMapping.Statement.Insert
import ObjectMapping.Statement.Update
import ObjectMapping.Expr.Term

/-! What the placeholders of a statement stand for. A database takes it from the text: the
values of an insertion go into the columns listed before them, and a value in an equation
belongs to the column on its left. The statement says which fields are meant. -/
namespace ObjectMapping

namespace Sql

/-- The names listed in the first parentheses. -/
def listed (ts : List Token) : List String :=
  let inside := (ts.dropWhile (· ≠ .sign "(")).takeWhile (· ≠ .sign ")")
  (quotedTexts inside).map (·.2)

/-- The names that are equated with a placeholder, in order. -/
def equated : List Token → List String
  | .quoted _ name :: .sign "=" :: .placeholder _ :: rest => name :: equated rest
  | _ :: rest => equated rest
  | [] => []

end Sql

/-- The placeholders of a text are numbered from one, the columns that a reader finds for them
are those of the fields, and the parameters are what the record holds in the fields. -/
structure BoundStatement.LinesUp (s : BoundStatement) (d : Dialect) (record : Record)
    (columns : List Sql.Token → List String) (fields : List Field) : Prop where
  read : ∃ ts, Sql.tokens d s.sql = some ts ∧
    Sql.placeholders ts = (List.range' 1 s.params.length).map d.placeholder ∧
    columns ts = fields.map Field.name
  bound : fields.mapM (·.get record) = .ok s.params

/-- The key of a keyed statement. -/
def Storable.boundKey (target : Storable) (byKey : Bool) : List Field :=
  if byKey then target.descriptor.primaryKey?.toList else []

namespace Insert

/-- Whether the value of the field is sent. -/
def sends (i : Insert) (f : Field) : Bool :=
  match f.get i.target.record with
  | .ok v => !(leftToBackend f v || leftOut f v)
  | .error _ => false

/-- The fields whose values the insertion binds. -/
def boundFields (i : Insert) : List Field := i.target.descriptor.columns.filter i.sends

end Insert

/-- The field whose value the assignment binds. -/
def Assignment.boundField? (a : Assignment) : Option Field :=
  match a.value with
  | .expr _ => none
  | .current => some a.column.field

namespace Update

/-- The fields whose values the update binds. -/
def boundFields (u : Update) : List Field :=
  u.sets.filterMap Assignment.boundField? ++ u.target.boundKey u.byKey

/-- The expressions of the update are those that the operations of the library build. -/
structure Constructed (u : Update) : Prop where
  sets : ∀ a ∈ u.sets, ∀ e, a.value = .expr e → e.Constructed
  filter : ∀ e ∈ u.filter, e.Constructed

end Update

namespace Delete

/-- The fields whose values the deletion binds. -/
def boundFields (x : Delete) : List Field := x.target.boundKey x.byKey

/-- The condition of the deletion is one that the operations of the library build. -/
def Constructed (x : Delete) : Prop := ∀ e ∈ x.filter, e.Constructed

end Delete

end ObjectMapping
