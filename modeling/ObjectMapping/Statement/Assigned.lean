import ObjectMapping.Statement.Keyed

/-! Which columns an update assigns. A database takes them from the text: the assignments are
what commas separate after `SET`, outside parentheses, and each begins with the name of a column
of the table after `UPDATE`. A column that is assigned was accepted for the type of the record;
of one type there may be several descriptors. -/
namespace ObjectMapping

namespace Sql

/-- The parts that a token separates outside parentheses, `depth` of them being open. -/
def splitFrom (separator : Token) : (depth : Nat) → List Token → List (List Token)
  | _, [] => [[]]
  | depth, t :: rest =>
    if t = separator ∧ depth = 0 then [] :: splitFrom separator 0 rest
    else (splitFrom separator (t.deepen depth) rest).modifyHead (t :: ·)

/-- The name on the left of an assignment. -/
def assignedName? : List Token → Option String
  | .quoted _ name :: .sign "=" :: _ => some name
  | _ => none

/-- The table of an update and the names on the left of its assignments. A clause that follows
the assignments is read as the end of the last one. -/
def updated? : List Token → Option (String × List String)
  | .word "UPDATE" :: .quoted _ table :: .word "SET" :: rest =>
    ((splitFrom (.sign ",") 0 rest).mapM assignedName?).map (table, ·)
  | _ => none

end Sql

/-- The name is that of a column field. -/
def Descriptor.HasColumn (d : Descriptor) (name : String) : Prop := ∃ f ∈ d.columns, f.name = name

namespace Update

/-- Every column that is assigned was accepted as one of the record's type, over any descriptor
of that type. -/
def Typed (u : Update) : Prop :=
  ∀ a ∈ u.sets, ∃ d wanted name column,
    TypedColumn.make d u.target.record.type wanted name = .ok column ∧ a.column = column.ref

/-- Every column that is assigned has the name of a column of the target. -/
def Targeted (u : Update) : Prop := ∀ a ∈ u.sets, u.target.descriptor.HasColumn a.column.name

end Update

/-- The statement is read as an update of the descriptor's table, and of nothing but columns of
the descriptor. -/
def BoundStatement.Targets (s : BoundStatement) (dialect : Dialect) (d : Descriptor) : Prop :=
  ∃ ts names, Sql.tokens dialect s.sql = some ts ∧ Sql.updated? ts = some (d.table, names) ∧
    ∀ name ∈ names, d.HasColumn name

end ObjectMapping
