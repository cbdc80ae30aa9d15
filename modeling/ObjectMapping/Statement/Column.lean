import ObjectMapping.Statement.Update

/-! What may be assigned to a column. A column is made for values of a shape, which is held against
the field by its tag and by how often it is nullable; the field itself takes the value or not. -/
namespace ObjectMapping

namespace Shape

/-- The value is no number outside the enumeration of the shape, if the shape has one. -/
def Names (own : Shape) (v : Value) : Prop :=
  ∀ e n, own.enumeration? = some e → v = .enum n ∨ v = .uint32 n → (e.nameOf? n).isSome

/-- Every number that stands for a value of the other shape is named by the enumeration of this one,
if this one has an enumeration. -/
def Covers (own wanted : Shape) : Prop :=
  ∀ e n, own.enumeration? = some e →
    (∀ other, wanted.enumeration? = some other → (other.nameOf? n).isSome) → (e.nameOf? n).isSome

end Shape

/-- What a statement assigns to the column for the content is a value, and one that the field of the
column takes in the record. -/
def TypedColumn.Takes (column : TypedColumn) (x : Datum) (r : Record) : Prop :=
  ∃ v changed, column.assign x = ⟨column.ref, .expr (.constant v)⟩ ∧
    column.ref.field.set r v = .ok changed

end ObjectMapping
