import ObjectMapping.Typing

/-! What reading a slot and writing the value back leaves of the slot's content. There is one value
for absence, so that a slot that is set to something absent is unset afterwards. -/
namespace ObjectMapping

namespace Shape

/-- Slots of the shape may hold what reads as null. -/
inductive Blank : Shape → Prop where
  | variant : Blank .variant
  | nullable (s : Shape) : Blank (.nullable s)

/-- Nowhere in the shape may something absent stand where a value may be unset. -/
inductive Unambiguous : Shape → Prop where
  | plain (p : PlainShape) : Unambiguous (.plain p)
  | enum (e : Enumeration) : Unambiguous (.enum e)
  | record (type : TypeName) : Unambiguous (.record type)
  | variant : Unambiguous .variant
  | nullable (something : ¬Blank s) (inside : Unambiguous s) : Unambiguous (.nullable s)
  | list (each : Unambiguous s) : Unambiguous (.list s)

end Shape

namespace Datum

/-- Nothing in the datum is set to something that reads as null. -/
inductive Clear : Datum → Prop where
  | scalar (s : Scalar) : Clear (.scalar s)
  | record (r : Record) : Clear (.record r)
  | vacant : Clear .vacant
  | occupied (r : Record) : Clear (.occupied r)
  | unset : Clear .unset
  | present (something : d.toValue.isNull = false) (inside : Clear d) : Clear (.present d)
  | list {items : List Datum} (each : ∀ d ∈ items, Clear d) : Clear (.list items)

mutual

/-- The datum with everything unset that is set to something that reads as null. -/
def settle : Datum → Datum
  | .present d => if d.toValue.isNull then .unset else .present d.settle
  | .list items => .list (settleItems items)
  | d => d

/-- The elements of a list, each of them settled. -/
def settleItems : List Datum → List Datum
  | [] => []
  | d :: rest => d.settle :: settleItems rest

end

end Datum

end ObjectMapping
