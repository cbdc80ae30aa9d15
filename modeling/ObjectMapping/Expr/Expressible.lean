import ObjectMapping.Expr.Tree

/-! Which expressions can be written as SQL, whatever the dialect. -/
namespace ObjectMapping

/-- The value can be written as a literal: it is neither a record nor a list, and if it is a number
with a fraction, it is finite. -/
def Value.HasLiteral : Value → Prop
  | .float x => x.isFinite
  | .double x => x.isFinite
  | .object _ | .array _ => False
  | _ => True

namespace Expr.Head

/-- The node can be written: literals have a form, and casts lead to the type of a column. -/
def Expressible : Head → Prop
  | literal v => v.HasLiteral
  | cast target => target.isColumn
  | _ => True

/-- The node cannot be written, for the reason that the error gives. -/
inductive Fault : Head → Error → Prop where
  | float (endless : x.isFinite = false) :
      Fault (literal (.float x)) (.malformed s!"{x.widen.plainText} has no SQL literal form")
  | double (endless : x.isFinite = false) :
      Fault (literal (.double x)) (.malformed s!"{x.plainText} has no SQL literal form")
  | object (r : Record) : Fault (literal (.object r))
      (.ofData (.unsupportedType .object) "object values have no SQL literal form")
  | array (items : List Value) : Fault (literal (.array items))
      (.ofData (.unsupportedType .array) "array values have no SQL literal form")
  | cast (wide : target.isColumn = false) :
      Fault (cast target) (.ofData (.unsupportedType target) s!"cannot cast to {target.name}")

end Expr.Head

end ObjectMapping
