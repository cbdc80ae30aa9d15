import ObjectMapping.Field

/-! Which values a slot takes, and which defaults a field can therefore receive. Declaring a field
compares no more than the outermost tags; writing into the slot looks at the whole value. -/
namespace ObjectMapping

/-- The slots of the shape take the value. -/
inductive Shape.Admits : Shape → Value → Prop where
  | plain {p : PlainShape} {s : Scalar} (same : s.type = p.type) : Admits (.plain p) (.scalar s)
  /-- A number may be written as the value of an enumeration. -/
  | number (n : UInt32) : Admits (.plain .uint32) (.enum n)
  | enum {e : Enumeration} (named : (e.nameOf? n).isSome) : Admits (.enum e) (.enum n)
  /-- The value of an enumeration may be written as a number. -/
  | enumNumber {e : Enumeration} (named : (e.nameOf? n).isSome) : Admits (.enum e) (.uint32 n)
  | record {type : TypeName} {r : Record} (same : r.type = type) : Admits (.record type) (.object r)
  | vacant : Admits .variant .null
  | occupied (r : Record) : Admits .variant (.object r)
  | unset (s : Shape) : Admits (.nullable s) .null
  | present {s : Shape} (inside : Admits s v) : Admits (.nullable s) v
  | list {s : Shape} (each : ∀ v ∈ items, Admits s v) : Admits (.list s) (.array items)

namespace Field

/-- The slot of the field takes the default that is declared for it. Without a declared one it is
only a slot for the values of an enumeration that may refuse the default, which is that of the
enumeration describing the field. -/
def DefaultFits (f : Field) : Prop :=
  match f.explicitDefault with
  | some v => f.shape.Admits v
  | none => ∀ own described, f.shape = .enum own → f.enumeration = some described →
      (own.nameOf? described.default).isSome

/-- The field reads as nothing or as a value that its enumeration contains. -/
def ReadsContained (f : Field) (r : Record) : Prop :=
  f.get r = .ok .null ∨
    ∃ e n, f.enumeration = some e ∧ f.get r = .ok (.enum n) ∧ e.contains n

end Field

end ObjectMapping
