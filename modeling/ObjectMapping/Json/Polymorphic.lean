import ObjectMapping.Json.Decode
import ObjectMapping.Json.Encode

/-! Polymorphic objects in trees: when the name of their type stays among their members, and which
of them the walk over a tree comes to. -/
namespace ObjectMapping

namespace Field

/-- Neither field lies in the slot that the other one describes. -/
def Apart (f g : Field) : Prop := ¬f.path <+: g.path ∧ ¬g.path <+: f.path

end Field

namespace Json

/-- No field of the described record takes the place of the tag: a field of that name is left out,
or what is written for it is the name of the type. -/
def KeepsTag (reg : Registry) (options : JsonOptions) (d : Descriptor) (r : Record) : Prop :=
  ∀ f ∈ d.fields, f.name = options.typeKey →
    options.emitNulls = false ∧ f.get r = .ok .null ∨
      ∃ v, f.get r = .ok v ∧ ofValue reg options (.ofField f) v = .ok (.string d.name)

/-- Reading the field `g` from the members leaves alone what `f` describes: the slots are apart, or
the members do not mention `g` and it need not be there. -/
def Spares (members : List (String × Json)) (f g : Field) : Prop :=
  f.Apart g ∨ members.lookup g.name = none ∧ g.mandatoriness = .optional

/-- Whether the tree has parts that are read by themselves in a place of the type. -/
def opens : FieldType → Json → Bool
  | .object, object _ => true
  | .variant, object _ => true
  | .array, array _ => true
  | _, _ => false

/-- The polymorphic object names no type that the resolver makes instances of. -/
def Unresolved (resolve : Resolver) (options : JsonOptions) (poly : List (String × Json)) : Prop :=
  ∀ name, poly.lookup options.typeKey = some (.string name) → resolve name = none

variable (reg : Registry) (resolve : Resolver) (options : JsonOptions)

mutual

/-- Reading the tree in the place comes to the polymorphic object with the members `poly`. -/
inductive Reaches : Context → Option Value → Json → (poly : List (String × Json)) → Prop where
  | here {context : Context} {held : Option Value} (variant : context.type = .variant) :
      Reaches context held (.object poly) poly
  | within {context : Context} {held : Option Value} {members : List (String × Json)}
      {target : Record} {d : Descriptor} (variant : context.type = .variant)
      (named : namedTarget resolve options members = .ok target)
      (found : reg.byType? target.type = some d)
      (inside : ReachesFields members d.fields target poly) :
      Reaches context held (.object members) poly
  | nested {context : Context} {held : Option Value} {members : List (String × Json)}
      {target : Record} {d : Descriptor} (object : context.type = .object)
      (place : nestedTarget reg context held = .ok target)
      (found : reg.byType? target.type = some d)
      (inside : ReachesFields members d.fields target poly) :
      Reaches context held (.object members) poly
  | element {context element : Context} {held : Option Value} {items : List Json}
      (array : context.type = .array) (described : context.elements = .ok element)
      (member : j ∈ items) (inside : Reaches element none j poly) :
      Reaches context held (.array items) poly

/-- Reading the members for the fields of the record comes to the polymorphic object. -/
inductive ReachesFields : (members : List (String × Json)) → List Field → Record →
    (poly : List (String × Json)) → Prop where
  | member {f : Field} {rest : List Field} {r : Record} {members : List (String × Json)}
      (found : members.lookup f.name = some j) (looked : heldValue f r = .ok held)
      (inside : Reaches (.ofField f) held j poly) : ReachesFields members (f :: rest) r poly
  | later {f : Field} {rest : List Field} {r s : Record} {members : List (String × Json)}
      (read : toField reg resolve options members f r = .ok s)
      (inside : ReachesFields members rest s poly) : ReachesFields members (f :: rest) r poly

end

end Json

end ObjectMapping
