import ObjectMapping.Json.Decode

/-! Trees that may stand for each other. Reading an object matches its members with the fields of one
descriptor, that of the record which the object is read into, so it makes no difference which members
of other names there are. Which descriptor that is comes out on the way: a nested object is read into
the record that is there, a polymorphic one into a record of the type that it names. -/
namespace ObjectMapping

/-- No field of the descriptor has the name. -/
def Descriptor.Lacks (d : Descriptor) (name : String) : Prop := ∀ f ∈ d.fields, f.name ≠ name

namespace Json

variable (reg : Registry) (resolve : Resolver) (options : JsonOptions)

mutual

/-- The second tree may stand for the first one in the place. Their objects have the same members for
the fields that are read from them, and under the type key if they are polymorphic. Other members may
have been added, changed or left out. -/
inductive Interchangeable : Context → (held : Option Value) → Json → Json → Prop where
  | same {context : Context} {held : Option Value} (j : Json) : Interchangeable context held j j
  | nested {context : Context} {held : Option Value} {members others : List (String × Json)}
      (object : context.type = .object)
      (inside : ∀ target d, nestedTarget reg context held = .ok target →
        reg.byType? target.type = some d → InterchangeableFields members others d.fields target) :
      Interchangeable context held (.object members) (.object others)
  | named {context : Context} {held : Option Value} {members others : List (String × Json)}
      (variant : context.type = .variant)
      (tag : others.lookup options.typeKey = members.lookup options.typeKey)
      (inside : ∀ target d, namedTarget resolve options members = .ok target →
        reg.byType? target.type = some d → InterchangeableFields members others d.fields target) :
      Interchangeable context held (.object members) (.object others)
  | list {context : Context} {held : Option Value} {items others : List Json}
      (array : context.type = .array)
      (each : ∀ element, context.elements = .ok element → InterchangeableItems element items others) :
      Interchangeable context held (.array items) (.array others)

/-- The items of two lists may stand for each other one by one. -/
inductive InterchangeableItems : Context → List Json → List Json → Prop where
  | nil {context : Context} : InterchangeableItems context [] []
  | cons {context : Context} {items others : List Json} (first : Interchangeable context none j k)
      (rest : InterchangeableItems context items others) :
      InterchangeableItems context (j :: items) (k :: others)

/-- The members may stand for each other where they are read for the fields of the record. -/
inductive InterchangeableFields : (members others : List (String × Json)) → List Field → Record → Prop
    where
  | nil {members others : List (String × Json)} {r : Record} :
      InterchangeableFields members others [] r
  | absent {members others : List (String × Json)} {f : Field} {rest : List Field} {r : Record}
      (missing : members.lookup f.name = none) (neither : others.lookup f.name = none)
      (later : ∀ s, toField reg resolve options members f r = .ok s →
        InterchangeableFields members others rest s) :
      InterchangeableFields members others (f :: rest) r
  | member {members others : List (String × Json)} {f : Field} {rest : List Field} {r : Record}
      (found : members.lookup f.name = some j) (also : others.lookup f.name = some k)
      (inside : ∀ held, heldValue f r = .ok held → Interchangeable (.ofField f) held j k)
      (later : ∀ s, toField reg resolve options members f r = .ok s →
        InterchangeableFields members others rest s) :
      InterchangeableFields members others (f :: rest) r

end

/-- The second tree may stand for the first one where it is read into the record. -/
inductive InterchangeableInto (target : Record) : Json → Json → Prop where
  | same (j : Json) : InterchangeableInto target j j
  | object {members others : List (String × Json)}
      (inside : ∀ d, reg.byType? target.type = some d →
        InterchangeableFields reg resolve options members others d.fields target) :
      InterchangeableInto target (.object members) (.object others)

end Json

end ObjectMapping
