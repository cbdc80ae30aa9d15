import ObjectMapping.Json.Polymorphic
import ObjectMapping.Value.Place

/-! What reading a tree puts where. A reading that succeeds leaves a log of events, in the order in
which it goes through the fields: the records that it creates for polymorphic objects, each with the
object that asked for it, and whatever else takes a place. -/
namespace ObjectMapping

/-- Where the slot of the field lies in a record. -/
def Field.place (f : Field) : List Value.Step := f.path.map .slot

namespace Json

/-- What reading puts into a place. -/
inductive Event where
  /-- Something that no object of the tree names: a scalar, nothing, a default, a list or a nested
  record that was not there before. -/
  | replaced (place : List Value.Step)
  /-- A new record for the polymorphic object with the members `poly`. -/
  | filled (place : List Value.Step) (poly : List (String × Json)) (new : Record)

namespace Event

def place : Event → List Value.Step
  | replaced place => place
  | filled place _ _ => place

/-- The event as it is seen from outside. -/
def within (outer : List Value.Step) : Event → Event
  | replaced place => replaced (outer ++ place)
  | filled place poly new => filled (outer ++ place) poly new

end Event

variable (reg : Registry) (resolve : Resolver) (options : JsonOptions)

mutual

/-- Reading the tree in the place yields the value, with these events in order. A nested record that
the place holds already is read in place, so that there are no events but those inside of it. -/
inductive Logged : Context → Option Value → Json → List Event → Value → Prop where
  | leaf {context : Context} {held : Option Value} (closed : opens context.type j = false)
      (read : toValue reg resolve options context held j = .ok v) :
      Logged context held j [.replaced []] v
  | list {context element : Context} {held : Option Value} {items : List Json}
      {log : List Event} {values : List Value} (array : context.type = .array)
      (described : context.elements = .ok element) (each : LoggedItems element 0 items log values) :
      Logged context held (.array items) (.replaced [] :: log) (.array values)
  | merged {context : Context} {members : List (String × Json)} {target r : Record}
      {d : Descriptor} {log : List Event} (object : context.type = .object)
      (found : reg.byType? target.type = some d)
      (inside : LoggedFields members d.fields target log r) :
      Logged context (some (.object target)) (.object members) log (.object r)
  | begun {context : Context} {held : Option Value} {members : List (String × Json)}
      {target r : Record} {d : Descriptor} {log : List Event} (object : context.type = .object)
      (without : ∀ r, held ≠ some (.object r))
      (place : nestedTarget reg context held = .ok target)
      (found : reg.byType? target.type = some d)
      (inside : LoggedFields members d.fields target log r) :
      Logged context held (.object members) (.replaced [] :: log) (.object r)
  | created {context : Context} {held : Option Value} {poly : List (String × Json)}
      {new r : Record} {d : Descriptor} {log : List Event} (variant : context.type = .variant)
      (named : namedTarget resolve options poly = .ok new)
      (found : reg.byType? new.type = some d) (inside : LoggedFields poly d.fields new log r) :
      Logged context held (.object poly) (.filled [] poly new :: log) (.object r)

/-- Reading the items one by one, from the given index on, yields the values. -/
inductive LoggedItems : Context → (index : Nat) → List Json → List Event → List Value → Prop where
  | nil {context : Context} {index : Nat} : LoggedItems context index [] [] []
  | cons {context : Context} {index : Nat} {items : List Json} {log more : List Event}
      {values : List Value} (first : Logged context none j log v)
      (others : LoggedItems context (index + 1) items more values) :
      LoggedItems context index (j :: items) (log.map (Event.within [.item index]) ++ more) (v :: values)

/-- Reading the members for the fields makes the second record of the first one. -/
inductive LoggedFields : (members : List (String × Json)) → List Field → (before : Record) →
    List Event → (after : Record) → Prop where
  | nil {members : List (String × Json)} {r : Record} : LoggedFields members [] r [] r
  | kept {members : List (String × Json)} {f : Field} {rest : List Field} {r after : Record}
      {log : List Event} (missing : members.lookup f.name = none)
      (optional : f.mandatoriness = .optional) (others : LoggedFields members rest r log after) :
      LoggedFields members (f :: rest) r log after
  | defaulted {members : List (String × Json)} {f : Field} {rest : List Field}
      {r next after : Record} {log : List Event} (missing : members.lookup f.name = none)
      (defaultable : f.mandatoriness = .defaultable)
      (set : f.set r f.defaultForAbsent = .ok next)
      (others : LoggedFields members rest next log after) :
      LoggedFields members (f :: rest) r (.replaced f.place :: log) after
  | member {members : List (String × Json)} {f : Field} {rest : List Field}
      {r next after : Record} {log more : List Event} (found : members.lookup f.name = some j)
      (looked : heldValue f r = .ok held) (read : Logged (.ofField f) held j log v)
      (set : f.set r v = .ok next) (others : LoggedFields members rest next more after) :
      LoggedFields members (f :: rest) r (log.map (Event.within f.place) ++ more) after

end

/-- What the events of a reading tell of the value that it began with and of the one that it
yields. -/
structure Confined (before : Value) (log : List Event) (after : Value) : Prop where
  /-- Every polymorphic object gives rise to what the resolver creates for the name in it. -/
  named : ∀ place poly new, .filled place poly new ∈ log →
    ∃ name, poly.lookup options.typeKey = some (.string name) ∧ resolve name = some new
  /-- The last event in a place, or around it, tells of what type the record is that lies there. -/
  last : ∀ earlier place poly new later, log = earlier ++ .filled place poly new :: later →
    (∀ e ∈ later, ¬e.place <+: place) → after.typeAt? place = some new.type
  /-- Where there is no event, the records are of the types that they were of before. -/
  kept : ∀ place, (∀ e ∈ log, ¬e.place <+: place) → after.typeAt? place = before.typeAt? place

end Json

end ObjectMapping
