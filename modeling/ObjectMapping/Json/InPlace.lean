import ObjectMapping.Field.Access
import ObjectMapping.Json.Decode

/-! Reading trees into records in place: one step for each field in the order of the descriptor,
which assigns the field last. What is nested is read into a copy of its own. -/
namespace ObjectMapping

/-- The step for a field that a source does not mention. -/
def Field.assignAbsent (f : Field) : Action Record Unit :=
  match f.mandatoriness with
  | .required => throw (.data .missingField "required field is absent" (some f.name))
  | .optional => pure ()
  | .defaultable => f.assign f.defaultForAbsent

namespace Json

variable (reg : Registry) (resolve : Resolver) (options : JsonOptions)

/-- Read the member for a field into the record at hand. -/
def readField (members : List (String × Json)) (f : Field) : Action Record Unit :=
  match members.lookup f.name with
  | none => f.assignAbsent
  | some j => do
    let held ← Action.ofExcept (heldValue f (← getThe Record))
    let v ← Action.ofExcept (inField f.name (toValue reg resolve options (.ofField f) held j))
    f.assign v

/-- Read the members for all fields of the record at hand. -/
def readRecord (members : List (String × Json)) : Action Record Unit := do
  let d ← Action.ofExcept (reg.descriptorFor (← getThe Record))
  d.visit (readField reg resolve options members)

/-- Reading the members into the target ends at the field `f`: the fields `before` it have been read
by then, and reading it fails and changes nothing. -/
inductive EndsAt (members : List (String × Json)) (target : Record) (before : List Field) (f : Field)
    (e : Error) (r : Record) : Prop where
  | intro {d : Descriptor} {after : List Field} (found : reg.byType? target.type = some d)
      (order : d.fields = before ++ f :: after)
      (earlier : (before.forM (readField reg resolve options members)).perform target = (.ok (), r))
      (fails : (readField reg resolve options members f).perform r = (.error e, r))

/-- The tree for the field breaks off inside: a record that it holds has been read into `part`, a
copy of what was there, or some of its elements have been read, when reading it fails. -/
inductive BreaksOff (f : Field) (r : Record) : Json → Error → Prop where
  | nested {inner : List (String × Json)} {copy part : Record} (object : f.type = .object)
      (looked : heldValue f r = .ok held)
      (place : nestedTarget reg (.ofField f) held = .ok copy)
      (fails : (readRecord reg resolve options inner).perform copy = (.error e, part)) :
      BreaksOff f r (.object inner) e
  | named {inner : List (String × Json)} {copy part : Record} (variant : f.type = .variant)
      (made : namedTarget resolve options inner = .ok copy)
      (fails : (readRecord reg resolve options inner).perform copy = (.error e, part)) :
      BreaksOff f r (.object inner) e
  | element {read rest : List Json} {place : Context} (array : f.type = .array)
      (described : (Context.ofField f).elements = .ok place)
      (earlier : toItems reg resolve options place read = .ok values)
      (fails : toValue reg resolve options place none j = .error e) :
      BreaksOff f r (.array (read ++ j :: rest)) e

end Json

end ObjectMapping
