import ObjectMapping.Proofs.Json.Events
import ObjectMapping.Proofs.Json.RoundTrip

/-! The resolver alone decides of which types polymorphic objects may be: what it makes nothing for
is not read, and what is read is of the types that it made. A field keeps what it was read as for as
long as the fields after it leave it alone. -/
namespace ObjectMapping.Json

variable {reg : Registry} {resolve : Resolver} {options : JsonOptions}
variable {members : List (String × Json)} {r s target : Record} {f : Field} {fields : List Field}

/-- Reading a field keeps the type of the record and the fields that it leaves alone. -/
theorem toField_keeps (ok : toField reg resolve options members f r = .ok s) :
    s.type = r.type ∧ ∀ g : Field, Spares members g f → s.get? g.path = r.get? g.path := by
  have written : ∀ v, f.set r v = .ok s →
      s.type = r.type ∧ ∀ g : Field, g.Apart f → s.get? g.path = r.get? g.path := by
    intro v ok
    obtain ⟨-, d, -, set⟩ := Field.set_eq_ok ok
    exact ⟨Record.set_type set, fun g apart => Record.get_of_set_apart set apart.2 apart.1⟩
  rcases toField_eq_ok ok with ⟨missing, absent⟩ | ⟨j, _, v, found, -, -, set⟩
  · rcases Field.resolveAbsent_eq_ok.mp absent with ⟨-, rfl⟩ | ⟨defaultable, set⟩
    · exact ⟨rfl, fun _ _ => rfl⟩
    · obtain ⟨type, still⟩ := written _ set
      refine ⟨type, fun g spares => still g (spares.resolve_right fun left => ?_)⟩
      rw [left.2] at defaultable
      cases defaultable
  · obtain ⟨type, still⟩ := written v set
    refine ⟨type, fun g spares => still g (spares.resolve_right fun left => ?_)⟩
    rw [left.1] at found
    cases found

theorem toFields_keeps (ok : toFields reg resolve options members fields r = (.ok (), s)) :
    s.type = r.type ∧
      ∀ g : Field, (∀ f ∈ fields, Spares members g f) → s.get? g.path = r.get? g.path := by
  induction fields generalizing r with
  | nil =>
    rw [toFields] at ok
    obtain rfl := (Prod.mk.inj ok).2
    exact ⟨rfl, fun _ _ => rfl⟩
  | cons f rest ih =>
    obtain ⟨next, read, ok⟩ := toFields_cons_eq_ok ok
    obtain ⟨first, kept⟩ := toField_keeps read
    obtain ⟨later, still⟩ := ih ok
    refine ⟨later.trans first, fun g spared => ?_⟩
    rw [still g fun f later => spared f (List.mem_cons_of_mem _ later),
      kept g (spared f List.mem_cons_self)]

/-- A record is read as one of its own type. -/
theorem type_of_toRecord (ok : toRecord reg resolve options members target = .ok r) :
    r.type = target.type := by
  obtain ⟨d, -, read⟩ := toRecord_eq_ok ok
  exact (toFields_keeps read).1

/-- The resolver confines what is read. Nothing is read from a tree if reading it comes to a
polymorphic object that names no type the resolver makes instances of. What is read leaves a log that
misses none of the polymorphic objects: each was read into what the resolver made for the name in it,
and a record of just this type lies there in the end, unless a later event of the log took its place
or one around it. -/
theorem resolver_confines (reg : Registry) (resolve : Resolver) (options : JsonOptions) (j : Json)
    (target : Record) :
    (∀ members d poly, j = .object members → reg.byType? target.type = some d →
      ReachesFields reg resolve options members d.fields target poly →
      Unresolved resolve options poly →
      ∃ e s, (decodeInto reg resolve options j).perform target = (.error e, s)) ∧
    ∀ r, (decodeInto reg resolve options j).perform target = (.ok (), r) →
      ∃ members d log, j = .object members ∧ reg.byType? target.type = some d ∧
        r.type = target.type ∧ LoggedFields reg resolve options members d.fields target log r ∧
        (∀ poly, ReachesFields reg resolve options members d.fields target poly →
          ∃ place new, .filled place poly new ∈ log) ∧
        Confined resolve options (.object target) log (.object r) := by
  constructor
  · intro members d poly tree found reaches unknown
    cases done : (decodeInto reg resolve options j).perform target with
    | mk outcome s =>
      cases outcome with
      | error e => exact ⟨e, s, rfl⟩
      | ok _ =>
        obtain ⟨others, e, same, described, ok⟩ := decodeInto_eq_ok done
        obtain rfl := Json.object.inj (tree.symm.trans same)
        obtain rfl := Option.some.inj (found.symm.trans described)
        -- Had all been read, something would have been made for the name in the object.
        obtain ⟨log, logged⟩ := logged_of_toFields ok
        obtain ⟨place, new, mem⟩ := reaches.logged logged
        obtain ⟨name, named, made⟩ := logged.confined.named place poly new mem
        rw [unknown name named] at made
        cases made
  · intro r ok
    obtain ⟨members, d, tree, found, ok⟩ := decodeInto_eq_ok ok
    obtain ⟨log, logged⟩ := logged_of_toFields ok
    exact ⟨members, d, log, tree, found, (toFields_keeps ok).1, logged,
      fun poly reaches => reaches.logged logged, logged.confined⟩

open Fish in
/-- No fish is read by what makes no fish, although the registry knows them; the pike is read back
by what the registry makes of names. -/
theorem resolver_confines_pike :
    (∃ e s, (decodeInto (registry legibleFins) (TypeMap.resolver []) .default
      (.object [("prey", .object [("@type", .string "Fish")])])).perform (fish 0 .vacant) =
        (.error e, s)) ∧
      ∃ members log, pikeTree = .object members ∧
        LoggedFields (registry legibleFins) (registry legibleFins).resolver .default members
          (descriptor legibleFins).fields (fish 0 .vacant) log pike ∧
        Confined (registry legibleFins).resolver .default (.object (fish 0 .vacant)) log
          (.object pike) := by
  have known : (registry legibleFins).byType? "Fish" = some (descriptor legibleFins) := rfl
  constructor
  · have nothing : [("prey", Json.object [("@type", .string "Fish")])].lookup "fins" = none := rfl
    have read : toField (registry legibleFins) (TypeMap.resolver []) .default
        [("prey", .object [("@type", .string "Fish")])] (finsField legibleFins) (fish 0 .vacant) =
        .ok (fish 0 .vacant) := (toField_absent nothing).trans rfl
    have reaches : ReachesFields (registry legibleFins) (TypeMap.resolver []) .default
        [("prey", .object [("@type", .string "Fish")])] (descriptor legibleFins).fields
        (fish 0 .vacant) [("@type", .string "Fish")] := .later read (.member rfl rfl (.here rfl))
    exact (resolver_confines _ _ _ _ _).1 _ _ _ rfl known reaches fun name _ => rfl
  · have read : (decodeInto (registry legibleFins) (registry legibleFins).resolver .default
        pikeTree).perform (fish 0 .vacant) = (.ok (), pike) := by cbv
    obtain ⟨members, d, log, tree, found, -, logged, -, confined⟩ :=
      (resolver_confines _ _ _ _ _).2 _ read
    obtain rfl := Option.some.inj (known.symm.trans found)
    exact ⟨members, log, tree, logged, confined⟩

namespace Owner

def pet : Slot := ⟨"pet", .variant, 0, 16⟩

def owner (held : Datum) : Record := .mk "Owner" [("pet", held)]

def dog : Record := .mk "Dog" []

def cat : Record := .mk "Cat" []

def owners : RecordType := ⟨"Owner", [pet], 16, owner .vacant⟩

def dogs : RecordType := ⟨"Dog", [], 0, dog⟩

def cats : RecordType := ⟨"Cat", [], 0, cat⟩

def catalogue : Catalogue := [owners, dogs, cats]

/-- The one pet of an owner, under a name of one's own choice. -/
def petField (name : String) : Field := Field.ofSlot catalogue "Owner" pet name

def ownerDescriptor : Descriptor :=
  ⟨"Owner", "Owner", "Owner", none, [petField "first", petField "second"], 0, owner .vacant⟩

def dogDescriptor : Descriptor := ⟨"Dog", "Dog", "Dog", none, [], 0, dog⟩

def catDescriptor : Descriptor := ⟨"Cat", "Cat", "Cat", none, [], 0, cat⟩

def registry : Registry := ⟨[ownerDescriptor, dogDescriptor, catDescriptor], []⟩

def pets : TypeMap := [("Dog", dog), ("Cat", cat)]

theorem built_descriptors :
    ∀ d ∈ [ownerDescriptor, dogDescriptor, catDescriptor], d.Built catalogue := by
  have known : catalogue.type? owners.name = some owners := rfl
  have knownDog : catalogue.type? dogs.name = some dogs := rfl
  have knownCat : catalogue.type? cats.name = some cats := rfl
  have has : owners.slot? pet.name = some pet := rfl
  have declared : ∀ name, (petField name).Declared catalogue := fun name => .slot known has 0 name
  have formed := Descriptor.Draft.Formed.draft known "Owner"
  have ofOwner : ownerDescriptor.Built catalogue :=
    .build ((formed.field (declared "first")).field (declared "second")) rfl
  have ofDog : dogDescriptor.Built catalogue := .build (.draft knownDog "Dog") rfl
  have ofCat : catDescriptor.Built catalogue := .build (.draft knownCat "Cat") rfl
  simp [ofOwner, ofDog, ofCat]

end Owner

open Owner in
/-- Of two fields on one slot the later one decides: the first pet is made for the name of a dog and
shows a cat in the end. -/
theorem pet_overwritten :
    (∀ d ∈ [ownerDescriptor, dogDescriptor, catDescriptor], d.Built catalogue) ∧
      Registry.build [ownerDescriptor, dogDescriptor, catDescriptor] [] = .ok registry ∧
      pets.resolver "Dog" = some dog ∧
      ∃ r, (decodeInto registry pets.resolver .default
          (.object [("first", .object [("@type", .string "Dog")]),
            ("second", .object [("@type", .string "Cat")])])).perform (owner .vacant) =
          (.ok (), r) ∧
        (petField "first").get r = .ok (.object cat) ∧ cat.type ≠ dog.type := by
  have read : (decodeInto registry pets.resolver .default
      (.object [("first", .object [("@type", .string "Dog")]),
        ("second", .object [("@type", .string "Cat")])])).perform (owner .vacant) =
      (.ok (), owner (.occupied cat)) := by cbv
  exact ⟨built_descriptors, rfl, rfl, _, read, rfl, by decide⟩

end ObjectMapping.Json
