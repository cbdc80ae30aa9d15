import ObjectMapping.Json.Decode
import ObjectMapping.Json.Encode
import ObjectMapping.Proofs.Action
import ObjectMapping.Proofs.Descriptor
import ObjectMapping.Proofs.Registry

/-! Places and the shapes that they describe, and what the walks do in a place of each
kind. -/
namespace ObjectMapping

namespace Shape

/-- A record stands in a slot for records of its type or in one for records of any type. -/
theorem holds_object {s : Shape} {c : Catalogue} {x : Datum} {r : Record}
    (holds : x.Holds c s) (reads : x.toValue = .object r) :
    r.Instance c ∧ (s.recordType? = some r.type ∨ s.type = .variant) := by
  induction s generalizing x with
  | plain | enum | list => cases holds; cases reads
  | record type =>
    obtain ⟨inner, rfl, same, inside⟩ := Datum.holds_record.mp holds
    obtain rfl := Value.object.inj reads
    exact ⟨inside, .inl (congrArg some same.symm)⟩
  | variant =>
    cases holds with
    | vacant => cases reads
    | occupied inside =>
      obtain rfl := Value.object.inj reads
      exact ⟨inside, .inr rfl⟩
  | nullable inner ih =>
    cases holds with
    | unset => cases reads
    | present inside => exact ih inside reads

theorem recordType_of_object {s : Shape} {c : Catalogue} {x : Datum} {r : Record}
    (holds : x.Holds c s) (object : s.type = .object) (reads : x.toValue = .object r) :
    s.recordType? = some r.type ∧ r.Instance c := by
  obtain ⟨inside, embedded | variant⟩ := holds_object holds reads
  · exact ⟨embedded, inside⟩
  · cases object.symm.trans variant

/-- A list stands in a slot for lists. -/
theorem holds_array {s : Shape} {c : Catalogue} {x : Datum} {items : List Value}
    (holds : x.Holds c s) (reads : x.toValue = .array items) :
    ∃ element ds, s.element? = some element ∧ items = Datum.toValues ds ∧
      ∀ d ∈ ds, d.Holds c element := by
  induction s generalizing x with
  | plain | enum | record => cases holds; cases reads
  | variant => cases holds <;> cases reads
  | list element =>
    cases holds with
    | list each => exact ⟨element, _, rfl, (Value.array.inj reads).symm, each⟩
  | nullable inner ih =>
    cases holds with
    | unset => cases reads
    | present inside => exact ih inside reads

theorem type_of_record {s : Shape} {c : Catalogue} {r : Record} (holds : (Datum.record r).Holds c s) :
    s.type = .object := by
  cases holds
  rfl

/-- Only optional and polymorphic slots may be without a value. -/
theorem absent {s : Shape} {c : Catalogue} {x : Datum} (holds : x.Holds c s)
    (nothing : x.toValue.isNull) : 0 < s.nullableDepth ∨ s.type = .variant := by
  cases holds with
  | plain | enum | record | occupied | list => cases nothing
  | vacant => exact .inr rfl
  | unset | present => exact .inl (Nat.succ_pos _)

/-- A slot that may be without a value takes `null` and is without one then. -/
theorem ofValue_null {s : Shape} (c : Catalogue) (allowed : 0 < s.nullableDepth ∨ s.type = .variant) :
    ∃ y, s.ofValue .null = .ok y ∧ y.Holds c s ∧ y.toValue = .null := by
  cases s with
  | variant => exact ⟨.vacant, rfl, .vacant, rfl⟩
  | nullable inner => exact ⟨.unset, rfl, .unset, rfl⟩
  | plain p =>
    rcases allowed with nullable | variant
    · cases nullable
    · cases p <;> cases variant
  | enum | record | list => rcases allowed with nullable | variant <;> contradiction

theorem isColumn_of_scalar {s : Shape} {c : Catalogue} {content : Scalar}
    (holds : (Datum.scalar content).Holds c s) : s.type.isColumn := by
  cases holds with
  | @plain p _ _ => cases p <;> rfl
  | enum => rfl

theorem element_of_single {s : Shape} (single : s.type ≠ .array) : s.element? = none := by
  induction s with
  | plain | enum | record | variant => rfl
  | list => exact absurd rfl single
  | nullable inner ih => exact ih single

theorem ofValue_plain {p : PlainShape} {shown stored : Scalar} (accepted : p.accept shown = some stored) :
    (plain p).ofValue (.scalar shown) = .ok (.scalar stored) := by
  have single : (plain p).ofValue (.scalar shown) = (plain p).singleOfValue (.scalar shown) := rfl
  rw [single, singleOfValue, accepted]

theorem ofValue_stored {p : PlainShape} {stored : Scalar} (same : stored.type = p.type) :
    (plain p).ofValue (.scalar stored) = .ok (.scalar stored) := by
  refine ofValue_plain ?_
  unfold PlainShape.accept
  split
  · cases same
  · rw [if_pos same]

theorem ofValue_nullable {inner : Shape} {v : Value} (something : v.isNull = false) :
    (nullable inner).ofValue v = (inner.ofValue v).map .present := by
  cases v with
  | null => cases something
  | _ => rfl

/-- A record is stored as it is. -/
theorem toValue_of_object {s : Shape} {d : Datum} {r : Record}
    (ok : s.ofValue (.object r) = .ok d) : d.toValue = .object r := by
  induction s generalizing d with
  | plain | enum | list => cases ok
  | record type =>
    change singleOfValue (record type) (.object r) = .ok d at ok
    rw [singleOfValue] at ok
    split at ok
    · obtain rfl := Except.ok.inj ok
      rfl
    · cases ok
  | variant =>
    obtain rfl := Except.ok.inj ok
    rfl
  | nullable inner ih =>
    rw [ofValue_nullable rfl] at ok
    obtain ⟨content, inside, rfl⟩ := except_map_eq_ok.mp ok
    have shown := ih inside
    exact shown

/-- A list is stored element by element. -/
theorem toValue_of_array {s : Shape} {d : Datum} {values : List Value}
    (ok : s.ofValue (.array values) = .ok d) :
    ∃ element ds, values.mapM (ofValue element) = .ok ds ∧ d.toValue = .array (Datum.toValues ds) := by
  induction s generalizing d with
  | plain | enum | record | variant => cases ok
  | list element =>
    obtain ⟨ds, each, rfl⟩ := except_map_eq_ok.mp ok
    exact ⟨element, ds, each, rfl⟩
  | nullable inner ih =>
    rw [ofValue_nullable rfl] at ok
    obtain ⟨content, inside, rfl⟩ := except_map_eq_ok.mp ok
    have shown := ih inside
    exact shown

end Shape

namespace Json

namespace Context

/-- What a place presents the value of its slot as. -/
def present (context : Context) : Value → Value
  | .uint32 bits => if context.type = .enum then .enum bits else .uint32 bits
  | v => v

/-- The place is described as one that holds data of the shape. -/
structure Describes (context : Context) (s : Shape) : Prop where
  typed : context.type = s.type ∨ context.type = .enum ∧ s.type = .uint32
  record : context.recordType = s.recordType?
  element : context.element = s.element?

variable {context : Context} {s : Shape} {c : Catalogue} {x : Datum}

/-- The place that a field is presents values as the field does. -/
theorem present_ofField (f : Field) (v : Value) : (ofField f).present v = f.present v := rfl

theorem Describes.ofField {f : Field} (linked : f.Linked c) : (ofField f).Describes f.shape :=
  ⟨linked.typed, rfl, rfl⟩

theorem Describes.inner (describes : context.Describes (.nullable s)) : context.Describes s :=
  ⟨describes.typed, describes.record, describes.element⟩

/-- A place of a type that is no number's has the type of its shape. -/
theorem Describes.type {type : FieldType} (describes : context.Describes s) (same : s.type = type)
    (other : type ≠ .uint32) : context.type = type := by
  rcases describes.typed with typed | ⟨_, number⟩
  · exact typed.trans same
  · exact absurd (same.symm.trans number) other

/-- Only numbers are presented as something else. -/
theorem present_eq (holds : x.Holds c s) (same : context.type = s.type) :
    context.present x.toValue = x.toValue := by
  induction s generalizing x with
  | plain p =>
    cases holds with
    | @plain _ scalar type =>
      cases scalar with
      | uint32 bits =>
        have number : context.type = .uint32 := same.trans type.symm
        simp only [Datum.toValue, present, number]
        rfl
      | _ => rfl
  | enum => cases holds; rfl
  | record => cases holds; rfl
  | variant => cases holds <;> rfl
  | list => cases holds; rfl
  | nullable inner ih =>
    cases holds with
    | unset => rfl
    | present inside =>
      have kept := ih inside same
      exact kept

/-- What a column holds is shown as a scalar of the place's type, which the slot takes back. -/
theorem Describes.shown (describes : context.Describes s) (holds : x.Holds c s)
    (column : s.type.isColumn) (something : x.toValue.isNull = false) :
    ∃ shown, context.present x.toValue = .scalar shown ∧ shown.type = context.type ∧
      s.ofValue (.scalar shown) = .ok x := by
  induction s generalizing x with
  | plain p =>
    cases holds with
    | @plain _ stored same =>
      rcases describes.typed with type | ⟨enum, number⟩
      · exact ⟨stored, present_eq (.plain same : (Datum.scalar stored).Holds c _) type,
          same.trans type.symm, Shape.ofValue_stored same⟩
      · have unsigned : stored.type = .uint32 := same.trans number
        cases stored with
        | uint32 bits =>
          refine ⟨.enum bits, ?_, enum.symm, Shape.ofValue_plain ?_⟩
          · simp only [Datum.toValue, present, enum, if_true]
          · cases p with
            | uint32 => rfl
            | _ => cases number
        | _ => cases unsigned
  | enum e =>
    cases holds with
    | @enum n _ named =>
      have enum : context.type = .enum := describes.type rfl (by decide)
      exact ⟨.enum n, rfl, enum.symm, if_pos named⟩
  | record | variant | list => cases column
  | nullable inner ih =>
    cases holds with
    | unset => cases something
    | present inside =>
      obtain ⟨shown, presented, typed, fit⟩ := ih describes.inner inside column something
      refine ⟨shown, presented, typed, ?_⟩
      rw [Shape.ofValue_nullable rfl, fit]
      rfl

/-- The place of the elements of a list. -/
theorem elements_ok {element : Context} (listed : context.element = some s)
    (ok : context.elements = .ok element) :
    element.Describes s ∧ element.type = s.type ∧
      element.nullable = decide (0 < s.nullableDepth) := by
  unfold elements at ok
  rw [listed] at ok
  simp only at ok
  split at ok
  · cases ok
  · rename_i single
    obtain rfl := Except.ok.inj ok
    exact ⟨⟨.inl rfl, rfl, (Shape.element_of_single single).symm⟩, rfl, rfl⟩

/-- Only lists that are not lists of lists have a place for their elements. -/
theorem single_of_elements {element : Context} (listed : context.element = some s)
    (ok : context.elements = .ok element) : s.type ≠ .array := by
  intro list
  rw [elements, listed] at ok
  simp only [if_pos list] at ok
  cases ok

theorem elements_eq_error (listed : context.element = some s) (failed : context.elements = .error e) :
    s.type = .array ∧ e.usageKind? = none := by
  rw [elements, listed] at failed
  simp only at failed
  split at failed
  · rename_i list
    exact ⟨list, Except.error.inj failed ▸ rfl⟩
  · cases failed

end Context

section

variable {reg : Registry} {resolve : Resolver} {options : JsonOptions} {context : Context}
variable {held : Option Value} {j : Json} {members : List (String × Json)}

theorem toValue_null (nothing : j.isNull) :
    toValue reg resolve options context held j = ofNull context := by
  unfold toValue
  rw [if_pos nothing]

theorem toValue_plain (something : j.isNull = false) (column : context.type.isColumn) :
    toValue reg resolve options context held j = toPlain context j := by
  unfold toValue
  rw [if_neg (Bool.eq_false_iff.mp something)]
  cases type : context.type with
  | object | array | variant =>
    rw [type] at column
    cases column
  | _ => rfl

theorem toValue_object_eq (object : context.type = .object) :
    toValue reg resolve options context held (.object members) = (do
      let target ← nestedTarget reg context held
      let r ← toRecord reg resolve options members target
      return .object r) := by
  unfold toValue
  rw [if_neg (show (Json.object members).isNull ≠ true from Bool.false_ne_true), object]

theorem toValue_variant_eq (variant : context.type = .variant) :
    toValue reg resolve options context held (.object members) = (do
      let target ← namedTarget resolve options members
      let r ← toRecord reg resolve options members target
      return .object r) := by
  unfold toValue
  rw [if_neg (show (Json.object members).isNull ≠ true from Bool.false_ne_true), variant]

theorem toValue_array_eq {items : List Json} (array : context.type = .array) :
    toValue reg resolve options context held (.array items) = (do
      let element ← context.elements
      let found ← toItems reg resolve options element items
      return .array found) := by
  unfold toValue
  rw [if_neg (show (Json.array items).isNull ≠ true from Bool.false_ne_true), array]

theorem toValue_nested (object : context.type = .object) {target r : Record}
    (found : nestedTarget reg context held = .ok target)
    (inside : toRecord reg resolve options members target = .ok r) :
    toValue reg resolve options context held (.object members) = .ok (.object r) := by
  rw [toValue_object_eq object]
  exact bind_eq_ok.mpr ⟨target, found, bind_eq_ok.mpr ⟨r, inside, rfl⟩⟩

theorem toValue_named (variant : context.type = .variant) {target r : Record}
    (found : namedTarget resolve options members = .ok target)
    (inside : toRecord reg resolve options members target = .ok r) :
    toValue reg resolve options context held (.object members) = .ok (.object r) := by
  rw [toValue_variant_eq variant]
  exact bind_eq_ok.mpr ⟨target, found, bind_eq_ok.mpr ⟨r, inside, rfl⟩⟩

theorem toValue_list {items : List Json} (list : context.type = .array) {element : Context}
    (described : context.elements = .ok element)
    (inside : toItems reg resolve options element items = .ok found) :
    toValue reg resolve options context held (.array items) = .ok (.array found) := by
  rw [toValue_array_eq list]
  exact bind_eq_ok.mpr ⟨element, described, bind_eq_ok.mpr ⟨found, inside, rfl⟩⟩

/-- What is in the place that a field is read into. -/
theorem heldValue_ok {f : Field} {r : Record} {x : Datum} (owned : r.type = f.owner)
    (there : r.get? f.path = some x) :
    ∃ held, heldValue f r = .ok held ∧ ∀ target,
      held = some (.object target) ↔ f.type = .object ∧ x.toValue = .object target := by
  unfold heldValue
  split
  · rename_i object
    rw [Field.get_eq owned there, Field.present_of_ne_enum (object ▸ by decide)]
    refine ⟨some x.toValue, rfl, fun target => ?_⟩
    rw [Option.some_inj]
    exact ⟨fun here => ⟨object, here⟩, fun here => here.2⟩
  · rename_i other
    refine ⟨none, rfl, fun target => ⟨fun none => ?_, fun here => absurd here.1 other⟩⟩
    cases none

theorem toField_found {f : Field} {r : Record} (found : members.lookup f.name = some j) :
    toField reg resolve options members f r = (do
      let held ← heldValue f r
      let v ← inField f.name (toValue reg resolve options (.ofField f) held j)
      f.set r v) := by
  unfold toField
  split
  · rename_i missing
    rw [found] at missing
    cases missing
  · rename_i tree here
    obtain rfl := Option.some.inj (found.symm.trans here)
    rfl

theorem toField_ok {f : Field} {r changed : Record} {v : Value}
    (found : members.lookup f.name = some j) (holds : heldValue f r = .ok held)
    (reads : toValue reg resolve options (.ofField f) held j = .ok v)
    (set : f.set r v = .ok changed) :
    toField reg resolve options members f r = .ok changed := by
  rw [toField_found found]
  exact bind_eq_ok.mpr ⟨held, holds, bind_eq_ok.mpr ⟨v, inField_eq_ok.mpr reads, set⟩⟩

theorem toField_absent {f : Field} {r : Record} (missing : members.lookup f.name = none) :
    toField reg resolve options members f r = f.resolveAbsent r := by
  unfold toField
  split
  · rfl
  · rename_i tree here
    rw [missing] at here
    cases here

theorem toRecord_ok {d : Descriptor} {target r : Record} (found : reg.byType? target.type = some d)
    (inside : toFields reg resolve options members d.fields target = (.ok (), r)) :
    toRecord reg resolve options members target = .ok r := by
  rw [toRecord, Registry.descriptorFor, found]
  simp only [bind, Except.bind, inside, pure, Except.pure]

/-! What is read is taken apart again. -/

variable {items : List Json} {v : Value} {values : List Value} {r s target : Record} {f : Field}
variable {fields : List Field}

/-- What is made for a polymorphic object is made for the name in it. -/
theorem namedTarget_eq_ok (ok : namedTarget resolve options members = .ok target) :
    ∃ name, members.lookup options.typeKey = some (.string name) ∧ resolve name = some target := by
  unfold namedTarget at ok
  split at ok
  · rename_i name named
    split at ok
    · rename_i made
      exact ⟨name, named, Except.ok.inj ok ▸ made⟩
    · cases ok
  · cases ok

theorem toRecord_eq_ok (ok : toRecord reg resolve options members target = .ok r) :
    ∃ d, reg.byType? target.type = some d ∧
      toFields reg resolve options members d.fields target = (.ok (), r) := by
  rw [toRecord] at ok
  obtain ⟨d, described, ok⟩ := bind_eq_ok.mp ok
  refine ⟨d, Registry.descriptorFor_eq.mp described, ?_⟩
  split at ok
  · rename_i s read
    rw [read, Except.ok.inj ok]
  · cases ok

theorem toValue_variant (variant : context.type = .variant)
    (ok : toValue reg resolve options context held (.object members) = .ok v) :
    ∃ target r, namedTarget resolve options members = .ok target ∧
      toRecord reg resolve options members target = .ok r ∧ v = .object r := by
  rw [toValue_variant_eq variant] at ok
  obtain ⟨target, named, ok⟩ := bind_eq_ok.mp ok
  obtain ⟨r, inside, ok⟩ := bind_eq_ok.mp ok
  exact ⟨target, r, named, inside, (Except.ok.inj ok).symm⟩

theorem toValue_object (object : context.type = .object)
    (ok : toValue reg resolve options context held (.object members) = .ok v) :
    ∃ target r, nestedTarget reg context held = .ok target ∧
      toRecord reg resolve options members target = .ok r ∧ v = .object r := by
  rw [toValue_object_eq object] at ok
  obtain ⟨target, place, ok⟩ := bind_eq_ok.mp ok
  obtain ⟨r, inside, ok⟩ := bind_eq_ok.mp ok
  exact ⟨target, r, place, inside, (Except.ok.inj ok).symm⟩

theorem toValue_array (array : context.type = .array)
    (ok : toValue reg resolve options context held (.array items) = .ok v) :
    ∃ element values, context.elements = .ok element ∧
      toItems reg resolve options element items = .ok values ∧ v = .array values := by
  rw [toValue_array_eq array] at ok
  obtain ⟨element, described, ok⟩ := bind_eq_ok.mp ok
  obtain ⟨values, inside, ok⟩ := bind_eq_ok.mp ok
  exact ⟨element, values, described, inside, (Except.ok.inj ok).symm⟩

/-- What a tree is read as depends on its kind and on that of the place. -/
theorem toValue_eq_ok (something : j.isNull = false)
    (ok : toValue reg resolve options context held j = .ok v) :
    (context.type ≠ .object ∧ toPlain context j = .ok v) ∨
    (context.type = .object ∧ ∃ members target r, j = .object members ∧
      nestedTarget reg context held = .ok target ∧
      toRecord reg resolve options members target = .ok r ∧ v = .object r) ∨
    (context.type = .variant ∧ ∃ members target r, j = .object members ∧
      namedTarget resolve options members = .ok target ∧
      toRecord reg resolve options members target = .ok r ∧ v = .object r) ∨
    (context.type = .array ∧ ∃ items place values, j = .array items ∧
      context.elements = .ok place ∧
      toItems reg resolve options place items = .ok values ∧ v = .array values) := by
  have whole := ok
  unfold toValue at ok
  rw [if_neg (Bool.eq_false_iff.mp something)] at ok
  split at ok
  · rename_i members object
    obtain ⟨target, r, place, inside, rfl⟩ := toValue_object object whole
    exact .inr (.inl ⟨object, members, target, r, rfl, place, inside, rfl⟩)
  · obtain ⟨_, -, ok⟩ := bind_eq_ok.mp ok
    cases ok
  · rename_i items array
    obtain ⟨place, values, described, inside, rfl⟩ := toValue_array array whole
    exact .inr (.inr (.inr ⟨array, items, place, values, rfl, described, inside, rfl⟩))
  · obtain ⟨_, -, ok⟩ := bind_eq_ok.mp ok
    cases ok
  · rename_i members variant
    obtain ⟨target, r, named, inside, rfl⟩ := toValue_variant variant whole
    exact .inr (.inr (.inl ⟨variant, members, target, r, rfl, named, inside, rfl⟩))
  · rename_i other _ _ _ _
    exact .inl ⟨other, ok⟩

/-- What a place holds matters only where a nested object is read into it. -/
theorem toValue_unheld (other : context.type = .object → j.isNull) (held after : Option Value) :
    toValue reg resolve options context held j = toValue reg resolve options context after j := by
  cases nothing : j.isNull with
  | true => rw [toValue_null nothing, toValue_null nothing]
  | false =>
    have kind : context.type ≠ .object := fun object => by
      rw [other object] at nothing
      cases nothing
    unfold toValue
    rw [nothing, if_neg Bool.false_ne_true, if_neg Bool.false_ne_true]
    cases type : context.type with
    | object => exact absurd type kind
    | _ => cases j <;> rfl

theorem toItems_cons_eq_ok (ok : toItems reg resolve options context (j :: items) = .ok values) :
    ∃ v others, toValue reg resolve options context none j = .ok v ∧
      toItems reg resolve options context items = .ok others ∧ values = v :: others := by
  rw [toItems] at ok
  obtain ⟨v, first, ok⟩ := bind_eq_ok.mp ok
  obtain ⟨others, later, ok⟩ := bind_eq_ok.mp ok
  exact ⟨v, others, first, later, (Except.ok.inj ok).symm⟩

theorem toField_eq_ok (ok : toField reg resolve options members f r = .ok s) :
    members.lookup f.name = none ∧ f.resolveAbsent r = .ok s ∨
      ∃ j held v, members.lookup f.name = some j ∧ heldValue f r = .ok held ∧
        toValue reg resolve options (.ofField f) held j = .ok v ∧ f.set r v = .ok s := by
  unfold toField at ok
  split at ok
  · rename_i missing
    exact .inl ⟨missing, ok⟩
  · rename_i j found
    obtain ⟨held, looked, ok⟩ := bind_eq_ok.mp ok
    obtain ⟨v, reads, set⟩ := bind_eq_ok.mp ok
    exact .inr ⟨j, held, v, found, looked, inField_eq_ok.mp reads, set⟩

theorem toFields_cons_eq_ok
    (ok : toFields reg resolve options members (f :: fields) r = (.ok (), s)) :
    ∃ next, toField reg resolve options members f r = .ok next ∧
      toFields reg resolve options members fields next = (.ok (), s) := by
  rw [toFields] at ok
  split at ok
  · rename_i next read
    exact ⟨next, read, ok⟩
  · cases ok

/-- What a nested object is read as is what the object is read as by itself. -/
theorem decodeInto_ok (inside : toRecord reg resolve options members target = .ok r) :
    (decodeInto reg resolve options (.object members)).perform target = (.ok (), r) := by
  obtain ⟨d, found, walked⟩ := toRecord_eq_ok inside
  have described := Registry.descriptorFor_eq.mpr found
  have looked : (getThe Record : Action Record Record).perform target = (.ok target, target) := rfl
  simp only [decodeInto, Action.perform_bind, looked, Action.perform_ofExcept, described,
    Action.perform_ofFunction, walked]

/-- A tree that is read into a record is an object whose members are read for its fields. -/
theorem decodeInto_eq_ok (ok : (decodeInto reg resolve options j).perform target = (.ok (), r)) :
    ∃ members d, j = .object members ∧ reg.byType? target.type = some d ∧
      toFields reg resolve options members d.fields target = (.ok (), r) := by
  unfold decodeInto at ok
  split at ok
  · rename_i members
    obtain ⟨here, _, looked, ok⟩ := Action.perform_bind_eq_ok.mp ok
    obtain ⟨rfl, rfl⟩ : target = here ∧ target = _ := Prod.mk.inj looked |>.imp_left Except.ok.inj
    obtain ⟨d, _, found, ok⟩ := Action.perform_bind_eq_ok.mp ok
    obtain ⟨described, rfl⟩ := Action.perform_ofExcept_eq_ok.mp found
    exact ⟨members, d, rfl, Registry.descriptorFor_eq.mp described, ok⟩
  · cases ok

end

end Json

end ObjectMapping
