import ObjectMapping.Json.Interchange
import ObjectMapping.Proofs.Json.Omission

/-! Members that no field is read from have no influence. Trees that differ in nothing else are read
into the same record, with the same outcome. -/
namespace ObjectMapping.Json

variable {reg : Registry} {resolve : Resolver} {options : JsonOptions}
variable {members others : List (String × Json)} {context : Context} {held : Option Value}
variable {d : Descriptor} {key : String}

/-- A polymorphic object names its type under the type key alone. -/
theorem namedTarget_congr
    (tag : others.lookup options.typeKey = members.lookup options.typeKey) :
    namedTarget resolve options others = namedTarget resolve options members := by
  unfold namedTarget
  rw [tag]

/-- A record is read as its fields are. -/
theorem toRecord_congr {target : Record}
    (same : ∀ d, reg.byType? target.type = some d →
      toFields reg resolve options others d.fields target =
        toFields reg resolve options members d.fields target) :
    toRecord reg resolve options others target = toRecord reg resolve options members target := by
  rw [toRecord, toRecord]
  cases described : reg.descriptorFor target with
  | error e => rfl
  | ok d => simp only [bind, Except.bind, same d (Registry.descriptorFor_eq.mp described)]

/-- What is read for the first field is the same, and then what is read for the others. -/
private theorem InterchangeableFields.first {f : Field} {rest : List Field} {r : Record}
    (alike : InterchangeableFields reg resolve options members others (f :: rest) r) :
    (members.lookup f.name = none ∧ others.lookup f.name = none ∨
      ∃ j k, members.lookup f.name = some j ∧ others.lookup f.name = some k ∧
        ∀ held, heldValue f r = .ok held →
          Interchangeable reg resolve options (.ofField f) held j k) ∧
      ∀ s, toField reg resolve options members f r = .ok s →
        InterchangeableFields reg resolve options members others rest s := by
  cases alike with
  | absent missing neither later => exact ⟨.inl ⟨missing, neither⟩, later⟩
  | member found also inside later => exact ⟨.inr ⟨_, _, found, also, inside⟩, later⟩

-- The two runs go down the trees side by side, so the induction is on the size of the first tree.
mutual

private theorem toValue_interchange {context : Context} {held : Option Value} {j k : Json}
    (alike : Interchangeable reg resolve options context held j k) :
    toValue reg resolve options context held k = toValue reg resolve options context held j := by
  cases alike with
  | same => rfl
  | @nested _ _ members others object inside =>
    rw [toValue_object_eq object, toValue_object_eq object]
    cases place : nestedTarget reg context held with
    | error e => rfl
    | ok target =>
      have read : toRecord reg resolve options others target =
          toRecord reg resolve options members target :=
        toRecord_congr fun d found => toFields_interchange (inside target d place found)
      simp only [bind, Except.bind, read]
  | @named _ _ members others variant tag inside =>
    rw [toValue_variant_eq variant, toValue_variant_eq variant, namedTarget_congr tag]
    cases made : namedTarget resolve options members with
    | error e => rfl
    | ok target =>
      have read : toRecord reg resolve options others target =
          toRecord reg resolve options members target :=
        toRecord_congr fun d found => toFields_interchange (inside target d made found)
      simp only [bind, Except.bind, read]
  | @list _ _ items others array each =>
    rw [toValue_array_eq array, toValue_array_eq array]
    cases described : context.elements with
    | error e => rfl
    | ok element => simp only [bind, Except.bind, toItems_interchange (each element described)]
termination_by (sizeOf j, 0, 0)

private theorem toItems_interchange {context : Context} {items others : List Json}
    (alike : InterchangeableItems reg resolve options context items others) :
    toItems reg resolve options context others = toItems reg resolve options context items := by
  cases alike with
  | nil => rfl
  | cons first rest =>
    rw [toItems, toItems, toValue_interchange first, toItems_interchange rest]
termination_by (sizeOf items, 0, 0)

private theorem toFields_interchange {members others : List (String × Json)} {fields : List Field}
    {r : Record} (alike : InterchangeableFields reg resolve options members others fields r) :
    toFields reg resolve options others fields r = toFields reg resolve options members fields r := by
  cases fields with
  | nil => rw [toFields, toFields]
  | cons f rest =>
    obtain ⟨read, later⟩ := alike.first
    have step : toField reg resolve options others f r = toField reg resolve options members f r := by
      rcases read with ⟨missing, neither⟩ | ⟨j, k, found, also, inside⟩
      · rw [toField_absent neither, toField_absent missing]
      · have smaller := sizeOf_lookup_lt found
        rw [toField_found also, toField_found found]
        cases looked : heldValue f r with
        | error e => rfl
        | ok held => simp only [bind, Except.bind, toValue_interchange (inside held looked)]
    rw [toFields, toFields, step]
    cases read : toField reg resolve options members f r with
    | error e => rfl
    | ok s => exact toFields_interchange (later s read)
termination_by (sizeOf members, 1, fields.length)

end

/-- Members of the same names may stand for each other as they are. -/
theorem interchangeableFields_of_lookup {fields : List Field} {r : Record}
    (same : ∀ f ∈ fields, others.lookup f.name = members.lookup f.name) :
    InterchangeableFields reg resolve options members others fields r := by
  induction fields generalizing r with
  | nil => exact .nil
  | cons f rest ih =>
    obtain ⟨here, later⟩ := List.forall_mem_cons.mp same
    cases found : members.lookup f.name with
    | none => exact .absent found (here.trans found) fun _ _ => ih later
    | some j => exact .member found (here.trans found) (fun _ _ => .same j) fun _ _ => ih later

/-- A member may be added that is no field's. -/
theorem interchangeableFields_insert {r : Record} (lacks : d.Lacks key) (j : Json) :
    InterchangeableFields reg resolve options members (insert key j members) d.fields r :=
  interchangeableFields_of_lookup fun f listed => lookup_insert_other (lacks f listed) j members

/-- Reading takes no notice of members that none of the fields read from an object has the name of,
in the tree itself and in all that is nested in it: neither whether reading succeeds, and with which
error it fails, nor what the record holds then, depends on them. In particular such members may be
added to the tree and to the objects in it, under another key than that of the type if those are
polymorphic. -/
theorem decodeInto_interchange (reg : Registry) (resolve : Resolver) (options : JsonOptions)
    (target : Record) :
    (∀ j k, InterchangeableInto reg resolve options target j k →
      (decodeInto reg resolve options k).perform target =
        (decodeInto reg resolve options j).perform target) ∧
    (∀ members key j, (∀ d, reg.byType? target.type = some d → d.Lacks key) →
      InterchangeableInto reg resolve options target
        (.object members) (.object (insert key j members))) ∧
    (∀ context held members key j, context.type = .object →
      (∀ nested d, nestedTarget reg context held = .ok nested →
        reg.byType? nested.type = some d → d.Lacks key) →
      Interchangeable reg resolve options context held
        (.object members) (.object (insert key j members))) ∧
    ∀ context held members key j, context.type = .variant → options.typeKey ≠ key →
      (∀ named d, namedTarget resolve options members = .ok named →
        reg.byType? named.type = some d → d.Lacks key) →
      Interchangeable reg resolve options context held
        (.object members) (.object (insert key j members)) := by
  refine ⟨fun j k alike => ?_, fun members key j lacks => .object fun d found => ?_,
    fun context held members key j object lacks => .nested object fun nested d place found => ?_,
    fun context held members key j variant other lacks =>
      .named variant (lookup_insert_other other j members) fun named d made found => ?_⟩
  · cases alike with
    | same => rfl
    | object inside =>
      have looked : (getThe Record : Action Record Record).perform target = (.ok target, target) := rfl
      simp only [decodeInto, Action.perform_bind, looked, Action.perform_ofExcept]
      cases described : reg.descriptorFor target with
      | error e => rfl
      | ok d => exact toFields_interchange (inside d (Registry.descriptorFor_eq.mp described))
  · exact interchangeableFields_insert (lacks d found) j
  · exact interchangeableFields_insert (lacks nested d place found) j
  · exact interchangeableFields_insert (lacks named d made found) j

namespace Letter

/-- The tree of an answered letter with a date, a sender and colours, of which letters and stamps know
nothing. -/
def markedTree : Json :=
  .object [
    ("date", .integer 7),
    ("reply", .object [("@type", .string "Letter"), ("from", .string "Ann"),
      ("stamp", .object [("colour", .string "red"), ("paid", .integer 3)])]),
    ("stamp", .object [("colour", .null)])]

/-- What is on the stamp of a new letter besides what has been paid makes no difference. -/
private theorem interchangeable_stamp
    (same : others.lookup "paid" = members.lookup "paid")
    (looked : heldValue (stampField .unset) blank = .ok held) :
    Interchangeable (registry .unset clearedNote) resolve options (.ofField (stampField .unset)) held
      (.object members) (.object others) := by
  have stamped : heldValue (stampField .unset) blank = .ok (some (.object (stamped .unset))) := rfl
  obtain rfl := Except.ok.inj (stamped.symm.trans looked)
  refine .nested rfl fun target d place found => ?_
  obtain rfl := Except.ok.inj place
  obtain rfl : stampDescriptor .unset = d := Option.some.inj found
  refine interchangeableFields_of_lookup fun f listed => ?_
  obtain rfl := List.mem_singleton.mp listed
  exact same

end Letter

open Letter in
/-- The marked letter is read like the answered one. -/
theorem decodeInto_interchange_marked :
    InterchangeableInto (registry .unset clearedNote) (registry .unset clearedNote).resolver sparse
      blank answeredTree markedTree ∧
    (decodeInto (registry .unset clearedNote) (registry .unset clearedNote).resolver sparse
      markedTree).perform blank = (.ok (), answered) := by
  have read : (decodeInto (registry .unset clearedNote) (registry .unset clearedNote).resolver sparse
      answeredTree).perform blank = (.ok (), answered) := by cbv
  have alike : InterchangeableInto (registry .unset clearedNote)
      (registry .unset clearedNote).resolver sparse blank answeredTree markedTree := by
    refine .object fun d found => ?_
    obtain rfl : letterDescriptor .unset clearedNote = d := Option.some.inj found
    refine .member rfl rfl (fun held looked => interchangeable_stamp rfl looked) fun s _ =>
      .member rfl rfl (fun held _ => .named rfl rfl fun target d made found => ?_) fun s _ =>
        .absent rfl rfl fun s _ => .nil
    obtain rfl : blank = target := Except.ok.inj made
    obtain rfl : letterDescriptor .unset clearedNote = d := Option.some.inj found
    exact .member rfl rfl (fun held looked => interchangeable_stamp rfl looked) fun s _ =>
      .absent rfl rfl fun s _ => .absent rfl rfl fun s _ => .nil
  obtain ⟨same, -⟩ := decodeInto_interchange (registry .unset clearedNote)
    (registry .unset clearedNote).resolver sparse blank
  exact ⟨alike, (same _ _ alike).trans read⟩

end ObjectMapping.Json
