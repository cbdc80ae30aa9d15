import Mathlib
import ObjectMapping.Proofs.Json.Recovery

/-! A record that is written without its nulls is read back into a new record of its type,
provided that a field without a member becomes null wherever the record has null. A field that
is required, that has another default, or that new records begin with otherwise, does not. -/
namespace ObjectMapping.Json

/-- A record whose nulls are implied by a new one of its type is read back, with or without
its nulls in the tree, as a record that agrees with it at every depth. -/
theorem decodeInto_encode_implied {c : Catalogue} {reg : Registry} {options : JsonOptions}
    {o : Record} {j : Json} (types : c.Sound) (built : ∀ d ∈ objects, d.Built c)
    (accepted : Registry.build objects enums = .ok reg)
    (key : ∀ d ∈ reg.objects, ∀ f ∈ d.fields, f.name ≠ options.typeKey)
    (typed : o.Instance c) (carried : CarriesRecord reg o)
    (implied : (Value.object o).NullsImplied reg (.object (c.initial o.type)))
    (encoded : encode reg options o = .ok j) :
    ∃ r, (decodeInto reg reg.resolver options j).perform (c.initial o.type) = (.ok (), r) ∧
      (Value.object o).Agrees reg (.object r) := by
  have sound := Registry.sound_of_build built accepted
  have setting : Setting c reg options := ⟨types, sound, key⟩
  obtain ⟨d, members, found, rfl, _, into⟩ := recovered setting o typed false j carried encoded
  obtain ⟨initial, same, inside⟩ := sound.initial_of_byType types found
  rw [initial] at implied ⊢
  obtain ⟨r, read, _, agree, _⟩ := into d.initial same inside (.inr implied)
  exact ⟨r, decodeInto_ok read, agree.agrees fun d member => (sound.described d member).owned⟩

namespace Letter

def paid : Slot := ⟨"paid", .nullable (.plain .int32), 0, 8⟩

def stamp : Slot := ⟨"stamp", .record "Stamp", 0, 8⟩

def reply : Slot := ⟨"reply", .variant, 8, 16⟩

def note : Slot := ⟨"note", .nullable (.plain .string), 24, 32⟩

/-- A stamp may have been paid for. -/
def stamped (price : Datum) : Record := .mk "Stamp" [("paid", price)]

/-- A letter has a stamp, perhaps another letter as its reply, and perhaps a note. -/
def letter (price answer text : Datum) : Record :=
  .mk "Letter" [("stamp", .record (stamped price)), ("reply", answer), ("note", text)]

def stampType : RecordType := ⟨"Stamp", [paid], 8, stamped .unset⟩

/-- Letters, where new ones begin with a given note. -/
def letterType (text : Datum) : RecordType :=
  ⟨"Letter", [stamp, reply, note], 56, letter .unset .vacant text⟩

def catalogue (text : Datum) : Catalogue := [stampType, letterType text]

def paidField (text : Datum) : Field := Field.ofSlot (catalogue text) "Stamp" paid "paid"

def stampField (text : Datum) : Field := Field.ofSlot (catalogue text) "Letter" stamp "stamp"

def replyField (text : Datum) : Field := Field.ofSlot (catalogue text) "Letter" reply "reply"

def noteField (text : Datum) : Field := Field.ofSlot (catalogue text) "Letter" note "note"

def stampDescriptor (text : Datum) : Descriptor :=
  ⟨"Stamp", "Stamp", "Stamp", none, [paidField text], 0, stamped .unset⟩

/-- Letters are described with a note field of any declaration. -/
def letterDescriptor (text : Datum) (f : Field) : Descriptor :=
  ⟨"Letter", "Letter", "Letter", none, [stampField text, replyField text, f], 0,
    letter .unset .vacant text⟩

def registry (text : Datum) (f : Field) : Registry :=
  ⟨[stampDescriptor text, letterDescriptor text f], []⟩

/-- Nulls are left out. -/
def sparse : JsonOptions := ⟨"@type", false, false⟩

variable {text price answer words : Datum} {f : Field}

private theorem instance_stamped (holds : price.Holds (catalogue text) paid.shape) :
    (stamped price).Instance (catalogue text) := by
  have found : (catalogue text).type? "Stamp" = some stampType := rfl
  refine .of_slots found fun slot member => ?_
  obtain rfl := List.mem_singleton.mp member
  exact ⟨price, rfl, holds⟩

private theorem instance_letter (price_holds : price.Holds (catalogue text) paid.shape)
    (answer_holds : answer.Holds (catalogue text) .variant)
    (words_hold : words.Holds (catalogue text) note.shape) :
    (letter price answer words).Instance (catalogue text) := by
  have found : (catalogue text).type? "Letter" = some (letterType text) := rfl
  refine .of_slots found fun slot member => ?_
  simp only [letterType, List.mem_cons, List.not_mem_nil, or_false] at member
  rcases member with rfl | rfl | rfl
  · exact ⟨_, rfl, .record rfl (instance_stamped price_holds)⟩
  · exact ⟨answer, rfl, answer_holds⟩
  · exact ⟨words, rfl, words_hold⟩

private theorem sound_catalogue (holds : text.Holds (catalogue text) note.shape) :
    (catalogue text).Sound := by
  intro name t found
  have member := List.mem_of_find?_eq_some found
  have same : t.name = name := by simpa using List.find?_some found
  simp only [catalogue, List.mem_cons, List.not_mem_nil, or_false] at member
  rcases member with rfl | rfl
  · exact ⟨same, instance_stamped .unset⟩
  · exact ⟨same, instance_letter .unset .vacant holds⟩

def draft (text : Datum) (f : Field) : Descriptor.Draft :=
  (((Descriptor.draft (letterType text) "Letter").field (stampField text)).field
    (replyField text)).field f

private theorem built_descriptors (declared : f.Declared (catalogue text))
    (ok : (draft text f).build = .ok (letterDescriptor text f)) :
    ∀ d ∈ (registry text f).objects, d.Built (catalogue text) := by
  have hasPaid : stampType.slot? paid.name = some paid := rfl
  have hasStamp : (letterType text).slot? stamp.name = some stamp := rfl
  have hasReply : (letterType text).slot? reply.name = some reply := rfl
  have stampKnown : (catalogue text).type? stampType.name = some stampType := rfl
  have letterKnown : (catalogue text).type? (letterType text).name = some (letterType text) := rfl
  intro d member
  simp only [registry, List.mem_cons, List.not_mem_nil, or_false] at member
  rcases member with rfl | rfl
  · have formed := (Descriptor.Draft.Formed.draft stampKnown "Stamp").field
      (.slot stampKnown hasPaid 0 "paid")
    exact .build formed (by cbv)
  · have first := (Descriptor.Draft.Formed.draft letterKnown "Letter").field
      (.slot letterKnown hasStamp 0 "stamp")
    exact .build ((first.field (.slot letterKnown hasReply 8 "reply")).field declared) ok

private theorem declared_note (text : Datum) : (noteField text).Declared (catalogue text) := by
  have known : (catalogue text).type? (letterType text).name = some (letterType text) := rfl
  have has : (letterType text).slot? note.name = some note := rfl
  exact .slot known has 24 "note"

private theorem name_ne_typeKey (name : f.name = "note") :
    ∀ d ∈ (registry text f).objects, ∀ g ∈ d.fields, g.name ≠ "@type" := by
  intro d member g here
  simp only [registry, List.mem_cons, List.not_mem_nil, or_false] at member
  rcases member with rfl | rfl
  · obtain rfl := List.mem_singleton.mp here
    exact (show "paid" ≠ "@type" by decide)
  · simp only [letterDescriptor, List.mem_cons, List.not_mem_nil, or_false] at here
    rcases here with rfl | rfl | rfl
    · exact (show "stamp" ≠ "@type" by decide)
    · exact (show "reply" ≠ "@type" by decide)
    · exact name ▸ (show "note" ≠ "@type" by decide)

private theorem paid_reads (text price : Datum) :
    (paidField text).get (stamped price) = .ok price.toValue := by
  have plain : (paidField text).type ≠ .enum := (by decide : FieldType.int32 ≠ .enum)
  rw [Field.get_eq rfl rfl, Field.present_of_ne_enum plain]

private theorem reply_reads (text price answer words : Datum) :
    (replyField text).get (letter price answer words) = .ok answer.toValue := by
  have plain : (replyField text).type ≠ .enum := (by decide : FieldType.variant ≠ .enum)
  rw [Field.get_eq rfl rfl, Field.present_of_ne_enum plain]

private theorem forall_fields {P : Field → Prop} (stamp : P (stampField text))
    (reply : P (replyField text)) (note : P f) : ∀ g ∈ (letterDescriptor text f).fields, P g := by
  intro g member
  simp only [letterDescriptor, List.mem_cons, List.not_mem_nil, or_false] at member
  rcases member with rfl | rfl | rfl
  · exact stamp
  · exact reply
  · exact note

private theorem carries_letter
    (paid : CarriesValue (registry text f) (.ofField (paidField text)) price.toValue)
    (reply : CarriesValue (registry text f) (.ofField (replyField text)) answer.toValue)
    (absent : f.get (letter price answer words) = .ok .null) :
    CarriesRecord (registry text f) (letter price answer words) := by
  have known : (registry text f).byType? "Letter" = some (letterDescriptor text f) := rfl
  have knownStamp : (registry text f).byType? "Stamp" = some (stampDescriptor text) := rfl
  intro d found
  obtain rfl := Option.some.inj (known.symm.trans found)
  refine forall_fields ?_ ?_ ?_
  · intro v read
    obtain rfl : Value.object (stamped price) = v := Except.ok.inj read
    refine .object fun d found g member v read => ?_
    obtain rfl := Option.some.inj (knownStamp.symm.trans found)
    obtain rfl := List.mem_singleton.mp member
    obtain rfl := Except.ok.inj ((paid_reads text price).symm.trans read)
    exact paid
  · intro v read
    obtain rfl := Except.ok.inj ((reply_reads text price answer words).symm.trans read)
    exact reply
  · intro v read
    obtain rfl := Except.ok.inj (absent.symm.trans read)
    exact .null

/-- A letter without a note is read into a new one without its nulls, if that is so of the
letter that it answers. -/
private theorem implied_letter {held : Value}
    (chosen : held.recordOr (letterDescriptor .unset f).initial = letter .unset .vacant .unset)
    (read : f.get (letter price answer .unset) = .ok .null)
    (absent : f.NullWhenAbsent (letter .unset .vacant .unset))
    (paid : price.toValue ≠ .null → price.toValue.NullsImplied (registry .unset f) .null)
    (inside : answer.toValue ≠ .null → answer.toValue.NullsImplied (registry .unset f) .null) :
    (Value.object (letter price answer .unset)).NullsImplied (registry .unset f) held := by
  have known : (registry .unset f).byType? "Letter" = some (letterDescriptor .unset f) := rfl
  have knownStamp : (registry .unset f).byType? "Stamp" = some (stampDescriptor .unset) := rfl
  have stamp : (Value.object (stamped price)).NullsImplied (registry .unset f)
      (.object (stamped .unset)) := by
    refine .of_fields knownStamp fun g member => ?_
    obtain rfl := List.mem_singleton.mp member
    exact ⟨_, paid_reads .unset price, fun _ => paid_reads .unset .unset,
      fun _ object => (by cases object), fun something _ => paid something⟩
  refine .of_fields known ?_
  rw [chosen]
  refine forall_fields ?_ ?_ ?_
  · exact ⟨_, rfl, fun null => (by cases null), fun _ _ => ⟨_, rfl, stamp⟩,
      fun _ other => (other rfl).elim⟩
  · exact ⟨_, reply_reads .unset price answer .unset, fun _ => rfl,
      fun _ object => (by cases object), fun something _ => inside something⟩
  · exact ⟨_, read, fun _ => absent, fun something => (something rfl).elim,
      fun something => (something rfl).elim⟩

/-- Notes that receive null when they are absent. -/
def clearedNote : Field := (noteField .unset).withDefault .null

/-- A letter without postage that has been answered by one with it. -/
def answered : Record :=
  letter .unset (.occupied (letter (.present (.scalar (.int32 3))) .vacant .unset)) .unset

def answeredTree : Json :=
  .object [
    ("reply", .object [("@type", .string "Letter"), ("stamp", .object [("paid", .integer 3)])]),
    ("stamp", .object [])]

/-- A letter without anything. -/
def blank : Record := letter .unset .vacant .unset

def blankTree : Json := .object [("stamp", .object [])]

/-- A letter without anything is not read back without its nulls, where new letters begin with
the given note and the note is declared like this. -/
def Lost (text : Datum) (f : Field) : Prop :=
  (catalogue text).Sound ∧ (∀ d ∈ (registry text f).objects, d.Built (catalogue text)) ∧
    Registry.build (registry text f).objects [] = .ok (registry text f) ∧
    (∀ d ∈ (registry text f).objects, ∀ g ∈ d.fields, g.name ≠ sparse.typeKey) ∧
    blank.Instance (catalogue text) ∧ CarriesRecord (registry text f) blank ∧
    ∃ j, encode (registry text f) sparse blank = .ok j ∧
      ¬∃ r, (decodeInto (registry text f) (registry text f).resolver sparse j).perform
        ((catalogue text).initial blank.type) = (.ok (), r) ∧
        (Value.object blank).Agrees (registry text f) (.object r)

/-- The tree of a letter without anything leaves the rest of a new one as it is and mentions no
note. -/
private theorem resolved_of_decode {r : Record} (name : f.name = "note")
    (read : (decodeInto (registry text f) (registry text f).resolver sparse blankTree).perform
      (letter .unset .vacant text) = (.ok (), r)) :
    f.resolveAbsent (letter .unset .vacant text) = .ok r := by
  have paid : toField (registry text f) (registry text f).resolver sparse [] (paidField text)
      (stamped .unset) = .ok (stamped .unset) := toField_absent rfl
  have stamp : toRecord (registry text f) (registry text f).resolver sparse [] (stamped .unset) =
      .ok (stamped .unset) := by
    refine toRecord_ok (d := stampDescriptor text) rfl ?_
    simp only [stampDescriptor, toFields, paid]
  have stamps : toField (registry text f) (registry text f).resolver sparse
      [("stamp", .object [])] (stampField text) (letter .unset .vacant text) =
      .ok (letter .unset .vacant text) :=
    toField_ok rfl rfl (toValue_nested rfl rfl stamp) rfl
  have replies : toField (registry text f) (registry text f).resolver sparse
      [("stamp", .object [])] (replyField text) (letter .unset .vacant text) =
      .ok (letter .unset .vacant text) := toField_absent rfl
  have notes : toField (registry text f) (registry text f).resolver sparse
      [("stamp", .object [])] f (letter .unset .vacant text) =
      f.resolveAbsent (letter .unset .vacant text) := toField_absent (by rw [name]; rfl)
  have looked : (getThe Record : Action Record Record).perform (letter .unset .vacant text) =
      (.ok (letter .unset .vacant text), letter .unset .vacant text) := rfl
  have described : (registry text f).descriptorFor (letter .unset .vacant text) =
      .ok (letterDescriptor text f) := rfl
  simp only [decodeInto, blankTree, Action.perform_bind, looked, Action.perform_ofExcept, described,
    Action.perform_ofFunction, letterDescriptor, toFields, stamps, replies, notes] at read
  cases resolved : f.resolveAbsent (letter .unset .vacant text) with
  | ok changed =>
    rw [resolved] at read
    exact congrArg Except.ok (congrArg Prod.snd read)
  | error e =>
    rw [resolved] at read
    cases congrArg Prod.fst read

/-- It is enough that a new letter does not have a null for its note after none was mentioned. -/
private theorem Lost.of_filled (holds : text.Holds (catalogue text) note.shape)
    (declared : f.Declared (catalogue text)) (name : f.name = "note")
    (absent : f.get blank = .ok .null)
    (ok : (draft text f).build = .ok (letterDescriptor text f))
    (accepted : Registry.build (registry text f).objects [] = .ok (registry text f))
    (encoded : encode (registry text f) sparse blank = .ok blankTree)
    (filled : ∀ r, f.resolveAbsent (letter .unset .vacant text) = .ok r → f.get r ≠ .ok .null) :
    Lost text f := by
  refine ⟨sound_catalogue holds, built_descriptors declared ok, accepted, name_ne_typeKey name,
    instance_letter .unset .vacant .unset, carries_letter .null .null absent, _, encoded, ?_⟩
  rintro ⟨r, read, agree⟩
  have known : (registry text f).byType? "Letter" = some (letterDescriptor text f) := rfl
  cases agree with
  | object _ found first second reads each =>
    obtain rfl := Option.some.inj (known.symm.trans found)
    have member : f ∈ (letterDescriptor text f).fields := by simp [letterDescriptor]
    obtain ⟨here, there⟩ := reads f member
    have same := each f member
    rw [← Except.ok.inj (absent.symm.trans here)] at same
    cases second : second f with
    | null => exact filled r (resolved_of_decode name read) (second ▸ there)
    | _ =>
      rw [second] at same
      cases same

/-- Notes that receive a text when they are absent. -/
def defaultedNote : Field := (noteField .unset).withDefault (.string "none")

/-- Notes that may not be absent. -/
def requiredNote : Field := { noteField .unset with mandatoriness := .required }

def noted : Datum := .present (.scalar (.string "none"))

private theorem lost_default : Lost .unset defaultedNote := by
  have encoded : encode (registry .unset defaultedNote) sparse blank = .ok blankTree := by cbv
  have filled : defaultedNote.resolveAbsent blank = .ok (letter .unset .vacant noted) := rfl
  refine .of_filled .unset ((declared_note .unset).withDefault _) rfl rfl rfl rfl encoded
    fun r read null => ?_
  obtain rfl := Except.ok.inj (filled.symm.trans read)
  cases null

private theorem lost_required : Lost .unset requiredNote := by
  have encoded : encode (registry .unset requiredNote) sparse blank = .ok blankTree := by cbv
  refine .of_filled .unset ((declared_note .unset).mandatoriness .required) rfl rfl rfl rfl encoded
    fun r read _ => ?_
  cases read

private theorem lost_initial : Lost noted (noteField noted) := by
  have encoded : encode (registry noted (noteField noted)) sparse blank = .ok blankTree := by cbv
  refine .of_filled (.present (.plain rfl)) (declared_note noted) rfl rfl rfl rfl encoded
    fun r read null => ?_
  obtain rfl := Except.ok.inj read
  cases null

end Letter

open Letter in
theorem decodeInto_encode_implied_letter :
    encode (registry .unset clearedNote) sparse answered = .ok answeredTree ∧
      (Value.object answered).NullsImplied (registry .unset clearedNote)
        (.object ((catalogue .unset).initial answered.type)) ∧
      ∃ r, (decodeInto (registry .unset clearedNote) (registry .unset clearedNote).resolver sparse
        answeredTree).perform ((catalogue .unset).initial answered.type) = (.ok (), r) ∧
        (Value.object answered).Agrees (registry .unset clearedNote) (.object r) := by
  have encoded : encode (registry .unset clearedNote) sparse answered = .ok answeredTree := by cbv
  have declared : clearedNote.Declared (catalogue .unset) :=
    (declared_note .unset).withDefault .null
  have accepted : Registry.build (registry .unset clearedNote).objects [] =
      .ok (registry .unset clearedNote) := rfl
  have carried : CarriesRecord (registry .unset clearedNote) answered :=
    carries_letter .null (.object (carries_letter (.scalar trivial) .null rfl)) rfl
  have inner : (Value.object (letter (.present (.scalar (.int32 3))) .vacant .unset)).NullsImplied
      (registry .unset clearedNote) .null :=
    implied_letter rfl rfl rfl (fun _ => .scalar _ _) fun something => (something rfl).elim
  have implied : (Value.object answered).NullsImplied (registry .unset clearedNote)
      (.object ((catalogue .unset).initial answered.type)) :=
    implied_letter rfl rfl rfl (fun something => (something rfl).elim) fun _ => inner
  have holds : (Datum.present (.scalar (.int32 3))).Holds (catalogue .unset) paid.shape :=
    .present (.plain rfl)
  have inside := instance_letter holds .vacant .unset
  exact ⟨encoded, implied, decodeInto_encode_implied (sound_catalogue .unset)
    (built_descriptors declared rfl) accepted (name_ne_typeKey rfl)
    (instance_letter .unset (.occupied inside) .unset) carried implied encoded⟩

open Letter in
/-- A null that is left out is replaced by another default, refused where the field is required,
and hidden by what new records begin with. -/
theorem omitted_null_lost :
    Lost .unset defaultedNote ∧ Lost .unset requiredNote ∧ Lost noted (noteField noted) :=
  ⟨lost_default, lost_required, lost_initial⟩

end ObjectMapping.Json
