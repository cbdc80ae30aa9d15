import ObjectMapping.Descriptor.Construct
import ObjectMapping.Json.Polymorphic
import ObjectMapping.Proofs.Field.Access

/-! Making an instance from named values. Each field is served once, in the order of the descriptor,
and no step disturbs what another one has written, so that an instance is made exactly if every
field can be served in a fresh one. -/
namespace ObjectMapping

namespace Shape

variable {s : Shape} {v : Value} {d : Datum}

theorem shown_null (s : Shape) : s.shown .null = .null := by
  induction s with
  | plain p => cases p <;> rfl
  | nullable inner ih => exact ih
  | enum | record | variant | list => rfl

theorem shown_plain {p : PlainShape} {a : Scalar} (kept : ¬(plain p).Recasts (.scalar a)) :
    (plain p).shown (.scalar a) = .scalar a := by
  cases p with
  | uint32 =>
    cases a with
    | enum n => exact absurd (.number n) kept
    | _ => rfl
  | _ => rfl

private theorem toValues_of_mapM {read : Value → Value} {items : List Value} {ds : List Datum}
    (each : ∀ v d, s.ofValue v = .ok d → d.toValue = read v)
    (ok : items.mapM s.ofValue = .ok ds) : Datum.toValues ds = items.map read := by
  induction items generalizing ds with
  | nil =>
    obtain rfl := Except.ok.inj ok
    rfl
  | cons v items ih =>
    obtain ⟨d, rest, first, later, rfl⟩ := mapM_cons_eq_ok.mp ok
    rw [Datum.toValues, List.map_cons, each v d first, ih later]

/-- What a slot has stored is read as the value that it shows. -/
theorem shown_of_ofValue (ok : s.ofValue v = .ok d) : d.toValue = s.shown v := by
  induction s generalizing v d with
  | plain p =>
    cases ofValue_iff.mp ⟨d, ok⟩ with
    | @plain _ a same =>
      obtain rfl := Except.ok.inj ((ofValue_stored same).symm.trans ok)
      have kept : ¬(plain p).Recasts (.scalar a) := by
        rintro ⟨⟩
        cases same
      exact (shown_plain kept).symm
    | number n =>
      obtain rfl := Except.ok.inj ok
      rfl
  | enum e =>
    cases ofValue_iff.mp ⟨d, ok⟩ with
    | enum | enumNumber =>
      obtain rfl := enumOfNumber_ok ok
      rfl
  | record type =>
    cases ofValue_iff.mp ⟨d, ok⟩ with
    | record same => exact toValue_of_object ok
  | variant =>
    cases ofValue_iff.mp ⟨d, ok⟩ with
    | vacant | occupied =>
      obtain rfl := Except.ok.inj ok
      rfl
  | nullable inner ih =>
    cases nothing : v.isNull with
    | true =>
      obtain rfl := Value.eq_null_of_isNull nothing
      obtain rfl := Except.ok.inj ok
      exact (shown_null inner).symm
    | false =>
      rw [ofValue_nullable nothing] at ok
      obtain ⟨content, inside, rfl⟩ := except_map_eq_ok.mp ok
      have kept : content.toValue = inner.shown v := ih inside
      exact kept
  | list element ih =>
    cases v with
    | array items =>
      obtain ⟨ds, each, rfl⟩ := except_map_eq_ok.mp ok
      exact congrArg Value.array (toValues_of_mapM (fun v d => ih) each)
    | null | scalar | object => cases ok

theorem recasts_nullable : (nullable s).Recasts v ↔ s.Recasts v := by
  constructor
  · rintro ⟨⟩
    assumption
  · exact .nullable

/-- A slot shows the values that it does not recast as they are. -/
theorem shown_eq_iff : s.shown v = v ↔ ¬s.Recasts v := by
  induction s generalizing v with
  | plain p =>
    constructor
    · rintro same ⟨n⟩
      cases same
    · intro kept
      cases v with
      | scalar a => exact shown_plain kept
      | null | object | array => cases p <;> rfl
  | enum e =>
    constructor
    · rintro same ⟨⟩
      cases same
    · intro kept
      cases v with
      | scalar a =>
        cases a with
        | uint32 n => exact absurd (.enum e n) kept
        | _ => rfl
      | null | object | array => rfl
  | record | variant => exact ⟨fun _ => nofun, fun _ => rfl⟩
  | nullable inner ih => exact ih.trans (not_congr recasts_nullable.symm)
  | list element ih =>
    cases v with
    | array items =>
      have each : items.map element.shown = items ↔ ∀ v ∈ items, ¬element.Recasts v := by
        simpa [ih] using List.map_eq_map_iff (f := element.shown) (g := id) (l := items)
      have whole : (list element).shown (.array items) = .array items ↔
          items.map element.shown = items := ⟨Value.array.inj, congrArg _⟩
      rw [whole, each]
      constructor
      · rintro kept ⟨⟩
        exact kept _ ‹_› ‹_›
      · exact fun kept v member inside => kept (.item member inside)
    | null | scalar | object => exact ⟨fun _ => nofun, fun _ => rfl⟩

/-- Slots for numbers or the values of an enumeration take no other scalars. -/
theorem admits_number (admits : s.Admits v) (slot : s.type = .enum ∨ s.type = .uint32) :
    v = .null ∨ ∃ n, v = .enum n ∨ v = .uint32 n := by
  induction admits with
  | @plain p a same =>
    have numbers : p = .uint32 := by
      cases p <;> first | rfl | rcases slot with tag | tag <;> cases tag
    subst numbers
    cases a with
    | uint32 n => exact .inr ⟨n, .inr rfl⟩
    | _ => cases same
  | @enum n | number n => exact .inr ⟨n, .inl rfl⟩
  | @enumNumber n => exact .inr ⟨n, .inr rfl⟩
  | unset => exact .inl rfl
  | present inside ih => exact ih slot
  | record | vacant | occupied | list => rcases slot with tag | tag <;> cases tag

theorem Recasts.cases (recasts : s.Recasts v) : (∃ n, v = .enum n ∧ s.type = .uint32) ∨
    (∃ n, v = .uint32 n ∧ s.type = .enum) ∨ ∃ items, v = .array items ∧ s.type = .array := by
  induction recasts with
  | number n => exact .inl ⟨n, rfl, rfl⟩
  | enum e n => exact .inr (.inl ⟨n, rfl, rfl⟩)
  | nullable inside ih => exact ih
  | item => exact .inr (.inr ⟨_, rfl, rfl⟩)

end Shape

namespace Field

variable {c : Catalogue} {f : Field} {values : List (String × Value)} {r changed : Record} {v : Value}

theorem drawn_named (listed : values.lookup f.name = some v) : f.drawn? values = some v := by
  rw [drawn?, listed]

theorem drawn_default (absent : values.lookup f.name = none)
    (rule : f.mandatoriness = .defaultable) : f.drawn? values = some f.defaultForAbsent := by
  rw [drawn?, absent, if_pos rule]

theorem get_shown (ok : f.set r v = .ok changed) : f.get changed = .ok (f.shown v) := by
  obtain ⟨d, fits, read⟩ := get_of_set ok
  rw [read, shown, Shape.shown_of_ofValue fits]

/-- Only a field for the values of an enumeration has one of them as its default. -/
theorem enum_of_default {b : Descriptor.Draft} (linked : f.Linked c) (regular : f.Regular c)
    (quiet : b.complaint? f = none) (default : f.defaultForAbsent = .enum n) : f.type = .enum := by
  cases given : f.explicitDefault with
  | some v =>
    obtain rfl : v = .enum n := by simpa [defaultForAbsent, given] using default
    obtain ⟨suits, -⟩ := Descriptor.Draft.complaint_default quiet given
    have tag : (FieldType.enum == f.type) = true := by
      simpa [Descriptor.Draft.suits, Value.type?, Scalar.type] using suits
    exact (eq_of_beq tag).symm
  | none =>
    refine Decidable.byContradiction fun other => ?_
    have zero : (f.shape.zero c.initial).toValue = .enum n := by
      rw [← regular.zero, ← defaultForAbsent_zero given fun enum => other enum.2, default]
    have tag : f.shape.type = .enum := by
      cases shape : f.shape with
      | enum e => rfl
      | plain p =>
        rw [shape] at zero
        cases p <;> cases zero
      | record | variant | nullable | list =>
        rw [shape] at zero
        cases zero
    rcases linked.typed with same | ⟨enum, -⟩
    · exact other (same.trans tag)
    · exact other enum

/-- A value that the field takes is read as it is unless the field recasts it. -/
theorem shown_iff (linked : f.Linked c) (admits : f.shape.Admits v)
    (described : ∀ n, v = .enum n → f.type = .enum) : f.shown v = v ↔ ¬f.Recasts v := by
  by_cases enum : f.type = .enum
  · have slot : f.shape.type = .enum ∨ f.shape.type = .uint32 :=
      linked.typed.imp (fun same => same.symm.trans enum) And.right
    obtain ⟨content, fits⟩ := Shape.ofValue_iff.mpr admits
    have single : ¬f.type = .array := fun list => nomatch enum.symm.trans list
    have stored : f.shown v = f.present content.toValue := by
      rw [shown, Shape.shown_of_ofValue fits]
    rcases Shape.admits_number admits slot with rfl | ⟨n, rfl | rfl⟩
    · refine iff_of_true (stored.trans (present_eq_null.mpr ?_)) ?_
      · rw [Shape.shown_of_ofValue fits, Shape.shown_null]
      rintro ⟨⟩
      exact single ‹_›
    · refine iff_of_true (stored.trans (present_of_ofValue enum slot (.inl rfl) fits)) ?_
      rintro ⟨⟩
      exact single ‹_›
    · refine iff_of_false (fun same => ?_) fun kept => kept (.number enum n)
      cases (present_of_ofValue enum slot (.inr rfl) fits).symm.trans (stored.symm.trans same)
  · rw [shown, present_of_ne_enum enum, Shape.shown_eq_iff]
    refine not_congr ⟨?_, ?_⟩
    · intro recasts
      rcases recasts.cases with ⟨n, number, -⟩ | ⟨n, -, tag⟩ | ⟨items, -, tag⟩
      · exact absurd (described n number) enum
      · exact absurd (linked.typed.elim (fun same => same.trans tag) And.left) enum
      · exact .items (linked.typed.elim (fun same => same.trans tag) fun flags => absurd flags.1 enum)
          recasts
    · rintro (⟨number⟩ | ⟨-, inside⟩)
      · exact absurd number enum
      · exact inside

end Field

namespace Descriptor

variable {c : Catalogue} {d : Descriptor} {f : Field} {fields : List Field}
  {values : List (String × Value)} {r changed : Record} {v : Value}

/-- What is done for one field while an instance is made. -/
private def serve (values : List (String × Value)) (r : Record) (f : Field) : Except Error Record :=
  match values.lookup f.name with
  | some v => f.set r v
  | none => f.resolveAbsent r

/-- The field is named if it has to be, and its slot takes what is drawn for it. -/
private structure Servable (values : List (String × Value)) (f : Field) : Prop where
  required : f.mandatoriness = .required → ∃ v, values.lookup f.name = some v
  taken : ∀ v, f.drawn? values = some v → f.shape.Admits v

/-- Serving a field writes what is drawn for it, or nothing. -/
private theorem serve_eq_ok : serve values r f = .ok changed ↔
    (f.mandatoriness = .required → ∃ v, values.lookup f.name = some v) ∧
      ((∃ v, f.drawn? values = some v ∧ f.set r v = .ok changed) ∨
        f.drawn? values = none ∧ changed = r) := by
  unfold serve Field.drawn?
  cases values.lookup f.name with
  | some v => simp
  | none =>
    cases rule : f.mandatoriness <;> simp [Field.resolveAbsent, rule, eq_comm]

/-- What serving the fields has done to the record. -/
private structure Served (values : List (String × Value)) (fields : List Field) (r changed : Record) :
    Prop where
  type : changed.type = r.type
  drawn : ∀ f ∈ fields, ∀ v, f.drawn? values = some v →
    ∃ d, f.shape.ofValue v = .ok d ∧ changed.get? f.path = some d
  kept : ∀ f ∈ fields, f.drawn? values = none → changed.get? f.path = r.get? f.path
  others : ∀ g : Field, (∀ f ∈ fields, f.Apart g) → changed.get? g.path = r.get? g.path

private theorem served_of_serve (ok : serve values r f = .ok changed) :
    Served values [f] r changed := by
  obtain ⟨-, step⟩ := serve_eq_ok.mp ok
  rcases step with ⟨v, drawn, ok⟩ | ⟨nothing, rfl⟩
  · obtain ⟨-, d, fits, set⟩ := Field.set_eq_ok ok
    refine ⟨Record.set_type set, ?_, ?_, fun g apart => ?_⟩
    · intro f member w given
      obtain rfl := List.mem_singleton.mp member
      obtain rfl := Option.some.inj (drawn.symm.trans given)
      exact ⟨d, fits, Record.get_of_set set⟩
    · intro f member nothing
      obtain rfl := List.mem_singleton.mp member
      cases drawn.symm.trans nothing
    · obtain ⟨above, below⟩ := apart f List.mem_cons_self
      exact Record.get_of_set_apart set above below
  · refine ⟨rfl, fun f member v given => ?_, fun _ _ _ => rfl, fun _ _ => rfl⟩
    obtain rfl := List.mem_singleton.mp member
    cases nothing.symm.trans given

private theorem Served.cons {between : Record} (first : Served values [f] r between)
    (later : Served values fields between changed) (apart : ∀ g ∈ fields, f.Apart g) :
    Served values (f :: fields) r changed where
  type := later.type.trans first.type
  drawn g member v given := by
    rcases List.mem_cons.mp member with rfl | member
    · obtain ⟨d, fits, stored⟩ := first.drawn g List.mem_cons_self v given
      exact ⟨d, fits, (later.others g fun f member => (apart f member).symm).trans stored⟩
    · exact later.drawn g member v given
  kept g member nothing := by
    rcases List.mem_cons.mp member with rfl | member
    · exact (later.others g fun f member => (apart f member).symm).trans
        (first.kept g List.mem_cons_self nothing)
    · refine (later.kept g member nothing).trans (first.others g fun h alone => ?_)
      exact List.mem_singleton.mp alone ▸ apart g member
  others g others := by
    refine (later.others g fun h member => others h (List.mem_cons_of_mem _ member)).trans ?_
    refine first.others g fun h alone => ?_
    obtain rfl := List.mem_singleton.mp alone
    exact others h List.mem_cons_self

/-- Serving fields on disjoint slots does for each of them what serving it alone would do. -/
private theorem served_of_foldlM (apart : fields.Pairwise Field.Apart)
    (ok : fields.foldlM (serve values) r = .ok changed) : Served values fields r changed := by
  induction fields generalizing r with
  | nil =>
    obtain rfl := Except.ok.inj ok
    exact ⟨rfl, List.forall_mem_nil _, List.forall_mem_nil _, fun _ _ => rfl⟩
  | cons f fields ih =>
    obtain ⟨first, apart⟩ := List.pairwise_cons.mp apart
    rw [List.foldlM_cons] at ok
    obtain ⟨between, step, ok⟩ := bind_eq_ok.mp ok
    exact (served_of_serve step).cons (ih apart ok) first

private theorem serve_iff (linked : f.Linked c) (owned : r.type = f.owner)
    (found : r.get? f.path = some old) :
    (∃ changed, serve values r f = .ok changed) ↔ Servable values f := by
  simp only [serve_eq_ok]
  constructor
  · rintro ⟨changed, required, step⟩
    refine ⟨required, fun v given => ?_⟩
    rcases step with ⟨w, drawn, ok⟩ | ⟨nothing, -⟩
    · obtain rfl := Option.some.inj (drawn.symm.trans given)
      exact (Field.set_iff linked owned found).mp ⟨changed, ok⟩
    · cases nothing.symm.trans given
  · rintro ⟨required, taken⟩
    cases drawn : f.drawn? values with
    | none => exact ⟨r, required, .inr ⟨rfl, rfl⟩⟩
    | some v =>
      obtain ⟨changed, ok⟩ := (Field.set_iff linked owned found).mpr (taken v drawn)
      exact ⟨changed, required, .inl ⟨v, rfl, ok⟩⟩

/-- Fields on disjoint slots are served one after the other exactly if each of them can be. -/
private theorem foldlM_serve_iff (apart : fields.Pairwise Field.Apart)
    (linked : ∀ f ∈ fields, f.Linked c) (owned : ∀ f ∈ fields, r.type = f.owner)
    (found : ∀ f ∈ fields, ∃ d, r.get? f.path = some d) :
    (∃ changed, fields.foldlM (serve values) r = .ok changed) ↔
      ∀ f ∈ fields, Servable values f := by
  induction fields generalizing r with
  | nil => exact ⟨fun _ => List.forall_mem_nil _, fun _ => ⟨r, rfl⟩⟩
  | cons f fields ih =>
    obtain ⟨first, apart⟩ := List.pairwise_cons.mp apart
    obtain ⟨linkedFirst, linked⟩ := List.forall_mem_cons.mp linked
    obtain ⟨ownedFirst, owned⟩ := List.forall_mem_cons.mp owned
    obtain ⟨⟨old, here⟩, found⟩ := List.forall_mem_cons.mp found
    -- The other fields are found where they were once the first one has been served.
    have rest : ∀ between, serve values r f = .ok between →
        ((∃ changed, fields.foldlM (serve values) between = .ok changed) ↔
          ∀ g ∈ fields, Servable values g) := by
      intro between step
      have served := served_of_serve step
      refine ih apart linked (fun g member => served.type.trans (owned g member)) ?_
      intro g member
      obtain ⟨d, there⟩ := found g member
      refine ⟨d, (served.others g fun h alone => ?_).trans there⟩
      exact List.mem_singleton.mp alone ▸ first g member
    rw [List.forall_mem_cons, ← serve_iff linkedFirst ownedFirst here, List.foldlM_cons]
    constructor
    · rintro ⟨changed, ok⟩
      obtain ⟨between, step, ok⟩ := bind_eq_ok.mp ok
      exact ⟨⟨between, step⟩, (rest between step).mp ⟨changed, ok⟩⟩
    · rintro ⟨⟨between, step⟩, later⟩
      obtain ⟨changed, ok⟩ := (rest between step).mpr later
      exact ⟨changed, bind_eq_ok.mpr ⟨between, step, ok⟩⟩

/-- Lists of values with the same first value for each field make the same instance. -/
private theorem construct_congr {other : List (String × Value)}
    (same : ∀ f ∈ d.fields, values.lookup f.name = other.lookup f.name) :
    d.construct values = d.construct other := by
  have served : ∀ fields : List Field, (∀ f ∈ fields, values.lookup f.name = other.lookup f.name) →
      ∀ r, fields.foldlM (serve values) r = fields.foldlM (serve other) r := by
    intro fields same
    induction fields with
    | nil => exact fun r => rfl
    | cons f fields ih =>
      obtain ⟨first, same⟩ := List.forall_mem_cons.mp same
      intro r
      simp only [List.foldlM_cons, serve, first, ih same]
  exact served d.fields same d.initial

private theorem lookup_stranger {name key : String} (other : name ≠ key) (v : Value)
    (before after : List (String × Value)) :
    (before ++ (key, v) :: after).lookup name = (before ++ after).lookup name := by
  rw [List.lookup_append, lookup_cons_ne other, List.lookup_append]

/-- Values that are worded in another way have the same first value for each field. -/
theorem Rewords.lookup {other : List (String × Value)} (rewords : d.Rewords values other) :
    ∀ f ∈ d.fields, values.lookup f.name = other.lookup f.name := by
  induction rewords with
  | refl => exact fun f member => rfl
  | symm _ ih => exact fun f member => (ih f member).symm
  | trans _ _ first second => exact fun f member => (first f member).trans (second f member)
  | stranger unknown => exact fun f member => lookup_stranger (unknown f member) _ _ _
  | @duplicate key before after v earlier =>
    intro f member
    by_cases same : f.name = key
    · obtain ⟨entry, listed, named⟩ := List.mem_map.mp earlier
      have known : (before.lookup f.name).isSome :=
        List.lookup_isSome_iff.mpr ⟨entry, listed, by simp [same, named]⟩
      obtain ⟨w, found⟩ := Option.isSome_iff_exists.mp known
      rw [List.lookup_append, List.lookup_append, found, Option.some_or, Option.some_or]
    · exact lookup_stranger same _ _ _
  | @swap before after a b distinct =>
    intro f member
    rw [List.lookup_append, List.lookup_append]
    by_cases first : f.name = a.1
    · have second : f.name ≠ b.1 := fun same => distinct (first.symm.trans same)
      rw [lookup_cons_ne second, first, List.lookup_cons_self, List.lookup_cons_self]
    · rw [lookup_cons_ne first]
      exact congrArg _ (lookup_stranger first a.2 [b] after).symm

theorem Rewords.cons {other : List (String × Value)} (rewords : d.Rewords values other)
    (entry : String × Value) : d.Rewords (entry :: values) (entry :: other) := by
  induction rewords with
  | refl => exact .refl _
  | symm _ ih => exact ih.symm
  | trans _ _ first second => exact first.trans second
  | @stranger key before after v unknown =>
    have longer : d.Rewords (entry :: before ++ (key, v) :: after) (entry :: before ++ after) :=
      .stranger unknown
    exact longer
  | @duplicate key before after v earlier =>
    have longer : d.Rewords (entry :: before ++ (key, v) :: after) (entry :: before ++ after) :=
      .duplicate (List.mem_cons_of_mem _ earlier)
    exact longer
  | @swap before after a b distinct =>
    have longer : d.Rewords (entry :: before ++ a :: b :: after) (entry :: before ++ b :: a :: after) :=
      .swap distinct
    exact longer

/-- Entries of distinct names may be listed in any order. -/
theorem rewords_of_perm {other : List (String × Value)} (reordered : values.Perm other)
    (distinct : (values.map Prod.fst).Nodup) : d.Rewords values other := by
  induction reordered with
  | nil => exact .refl _
  | cons entry _ ih => exact (ih (List.nodup_cons.mp distinct).2).cons entry
  | swap a b rest =>
    have apart : b.1 ≠ a.1 := fun same => (List.nodup_cons.mp distinct).1 (same ▸ List.mem_cons_self)
    have swapped : d.Rewords ([] ++ b :: a :: rest) ([] ++ a :: b :: rest) := .swap apart
    exact swapped
  | trans first _ ih ih' => exact (ih distinct).trans (ih' ((first.map _).nodup_iff.mp distinct))

/-- A fresh instance needs what its fields can be served with. -/
private theorem suffices_iff (linked : ∀ f ∈ d.fields, f.Linked c)
    (owned : ∀ f ∈ d.fields, d.initial.type = f.owner)
    (found : ∀ f ∈ d.fields, ∃ old, d.initial.get? f.path = some old) :
    d.Suffices values ↔ ∀ f ∈ d.fields, Servable values f := by
  have taken : ∀ f ∈ d.fields, ∀ v,
      (∃ changed, f.set d.initial v = .ok changed) ↔ f.shape.Admits v := by
    intro f member v
    obtain ⟨old, here⟩ := found f member
    exact Field.set_iff (linked f member) (owned f member) here
  constructor
  · intro enough f member
    refine ⟨enough.required f member, fun v drawn => (taken f member v).mp ?_⟩
    unfold Field.drawn? at drawn
    split at drawn
    · rename_i w listed
      exact Option.some.inj drawn ▸ enough.named f member w listed
    · rename_i absent
      obtain ⟨rule, default⟩ := Option.ite_none_right_eq_some.mp drawn
      exact Option.some.inj default ▸ enough.default f member rule absent
  · intro servable
    refine ⟨fun f member => (servable f member).required, fun f member v listed => ?_,
      fun f member rule absent => ?_⟩
    · exact (taken f member v).mpr ((servable f member).taken v (Field.drawn_named listed))
    · exact (taken f member _).mpr ((servable f member).taken _ (Field.drawn_default absent rule))

/-- An instance whose fields have been served has what it should have. -/
private theorem renders_of_served (types : d.initial.type = d.type)
    (owned : ∀ f ∈ d.fields, f.owner = d.type)
    (found : ∀ f ∈ d.fields, ∃ old, d.initial.get? f.path = some old)
    (enough : d.Suffices values) (served : Served values d.fields d.initial r) :
    d.Renders values r := by
  have fresh : ∀ f ∈ d.fields, d.initial.type = f.owner :=
    fun f member => types.trans (owned f member).symm
  have read : ∀ f ∈ d.fields, ∀ v, f.drawn? values = some v → f.get r = .ok (f.shown v) := by
    intro f member v drawn
    obtain ⟨content, fits, stored⟩ := served.drawn f member v drawn
    rw [Field.get_eq (served.type.trans (fresh f member)) stored, Field.shown,
      Shape.shown_of_ofValue fits]
  refine ⟨served.type.trans types, fun f member v listed => ?_, fun f member rule absent => ?_,
    fun f member rule absent => ?_⟩
  · obtain ⟨changed, ok⟩ := enough.named f member v listed
    exact ⟨changed, _, ok, Field.get_shown ok, read f member v (Field.drawn_named listed)⟩
  · exact read f member _ (Field.drawn_default absent rule)
  · have nothing : f.drawn? values = none := by simp [Field.drawn?, absent, rule]
    obtain ⟨old, here⟩ := found f member
    have there := (served.kept f member nothing).trans here
    exact ⟨_, Field.get_eq (fresh f member) here,
      Field.get_eq (served.type.trans (fresh f member)) there⟩

/-- An instance is made of named values exactly if every required field is named and the fields take
the first values that are listed for them, or their defaults. The instance then has these values,
and what a new one has otherwise. A default is read as it is unless the field recasts it. Entries
that name no field, later entries of a name and the order of entries with distinct names make no
difference. -/
theorem construct_iff (types : c.Sound) (built : d.Built c) (apart : d.fields.Pairwise Field.Apart)
    (values : List (String × Value)) :
    ((∃ r, d.construct values = .ok r) ↔ d.Suffices values) ∧
      (∀ r, d.construct values = .ok r → d.Renders values r) ∧
      (∀ f ∈ d.fields, f.shape.Admits f.defaultForAbsent →
        (f.shown f.defaultForAbsent = f.defaultForAbsent ↔ ¬f.Recasts f.defaultForAbsent)) ∧
      (∀ other, d.Rewords values other → d.construct other = d.construct values) ∧
      ∀ other, values.Perm other → (values.map Prod.fst).Nodup → d.Rewords values other := by
  have sound := built.sound
  obtain ⟨fresh, typed⟩ := sound.initial types
  have owned : ∀ f ∈ d.fields, d.initial.type = f.owner :=
    fun f member => (sound.content member typed fresh).1
  have found : ∀ f ∈ d.fields, ∃ old, d.initial.get? f.path = some old :=
    fun f member => (sound.content member typed fresh).2.imp fun _ => And.left
  have success : (∃ r, d.construct values = .ok r) ↔ d.Suffices values :=
    (foldlM_serve_iff apart sound.linked owned found).trans
      (suffices_iff sound.linked owned found).symm
  refine ⟨success, fun r ok => ?_, fun f member admits => ?_,
    fun other rewords => (construct_congr rewords.lookup).symm,
    fun other reordered => rewords_of_perm reordered⟩
  · exact renders_of_served fresh sound.owned found (success.mp ⟨r, ok⟩) (served_of_foldlM apart ok)
  · have regular : f.Regular c := built.each (fun _ declared => declared.regular)
      (fun _ _ _ before => ⟨before.zero, before.described⟩) f member
    obtain ⟨b, quiet⟩ := built.quiet member
    have linked := sound.linked f member
    exact Field.shown_iff linked admits fun n => Field.enum_of_default linked regular quiet

open Field.Lamp

theorem lamp_apart (n : UInt32) (items : List Value) :
    (descriptor n items).fields.Pairwise Field.Apart := by
  have above : ¬["code"] <+: ["marks"] := by decide
  have below : ¬["marks"] <+: ["code"] := by decide
  exact List.pairwise_pair.mpr ⟨above, below⟩

/-- A lamp takes the marks that are listed first and, without a code of its own, the one that is
declared for it. -/
theorem construct_lamp :
    ∃ r, (descriptor 2 [.uint32 7]).construct
        [("marks", .array [.uint32 5]), ("size", .null), ("marks", .null)] = .ok r ∧
      (marksField [.uint32 7]).get r = .ok (.array [.uint32 5]) ∧
      (codeField 2).get r = .ok (.enum 2) ∧
      (descriptor 2 [.uint32 7]).construct [("marks", .array [.uint32 5])] = .ok r := by
  have built : (descriptor 2 [.uint32 7]).Built catalogue := built_descriptor rfl
  obtain ⟨success, renders, -, rewords, -⟩ := construct_iff catalogue_sound built (lamp_apart 2 _)
    [("marks", .array [.uint32 5]), ("size", .null), ("marks", .null)]
  have enough : (descriptor 2 [.uint32 7]).Suffices
      [("marks", .array [.uint32 5]), ("size", .null), ("marks", .null)] := by
    constructor
    all_goals
      simp only [descriptor, List.forall_mem_cons, List.not_mem_nil, false_implies, implies_true]
    · exact ⟨nofun, nofun, trivial⟩
    · exact ⟨nofun, fun v listed => Option.some.inj listed ▸ ⟨_, rfl⟩, trivial⟩
    · exact ⟨fun _ _ => ⟨_, rfl⟩, nofun, trivial⟩
  obtain ⟨r, ok⟩ := success.mpr enough
  have made := renders r ok
  have code : codeField 2 ∈ (descriptor 2 [.uint32 7]).fields := by simp [descriptor]
  have marks : marksField [.uint32 7] ∈ (descriptor 2 [.uint32 7]).fields := by simp [descriptor]
  obtain ⟨changed, w, set, written, read⟩ := made.named _ marks _ rfl
  obtain rfl := Except.ok.inj set
  obtain rfl := Except.ok.inj written
  refine ⟨r, ok, read, made.default _ code rfl rfl, (rewords _ ?_).trans ok⟩
  have earlier : "marks" ∈ [("marks", Value.array [.uint32 5]), ("size", .null)].map Prod.fst :=
    List.mem_cons_self
  have other : ∀ f ∈ (descriptor 2 [.uint32 7]).fields, f.name ≠ "size" := by
    have code : "code" ≠ "size" := by decide
    have marks : "marks" ≠ "size" := by decide
    simp only [descriptor, List.forall_mem_cons, List.not_mem_nil, false_implies, implies_true]
    exact ⟨code, marks, trivial⟩
  exact .trans (@Rewords.duplicate _ _ _ [] .null earlier) (@Rewords.stranger _ _ [_] [] .null other)

/-- The number that is declared as the default of a code is read as the value of an enumeration. -/
theorem construct_lamp_recast :
    catalogue.Sound ∧ (descriptor 2 [.uint32 7]).Built catalogue ∧
      (descriptor 2 [.uint32 7]).fields.Pairwise Field.Apart ∧
      codeField 2 ∈ (descriptor 2 [.uint32 7]).fields ∧
      (codeField 2).mandatoriness = .defaultable ∧ (codeField 2).defaultForAbsent = .uint32 2 ∧
      ∃ r, (descriptor 2 [.uint32 7]).construct [] = .ok r ∧
        (codeField 2).get r = .ok (.enum 2) ∧
        (codeField 2).get r ≠ .ok (codeField 2).defaultForAbsent :=
  ⟨catalogue_sound, built_descriptor rfl, lamp_apart 2 _, List.mem_cons_self, rfl, rfl, _, rfl, rfl,
    nofun⟩

end Descriptor

end ObjectMapping
