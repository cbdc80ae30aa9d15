import ObjectMapping.Field.Access
import ObjectMapping.Proofs.Action
import ObjectMapping.Proofs.Field.Default
import ObjectMapping.Proofs.Json.Members

/-! Fields are lawful in every instance of their type, and an inherited field reads and writes what
the field that it comes from reads and writes in the embedded record. -/
namespace ObjectMapping

namespace Record

variable {r changed : Record} {name : String} {d old : Datum}

/-- Replacing the content of a slot changes the first slot of its name. -/
private theorem replace_split {slots : List (String × Datum)} (found : slots.lookup name = some old) :
    ∃ before after, slots = before ++ (name, old) :: after ∧ name ∉ before.map (·.1) ∧
      ∀ d, setSlot.replace name d slots = before ++ (name, d) :: after := by
  induction slots with
  | nil => cases found
  | cons slot slots ih =>
    obtain ⟨n, held⟩ := slot
    by_cases same : n = name
    · subst same
      rw [List.lookup_cons_self] at found
      obtain rfl := Option.some.inj found
      exact ⟨[], slots, rfl, List.not_mem_nil, fun d => by simp [setSlot.replace]⟩
    · have other : name ≠ n := fun h => same h.symm
      rw [lookup_cons_ne other] at found
      obtain ⟨before, after, rfl, first, replaced⟩ := ih found
      refine ⟨(n, held) :: before, after, rfl, ?_, fun d => ?_⟩
      · rw [List.map_cons, List.mem_cons, not_or]
        exact ⟨other, first⟩
      · simp only [setSlot.replace, beq_iff_eq, same, if_false, replaced, List.cons_append]

private theorem setSlot_split (found : r.slot? name = some old) :
    ∃ before after, r = .mk r.type (before ++ (name, old) :: after) ∧ name ∉ before.map (·.1) ∧
      ∀ d, r.setSlot name d = .mk r.type (before ++ (name, d) :: after) := by
  cases r with
  | mk type slots =>
    obtain ⟨before, after, same, first, replaced⟩ := replace_split found
    exact ⟨before, after, congrArg (Record.mk type) same, first,
      fun d => congrArg (Record.mk type) (replaced d)⟩

/-- Putting back what is there changes nothing. -/
theorem setSlot_same (found : r.slot? name = some d) : r.setSlot name d = r := by
  obtain ⟨before, after, same, -, replaced⟩ := setSlot_split found
  rw [replaced, ← same]

theorem set_same {path : List String} (found : r.get? path = some d) : r.set? d path = some r := by
  induction path generalizing r with
  | nil => cases found
  | cons name path ih =>
    cases path with
    | nil =>
      have here : r.slot? name = some d := found
      rw [set?, here, Option.map_some, setSlot_same here]
    | cons next path =>
      simp only [get?] at found
      split at found
      · rename_i inner here
        rw [set_through here (List.cons_ne_nil _ _), ih found, Option.map_some, setSlot_same here]
      · cases found

/-- Writing at the end of a path changes the slot there and no other. -/
theorem alikeBut_of_set {path : List String} (set : r.set? d path = some changed) :
    r.AlikeBut path changed := by
  induction path generalizing r changed with
  | nil => cases set
  | cons name path ih =>
    cases path with
    | nil =>
      obtain ⟨old, here, rfl⟩ := Option.map_eq_some_iff.mp set
      obtain ⟨before, after, same, first, replaced⟩ := setSlot_split here
      rw [replaced, same]
      exact .slot first old d
    | cons next path =>
      simp only [set?] at set
      split at set
      · rename_i inner here
        obtain ⟨new, inside, rfl⟩ := Option.map_eq_some_iff.mp set
        obtain ⟨before, after, same, first, replaced⟩ := setSlot_split here
        rw [replaced, same]
        exact .inside first (ih inside)
      · cases set

end Record

namespace Shape

variable {s : Shape} {v : Value} {d : Datum} {e : Error}

/-- The values of an enumeration are stored as they are. -/
theorem enumOfNumber_ok {described : Enumeration} {n : UInt32}
    (ok : enumOfNumber described n = .ok d) : d = .scalar (.enum n) := by
  unfold enumOfNumber at ok
  split at ok
  · exact (Except.ok.inj ok).symm
  · cases ok

/-- A plain slot stores a scalar of its own type. -/
theorem accept_type {p : PlainShape} {a stored : Scalar} (accepted : p.accept a = some stored) :
    stored.type = p.type := by
  unfold PlainShape.accept at accepted
  split at accepted
  · obtain rfl := Option.some.inj accepted
    rfl
  · obtain ⟨same, kept⟩ := Option.ite_none_right_eq_some.mp accepted
    exact Option.some.inj kept ▸ same

/-- What a slot stores that is neither nullable nor a list is stored as the same again. -/
private theorem single_kept (ok : s.singleOfValue v = .ok d) :
    d.toValue.isNull = v.isNull ∧ s.ofValue d.toValue = .ok d := by
  unfold singleOfValue at ok
  split at ok
  case h_1 =>
    split at ok
    · rename_i stored accepted
      obtain rfl := Except.ok.inj ok
      exact ⟨rfl, ofValue_stored (accept_type accepted)⟩
    · cases ok
  case h_2 | h_3 =>
    obtain rfl := enumOfNumber_ok ok
    exact ⟨rfl, ok⟩
  case h_4 =>
    split at ok
    · rename_i same
      obtain rfl := Except.ok.inj ok
      exact ⟨rfl, if_pos same⟩
    · cases ok
  case h_5 | h_6 =>
    obtain rfl := Except.ok.inj ok
    exact ⟨rfl, rfl⟩
  case h_7 => cases ok

/-- Only absence is stored as absence. -/
theorem isNull_of_ofValue (ok : s.ofValue v = .ok d) : d.toValue.isNull = v.isNull := by
  induction s generalizing d with
  | plain | enum | record | variant => exact (single_kept ok).1
  | nullable inner ih =>
    cases nothing : v.isNull with
    | true =>
      obtain rfl := Value.eq_null_of_isNull nothing
      obtain rfl := Except.ok.inj ok
      rfl
    | false =>
      rw [ofValue_nullable nothing] at ok
      obtain ⟨content, inside, rfl⟩ := except_map_eq_ok.mp ok
      exact (ih inside).trans nothing
  | list element =>
    cases v with
    | array items =>
      obtain ⟨ds, -, rfl⟩ := except_map_eq_ok.mp ok
      rfl
    | null | scalar | object => cases ok

/-- What a slot stores is read as a value that is stored as the same again. -/
theorem ofValue_toValue (ok : s.ofValue v = .ok d) : s.ofValue d.toValue = .ok d := by
  induction s generalizing v d with
  | plain | enum | record | variant => exact (single_kept ok).2
  | nullable inner ih =>
    cases nothing : v.isNull with
    | true =>
      obtain rfl := Value.eq_null_of_isNull nothing
      obtain rfl := Except.ok.inj ok
      rfl
    | false =>
      rw [ofValue_nullable nothing] at ok
      obtain ⟨content, inside, rfl⟩ := except_map_eq_ok.mp ok
      have something := (isNull_of_ofValue inside).trans nothing
      have again : (nullable inner).ofValue content.toValue = .ok (.present content) := by
        rw [ofValue_nullable something, ih inside]
        rfl
      exact again
  | list element ih =>
    cases v with
    | array items =>
      obtain ⟨ds, each, rfl⟩ := except_map_eq_ok.mp ok
      refine except_map_eq_ok.mpr ⟨ds, ?_, rfl⟩
      clear ok
      induction items generalizing ds with
      | nil =>
        obtain rfl := Except.ok.inj each
        rfl
      | cons v items others =>
        obtain ⟨d, rest, first, later, rfl⟩ := mapM_cons_eq_ok.mp each
        exact mapM_cons_eq_ok.mpr ⟨d, rest, ih first, others rest later, rfl⟩
    | null | scalar | object => cases ok

/-- A number that a slot stores as such may be written as the value of an enumeration, too. -/
private theorem ofValue_number {n : UInt32} (ok : s.ofValue (.uint32 n) = .ok d)
    (kept : d.toValue = .uint32 n) : s.ofValue (.enum n) = .ok d := by
  induction s generalizing d with
  | plain p =>
    cases p with
    | uint32 => exact ok
    | _ => cases ok
  | enum described =>
    obtain rfl := enumOfNumber_ok ok
    cases kept
  | record | variant | list => cases ok
  | nullable inner ih =>
    rw [ofValue_nullable rfl] at ok ⊢
    obtain ⟨content, inside, rfl⟩ := except_map_eq_ok.mp ok
    rw [ih inside kept]
    rfl

private theorem usageKind_of_single (refused : s.singleOfValue v = .error e) :
    e.usageKind? = none := by
  unfold singleOfValue enumOfNumber at refused
  split at refused
  case h_1 | h_2 | h_3 | h_4 =>
    split at refused
    · cases refused
    · exact Except.error.inj refused ▸ rfl
  case h_5 | h_6 => cases refused
  case h_7 => exact Except.error.inj refused ▸ rfl

/-- A value is refused for what it is, and not for want of a field. -/
theorem usageKind_of_ofValue (refused : s.ofValue v = .error e) : e.usageKind? = none := by
  induction s generalizing v with
  | plain | enum | record | variant => exact usageKind_of_single refused
  | nullable inner ih =>
    cases nothing : v.isNull with
    | true =>
      obtain rfl := Value.eq_null_of_isNull nothing
      cases refused
    | false =>
      rw [ofValue_nullable nothing] at refused
      exact ih (except_map_eq_error.mp refused)
  | list element ih =>
    cases v with
    | array items =>
      obtain ⟨-, item, -, -, -, failed⟩ := mapM_eq_error.mp (except_map_eq_error.mp refused)
      exact ih failed
    | null | scalar | object =>
      obtain rfl := Except.error.inj refused
      rfl

end Shape

namespace Field

variable {c : Catalogue} {f g : Field} {r inner : Record} {d : Datum} {holder : TypeName} {base : Slot}

/-- Writing in place is writing, and keeping the record when that fails. -/
theorem perform_assign (f : Field) (v : Value) (r : Record) :
    (f.assign v).perform r = (Action.update (f.set · v)).perform r := by
  have looked : (getThe Record : Action Record Record).perform r = (.ok r, r) := rfl
  unfold assign Action.update Field.set
  rw [Action.perform_bind, looked, Action.perform_ofFunction]
  by_cases refused : v.isNull && !f.isNullable && f.type != .variant
  · simp only [if_pos refused, Action.perform_throw]
  by_cases owned : r.type = f.owner
  · simp only [if_neg refused, if_pos owned, Action.perform_bind, Action.perform_ofExcept]
    cases inField f.name (f.shape.ofValue v) with
    | error e => rfl
    | ok d =>
      cases set : r.set? d f.path <;> simp [set, bind, Except.bind]
  · simp only [if_neg refused, if_neg owned, Action.perform_throw]

theorem get_inherit (owned : r.type = holder) (inside : inner.type = g.owner)
    (here : r.slot? base.name = some (.record inner)) (longer : g.path ≠ [])
    (found : inner.get? g.path = some d) : (g.inherit holder base).get r = g.get inner := by
  have deep : r.get? (g.inherit holder base).path = some d :=
    (Record.get_through here longer).trans found
  rw [get_eq owned deep, get_eq inside found]
  rfl

theorem set_inherit (owned : r.type = holder) (inside : inner.type = g.owner)
    (here : r.slot? base.name = some (.record inner)) (longer : g.path ≠ [])
    (found : inner.get? g.path = some d) (v : Value) :
    (g.inherit holder base).set r v =
      (g.set inner v).map fun new => r.setSlot base.name (.record new) := by
  have through : ∀ content, r.set? content (g.inherit holder base).path =
      (inner.set? content g.path).map fun new => r.setSlot base.name (.record new) :=
    Record.set_through here longer
  have nullable : (g.inherit holder base).isNullable = g.isNullable := rfl
  have type : (g.inherit holder base).type = g.type := rfl
  unfold Field.set
  rw [nullable, type]
  by_cases refused : v.isNull && !g.isNullable && g.type != .variant
  · rw [if_pos refused, if_pos refused]
    rfl
  · have owner : r.type = (g.inherit holder base).owner := owned
    have fits : (g.inherit holder base).shape.ofValue v = g.shape.ofValue v := rfl
    have name : (g.inherit holder base).name = g.name := rfl
    rw [if_neg refused, if_neg refused, if_pos owner, if_pos inside, fits, name]
    cases inField g.name (g.shape.ofValue v) with
    | error e => rfl
    | ok content =>
      obtain ⟨new, set⟩ := Record.set_of_get found content
      simp only [bind, Except.bind, through, set, Option.map_some]
      rfl

end Field

namespace Descriptor

variable {c : Catalogue} {root d : Descriptor} {f g : Field} {bases : List Slot} {r : Record}

theorem Inherits.built (inherits : Inherits c root g d f bases) : d.Built c := by
  cases inherits <;> assumption

theorem Inherits.member (inherits : Inherits c root g d f bases) : f ∈ d.fields := by
  cases inherits <;> assumption

theorem Inherits.path (inherits : Inherits c root g d f bases) :
    f.path = bases.map (·.name) ++ g.path := by
  induction inherits with
  | own => rfl
  | through _ _ _ _ _ _ ih => exact congrArg _ ih

/-- An inherited field does in the embedded record what the field that it comes from does. -/
theorem Inherits.access (inherits : Inherits c root g d f bases) (typed : r.Instance c)
    (same : r.type = d.type) :
    ∃ base, r.embedded? (bases.map (·.name)) = some base ∧ base.type = root.type ∧
      base.Instance c ∧ f.get r = g.get base ∧
      ∀ v, f.set r v = (g.set base v).map fun new => r.embed new (bases.map (·.name)) := by
  induction inherits generalizing r with
  | own =>
    refine ⟨r, rfl, same, typed, rfl, fun v => ?_⟩
    cases g.set r v <;> rfl
  | @through t f bases d super base built member found has embeds rest ih =>
    -- The slot `base` holds an instance of the type that the rest of the chain begins with.
    obtain ⟨content, here, holds⟩ := typed.content (same ▸ found) has
    obtain ⟨inner, rfl, type, inside⟩ := Datum.holds_record.mp (embeds ▸ holds)
    have sound := rest.built.sound
    obtain ⟨owner, stored, there, -⟩ := sound.content rest.member inside type
    have longer := Record.leads_ne_nil (sound.linked f rest.member).leads
    obtain ⟨root, deeper, rootType, rootInside, get, set⟩ := ih inside type
    refine ⟨root, ?_, rootType, rootInside, ?_, fun v => ?_⟩
    · simp only [List.map_cons, Record.embedded?, here, deeper]
    · exact (Field.get_inherit same owner here longer there).trans get
    · rw [Field.set_inherit same owner here longer there, set]
      cases g.set root v with
      | error e => rfl
      | ok new => simp only [Except.map, List.map_cons, Record.embed, here]

/-- The field comes from one that has been declared on a slot. -/
private def Stems (c : Catalogue) (d : Descriptor) (f : Field) : Prop :=
  ∃ root g bases, Inherits c root g d f bases ∧ g.Declared c

mutual

private theorem Draft.Formed.stems {c : Catalogue} {b : Draft} : Draft.Formed c b → ∀ f ∈ b.fields,
    f.Declared c ∨ ∃ super base g, f = Field.inherit g b.type.name base ∧
      b.type.slot? base.name = some base ∧ base.shape = .record super.type ∧ Stems c super g
  | .draft found name => nofun
  | .table formed table => by
    have before := formed.stems
    exact before
  | .extend formed super has embeds ok => by
    intro f member
    obtain ⟨type, fields⟩ := Draft.extend_ok ok
    rw [fields] at member
    obtain ⟨g, inherited, rfl⟩ := List.mem_map.mp member
    rw [type]
    exact .inr ⟨_, _, g, rfl, has, embeds, super.stems g inherited⟩
  | .field formed declared => by
    intro f member
    rcases List.mem_append.mp member with before | new
    · exact formed.stems f before
    · obtain rfl := List.mem_singleton.mp new
      exact .inl declared

/-- Every field of a finished descriptor comes from a declaration, at the end of a chain of
embedded records. -/
private theorem Built.stems {c : Catalogue} {d : Descriptor} : Built c d → ∀ f ∈ d.fields, Stems c d f
  | .build formed ok => by
    intro f member
    have built : Built c d := .build formed ok
    obtain ⟨-, type, fields, -⟩ := Draft.build_ok ok
    rcases formed.stems f (fields ▸ member) with declared | inherited
    · exact ⟨d, f, [], .own built member, declared⟩
    · obtain ⟨super, base, g, rfl, has, embeds, root, h, bases, rest, declared⟩ := inherited
      rw [← type] at member ⊢
      exact ⟨root, h, base :: bases,
        .through built member (type ▸ formed.linked.1) has embeds rest, declared⟩

end

end Descriptor

namespace Field

variable {c : Catalogue} {f : Field} {r changed : Record} {v : Value} {d old : Datum} {e : Error}

theorem Declared.on (declared : f.Declared c) : ∃ slot, f.On c slot := by
  induction declared with
  | @slot t slot type found has offset name =>
    exact ⟨slot, t, found, has, rfl, rfl⟩
  | @withEnumeration f declared e ih =>
    obtain ⟨slot, t, on⟩ := ih
    unfold Field.withEnumeration
    split <;> exact ⟨slot, t, on⟩
  | withDefault _ _ ih | mandatoriness _ _ ih | primaryKey _ _ ih | autoIncrement _ _ ih => exact ih

/-- What a field shows of its slot may be written back. -/
theorem ofValue_present (f : Field) (ok : f.shape.ofValue v = .ok d) :
    f.shape.ofValue (f.present d.toValue) = .ok d := by
  have kept := Shape.ofValue_toValue ok
  unfold present
  split
  · rename_i bits shown
    rw [shown] at kept
    split
    · exact Shape.ofValue_number kept shown
    · exact kept
  · exact kept

/-- In a record that has the field, a value is refused for what it is. -/
private theorem usageKind_of_set (owned : r.type = f.owner) (found : r.get? f.path = some old)
    (refused : f.set r v = .error e) : e.usageKind? = none := by
  unfold Field.set at refused
  split at refused
  · obtain rfl := Except.error.inj refused
    rfl
  -- The owner is right, so only storing the value is left to fail.
  cases fits : f.shape.ofValue v with
  | error cause =>
    rw [fits] at refused
    obtain rfl := Except.error.inj refused
    have kind := Shape.usageKind_of_ofValue fits
    cases cause with
    | data _ _ field => cases field <;> rfl
    | _ => exact kind
  | ok d =>
    obtain ⟨changed, set⟩ := Record.set_of_get found d
    have stored : inField f.name (.ok d) = .ok d := rfl
    rw [fits, stored] at refused
    simp only [bind, Except.bind, set] at refused
    cases refused

/-- What has been written is written again to no effect. -/
private theorem set_again (linked : f.Linked c) (ok : f.set r v = .ok changed) :
    ∃ w, f.get changed = .ok w ∧ f.set changed w = .ok changed := by
  obtain ⟨owned, d, fits, set⟩ := set_eq_ok ok
  have type : changed.type = f.owner := (Record.set_type set).trans owned
  have there := Record.get_of_set set
  have again := ofValue_present f fits
  refine ⟨f.present d.toValue, get_eq type there, ?_⟩
  obtain ⟨other, ok⟩ := (set_iff linked type there).mpr (Shape.ofValue_iff.mp ⟨d, again⟩)
  obtain ⟨-, stored, same, written⟩ := set_eq_ok ok
  obtain rfl := Except.ok.inj (again.symm.trans same)
  obtain rfl := Option.some.inj ((Record.set_same there).symm.trans written)
  exact ok

/-- A field that lies on a slot of its type is lawful in the instances of the type. -/
theorem lawful_of_linked (linked : f.Linked c) (typed : r.Instance c) (owned : r.type = f.owner) :
    f.Lawful r := by
  obtain ⟨old, found, -⟩ := Record.get_of_leads typed (owned ▸ linked.leads)
  have taken : ∀ v changed, f.set r v = .ok changed →
      (f.assign v).perform r = (.ok (), changed) := by
    intro v changed ok
    rw [perform_assign, Action.update, Action.perform_ofFunction, ok]
  have kept : ∀ v e, f.set r v = .error e → (f.assign v).perform r = (.error e, r) := by
    intro v e refused
    rw [perform_assign, Action.update, Action.perform_ofFunction, refused]
  refine ⟨⟨_, get_eq owned found⟩, fun v e refused => ?_, fun v changed ok => ?_,
    fun v changed ok => set_again linked ok, fun v changed => ⟨fun done => ?_, taken v changed⟩,
    fun v e s failed => ?_⟩
  · rw [usageKind_of_set owned found refused]
    exact (Option.some_ne_none _).symm
  · obtain ⟨-, d, -, set⟩ := set_eq_ok ok
    exact Record.alikeBut_of_set set
  · cases outcome : f.set r v with
    | ok other =>
      have same := (taken v other outcome).symm.trans done
      exact congrArg Except.ok (Prod.mk.inj same).2
    | error cause =>
      rw [kept v cause outcome] at done
      cases done
  · cases outcome : f.set r v with
    | ok changed =>
      rw [taken v changed outcome] at failed
      cases failed
    | error cause =>
      rw [kept v cause outcome] at failed
      cases failed
      exact ⟨rfl, rfl⟩

/-- Every field of a finished descriptor has been declared on a slot of the record at the end of a
chain of embedded ones. It is lawful in every instance of the described type, where it may be read
and written as the field that it is inherited from in the embedded record. -/
theorem lawful {d : Descriptor} (built : d.Built c) (member : f ∈ d.fields) (typed : r.Instance c)
    (same : r.type = d.type) :
    f.Lawful r ∧
      (∃ root g bases slot, Descriptor.Inherits c root g d f bases ∧ g.Declared c ∧ g.On c slot ∧
        f.path = bases.map (·.name) ++ [slot.name]) ∧
      ∀ root g bases, Descriptor.Inherits c root g d f bases →
        ∃ base, r.embedded? (bases.map (·.name)) = some base ∧ base.type = root.type ∧
          base.Instance c ∧ f.get r = g.get base ∧
          ∀ v, f.set r v = (g.set base v).map fun new => r.embed new (bases.map (·.name)) := by
  have sound := built.sound
  refine ⟨?_, ?_, fun root g bases inherits => inherits.access typed same⟩
  · exact lawful_of_linked (sound.linked f member) typed (same.trans (sound.owned f member).symm)
  · obtain ⟨root, g, bases, inherits, declared⟩ := built.stems f member
    obtain ⟨slot, on⟩ := declared.on
    obtain ⟨-, -, -, path, -⟩ := id on
    exact ⟨root, g, bases, slot, inherits, declared, on, path ▸ inherits.path⟩

namespace Staff

def id : Slot := ⟨"id", .plain .uint64, 0, 8⟩
def entity : Slot := ⟨"entity", .record "Entity", 0, 8⟩
def employee : Slot := ⟨"employee", .record "Employee", 0, 8⟩

def entityOf (n : UInt64) : Record := .mk "Entity" [("id", .scalar (.uint64 n))]
def employeeOf (n : UInt64) : Record := .mk "Employee" [("entity", .record (entityOf n))]
def managerOf (n : UInt64) : Record := .mk "Manager" [("employee", .record (employeeOf n))]

def entities : RecordType := ⟨"Entity", [id], 8, entityOf 0⟩
def employees : RecordType := ⟨"Employee", [entity], 8, employeeOf 0⟩
def managers : RecordType := ⟨"Manager", [employee], 8, managerOf 0⟩

def catalogue : Catalogue := [entities, employees, managers]

/-- The number by which entities are known, which managers inherit from employees. -/
def idField : Field := Field.ofSlot catalogue "Entity" id "id"
def employeeId : Field := idField.inherit "Employee" entity
def managerId : Field := employeeId.inherit "Manager" employee

def entityDescriptor : Descriptor := ⟨"Entity", "Entity", "Entity", none, [idField], 0, entityOf 0⟩

def employeeDescriptor : Descriptor :=
  ⟨"Employee", "Employee", "Employee", some ⟨"Entity", "Entity"⟩, [employeeId], 1, employeeOf 0⟩

def managerDescriptor : Descriptor :=
  ⟨"Manager", "Manager", "Manager", some ⟨"Employee", "Employee"⟩, [managerId], 1, managerOf 0⟩

theorem entity_built : entityDescriptor.Built catalogue := by
  have known : catalogue.type? entities.name = some entities := rfl
  have has : entities.slot? id.name = some id := rfl
  have declared : idField.Declared catalogue := .slot known has 0 "id"
  exact .build ((Descriptor.Draft.Formed.draft known "Entity").field declared) rfl

theorem employee_built : employeeDescriptor.Built catalogue := by
  have known : catalogue.type? employees.name = some employees := rfl
  have has : employees.slot? entity.name = some entity := rfl
  exact .build ((Descriptor.Draft.Formed.draft known "Employee").extend entity_built has rfl rfl) rfl

theorem manager_built : managerDescriptor.Built catalogue := by
  have known : catalogue.type? managers.name = some managers := rfl
  have has : managers.slot? employee.name = some employee := rfl
  exact .build ((Descriptor.Draft.Formed.draft known "Manager").extend employee_built has rfl rfl) rfl

theorem instance_entity (n : UInt64) : (entityOf n).Instance catalogue := by
  have known : catalogue.type? "Entity" = some entities := rfl
  refine .of_slots known fun slot member => ?_
  obtain rfl := List.mem_singleton.mp member
  exact ⟨_, rfl, .plain rfl⟩

theorem instance_employee (n : UInt64) : (employeeOf n).Instance catalogue := by
  have known : catalogue.type? "Employee" = some employees := rfl
  refine .of_slots known fun slot member => ?_
  obtain rfl := List.mem_singleton.mp member
  exact ⟨_, rfl, .record rfl (instance_entity n)⟩

theorem instance_manager (n : UInt64) : (managerOf n).Instance catalogue := by
  have known : catalogue.type? "Manager" = some managers := rfl
  refine .of_slots known fun slot member => ?_
  obtain rfl := List.mem_singleton.mp member
  exact ⟨_, rfl, .record rfl (instance_employee n)⟩

theorem catalogue_sound : catalogue.Sound := by
  intro name t found
  have named : t.name = name := by simpa using List.find?_some found
  have member : t ∈ catalogue := List.mem_of_find?_eq_some found
  simp only [catalogue, List.mem_cons, List.not_mem_nil, or_false] at member
  rcases member with rfl | rfl | rfl
  · exact ⟨named, instance_entity 0⟩
  · exact ⟨named, instance_employee 0⟩
  · exact ⟨named, instance_manager 0⟩

end Staff

open Staff in
/-- A manager keeps the number two records down, and a new one goes there and nowhere else. -/
theorem lawful_manager :
    managerDescriptor.Built catalogue ∧ managerId ∈ managerDescriptor.fields ∧
      (managerOf 7).Instance catalogue ∧ managerId.Lawful (managerOf 7) ∧
      managerId.path = ["employee", "entity", "id"] ∧
      managerId.get (managerOf 7) = idField.get (entityOf 7) ∧
      managerId.set (managerOf 7) (.uint64 8) = .ok (managerOf 8) := by
  have built := manager_built
  have member : managerId ∈ managerDescriptor.fields := List.mem_cons_self
  have typed := instance_manager 7
  obtain ⟨lawful, -, inherits⟩ := lawful built member typed rfl
  have chain : Descriptor.Inherits catalogue entityDescriptor idField managerDescriptor managerId
      [employee, entity] :=
    .through built member rfl rfl rfl <|
      .through employee_built List.mem_cons_self rfl rfl rfl <|
        .own entity_built List.mem_cons_self
  obtain ⟨base, found, -, -, get, set⟩ := inherits _ _ _ chain
  obtain rfl : entityOf 7 = base := Option.some.inj found
  exact ⟨built, member, typed, lawful, rfl, get, set (.uint64 8)⟩

end Field

end ObjectMapping
