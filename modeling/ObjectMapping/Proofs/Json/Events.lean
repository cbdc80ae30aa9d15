import ObjectMapping.Json.Events
import ObjectMapping.Proofs.Json.Places
import ObjectMapping.Proofs.Value.Place

/-! The events of reading. Every reading that succeeds has them, no polymorphic object that it comes
to is missing from them, and they tell what lies where in the end: in every place the last event
decides, and where there is none the record is of the type that it was of before. -/
namespace ObjectMapping

open Value (Step)

theorem Field.resolveAbsent_eq_ok {f : Field} {r s : Record} :
    f.resolveAbsent r = .ok s ↔ f.mandatoriness = .optional ∧ s = r ∨
      f.mandatoriness = .defaultable ∧ f.set r f.defaultForAbsent = .ok s := by
  cases rule : f.mandatoriness <;> simp [Field.resolveAbsent, rule, eq_comm]

namespace Json

variable {reg : Registry} {resolve : Resolver} {options : JsonOptions} {context : Context}
variable {held : Option Value} {j : Json} {members : List (String × Json)} {items : List Json}
variable {v before after : Value} {values : List Value} {r s next target : Record} {f : Field}
variable {fields : List Field} {log more : List Event}

@[simp] theorem Event.place_within (outer : List Step) (e : Event) :
    (e.within outer).place = outer ++ e.place := by
  cases e <;> rfl

/-! Readings that succeed and the logs of them. -/

mutual

/-- What has been read has been logged. -/
theorem logged_of_toValue {context : Context} {held : Option Value} {j : Json} {v : Value}
    (ok : toValue reg resolve options context held j = .ok v) :
    ∃ log, Logged reg resolve options context held j log v := by
  cases closed : opens context.type j with
  | false => exact ⟨_, .leaf closed ok⟩
  | true =>
    unfold opens at closed
    split at closed
    · rename_i members object
      obtain ⟨target, r, place, read, rfl⟩ := toValue_object object ok
      obtain ⟨d, found, log, inside⟩ := logged_of_toRecord read
      -- A record that is held already is the one that is read into.
      by_cases holds : ∃ old, held = some (.object old)
      · obtain ⟨old, rfl⟩ := holds
        obtain rfl := Except.ok.inj place
        exact ⟨_, .merged object found inside⟩
      · exact ⟨_, .begun object (fun old same => holds ⟨old, same⟩) place found inside⟩
    · rename_i members variant
      obtain ⟨target, r, made, read, rfl⟩ := toValue_variant variant ok
      obtain ⟨d, found, log, inside⟩ := logged_of_toRecord read
      exact ⟨_, .created variant made found inside⟩
    · rename_i items array
      obtain ⟨element, values, described, read, rfl⟩ := toValue_array array ok
      obtain ⟨log, each⟩ := logged_of_toItems 0 read
      exact ⟨_, .list array described each⟩
    · cases closed
termination_by (sizeOf j, 0, 0)

private theorem logged_of_toItems {context : Context} {items : List Json} {values : List Value}
    (index : Nat) (ok : toItems reg resolve options context items = .ok values) :
    ∃ log, LoggedItems reg resolve options context index items log values := by
  cases items with
  | nil =>
    rw [toItems] at ok
    obtain rfl := Except.ok.inj ok
    exact ⟨_, .nil⟩
  | cons j items =>
    obtain ⟨v, others, first, later, rfl⟩ := toItems_cons_eq_ok ok
    obtain ⟨log, first⟩ := logged_of_toValue first
    obtain ⟨more, others⟩ := logged_of_toItems (index + 1) later
    exact ⟨_, .cons first others⟩
termination_by (sizeOf items, 0, 0)

theorem logged_of_toFields {members : List (String × Json)} {fields : List Field} {r s : Record}
    (ok : toFields reg resolve options members fields r = (.ok (), s)) :
    ∃ log, LoggedFields reg resolve options members fields r log s := by
  cases fields with
  | nil =>
    rw [toFields] at ok
    obtain rfl := (Prod.mk.inj ok).2
    exact ⟨_, .nil⟩
  | cons f rest =>
    obtain ⟨next, read, ok⟩ := toFields_cons_eq_ok ok
    obtain ⟨more, others⟩ := logged_of_toFields ok
    rcases toField_eq_ok read with ⟨missing, absent⟩ | ⟨j, held, v, found, looked, read, set⟩
    · rcases Field.resolveAbsent_eq_ok.mp absent with ⟨optional, rfl⟩ | ⟨defaultable, set⟩
      · exact ⟨_, .kept missing optional others⟩
      · exact ⟨_, .defaulted missing defaultable set others⟩
    · have := sizeOf_lookup_lt found
      obtain ⟨log, read⟩ := logged_of_toValue read
      exact ⟨_, .member found looked read set others⟩
termination_by (sizeOf members, 2, fields.length)

private theorem logged_of_toRecord {members : List (String × Json)} {target r : Record}
    (ok : toRecord reg resolve options members target = .ok r) :
    ∃ d, reg.byType? target.type = some d ∧
      ∃ log, LoggedFields reg resolve options members d.fields target log r := by
  obtain ⟨d, found, read⟩ := toRecord_eq_ok ok
  exact ⟨d, found, logged_of_toFields read⟩
termination_by (sizeOf members, 3, 0)

end

private theorem toFields_next (first : toField reg resolve options members f r = .ok next)
    (others : toFields reg resolve options members fields next = (.ok (), s)) :
    toFields reg resolve options members (f :: fields) r = (.ok (), s) := by
  rw [toFields, first]
  exact others

private theorem toField_kept (missing : members.lookup f.name = none)
    (optional : f.mandatoriness = .optional) :
    toField reg resolve options members f r = .ok r :=
  (toField_absent missing).trans (Field.resolveAbsent_eq_ok.mpr (.inl ⟨optional, rfl⟩))

private theorem toField_defaulted (missing : members.lookup f.name = none)
    (defaultable : f.mandatoriness = .defaultable) (set : f.set r f.defaultForAbsent = .ok next) :
    toField reg resolve options members f r = .ok next :=
  (toField_absent missing).trans (Field.resolveAbsent_eq_ok.mpr (.inr ⟨defaultable, set⟩))

mutual

/-- What has been logged has been read. -/
theorem Logged.reads {context : Context} {held : Option Value} {j : Json} {log : List Event}
    {v : Value} : Logged reg resolve options context held j log v →
      toValue reg resolve options context held j = .ok v
  | .leaf _ read => read
  | .list kind described each => toValue_list kind described each.reads
  | .merged kind found inside => toValue_nested kind rfl (toRecord_ok found inside.reads)
  | .begun kind _ place found inside => toValue_nested kind place (toRecord_ok found inside.reads)
  | .created kind named found inside => toValue_named kind named (toRecord_ok found inside.reads)

private theorem LoggedItems.reads {context : Context} {index : Nat} {items : List Json}
    {log : List Event} {values : List Value} :
    LoggedItems reg resolve options context index items log values →
      toItems reg resolve options context items = .ok values
  | .nil => by rw [toItems]
  | .cons first others => by
    rw [toItems]
    exact bind_eq_ok.mpr ⟨_, first.reads, bind_eq_ok.mpr ⟨_, others.reads, rfl⟩⟩

theorem LoggedFields.reads {members : List (String × Json)} {fields : List Field} {r s : Record}
    {log : List Event} : LoggedFields reg resolve options members fields r log s →
      toFields reg resolve options members fields r = (.ok (), s)
  | .nil => by rw [toFields]
  | .kept missing optional others => toFields_next (toField_kept missing optional) others.reads
  | .defaulted missing defaultable set others =>
    toFields_next (toField_defaulted missing defaultable set) others.reads
  | .member found looked read set others =>
    toFields_next (toField_ok found looked read.reads set) others.reads

end

theorem Event.mem_within {place : List Step} {poly : List (String × Json)} {new : Record}
    (mem : .filled place poly new ∈ log) (outer : List Step) :
    Event.filled (outer ++ place) poly new ∈ log.map (Event.within outer) :=
  List.mem_map_of_mem (f := Event.within outer) mem

private theorem LoggedItems.mem {index : Nat}
    (each : LoggedItems reg resolve options context index items log values) (member : j ∈ items) :
    ∃ index part v, Logged reg resolve options context none j part v ∧
      ∀ e ∈ part.map (Event.within [.item index]), e ∈ log := by
  induction items generalizing index log values with
  | nil => cases member
  | cons first rest ih =>
    cases each with
    | cons here others =>
      rcases List.mem_cons.mp member with rfl | member
      · exact ⟨index, _, _, here, fun _ mem => List.mem_append_left _ mem⟩
      · obtain ⟨index, part, v, read, kept⟩ := ih others member
        exact ⟨index, part, v, read, fun e mem => List.mem_append_right _ (kept e mem)⟩

/-- The fields after the first one are read from where it has been read. -/
private theorem LoggedFields.later
    (read : LoggedFields reg resolve options members (f :: fields) r log s)
    (first : toField reg resolve options members f r = .ok next) :
    ∃ more, LoggedFields reg resolve options members fields next more s ∧ ∀ e ∈ more, e ∈ log := by
  cases read with
  | kept missing optional others =>
    obtain rfl := Except.ok.inj ((toField_kept missing optional).symm.trans first)
    exact ⟨_, others, fun _ mem => mem⟩
  | defaulted missing defaultable set others =>
    obtain rfl := Except.ok.inj ((toField_defaulted missing defaultable set).symm.trans first)
    exact ⟨_, others, fun _ mem => List.mem_cons_of_mem _ mem⟩
  | member found looked read set others =>
    obtain rfl := Except.ok.inj ((toField_ok found looked read.reads set).symm.trans first)
    exact ⟨_, others, fun _ mem => List.mem_append_right _ mem⟩

/-- A polymorphic object is read into the record that is created for it. -/
private theorem Logged.of_variant (kind : context.type = .variant)
    (read : Logged reg resolve options context held (.object members) log v) :
    ∃ new d inside r, namedTarget resolve options members = .ok new ∧
      reg.byType? new.type = some d ∧
      LoggedFields reg resolve options members d.fields new inside r ∧
      log = .filled [] members new :: inside := by
  cases read with
  | leaf closed => simp [kind, opens] at closed
  | merged object | begun object => simp [kind] at object
  | created _ named found inside => exact ⟨_, _, _, _, named, found, inside, rfl⟩

/-- Nothing of what is read into a nested record is missing. -/
private theorem Logged.of_object (kind : context.type = .object)
    (read : Logged reg resolve options context held (.object members) log v) :
    ∃ target d inside r, nestedTarget reg context held = .ok target ∧
      reg.byType? target.type = some d ∧
      LoggedFields reg resolve options members d.fields target inside r ∧ ∀ e ∈ inside, e ∈ log := by
  cases read with
  | leaf closed => simp [kind, opens] at closed
  | created variant => simp [kind] at variant
  | merged _ found inside => exact ⟨_, _, _, _, rfl, found, inside, fun _ mem => mem⟩
  | begun _ _ place found inside =>
    exact ⟨_, _, _, _, place, found, inside, fun _ mem => List.mem_cons_of_mem _ mem⟩

/-- Nothing of what an element of a list is read with is missing. -/
private theorem Logged.of_array {element : Context} (kind : context.type = .array)
    (described : context.elements = .ok element) (member : j ∈ items)
    (read : Logged reg resolve options context held (.array items) log v) :
    ∃ index part v, Logged reg resolve options element none j part v ∧
      ∀ e ∈ part.map (Event.within [.item index]), e ∈ log := by
  cases read with
  | leaf closed => simp [kind, opens] at closed
  | list _ again each =>
    obtain rfl := Except.ok.inj (described.symm.trans again)
    obtain ⟨index, part, v, read, kept⟩ := each.mem member
    exact ⟨index, part, v, read, fun e mem => List.mem_cons_of_mem _ (kept e mem)⟩

-- The tree decreases as a logged reading is followed down to the polymorphic object.
mutual

/-- No polymorphic object that reading comes to is missing from the log. -/
theorem Reaches.logged {poly : List (String × Json)} {context : Context}
    {held : Option Value} {j : Json} {log : List Event} {v : Value}
    (reaches : Reaches reg resolve options context held j poly)
    (read : Logged reg resolve options context held j log v) :
    ∃ place new, .filled place poly new ∈ log := by
  cases reaches with
  | here kind =>
    obtain ⟨new, d, inside, r, -, -, -, rfl⟩ := read.of_variant kind
    exact ⟨[], new, List.mem_cons_self⟩
  | within kind made found reaches =>
    obtain ⟨target, d, inside, r, named, known, read, rfl⟩ := read.of_variant kind
    obtain rfl := Except.ok.inj (made.symm.trans named)
    obtain rfl := Option.some.inj (found.symm.trans known)
    obtain ⟨place, new, mem⟩ := reaches.logged read
    exact ⟨place, new, List.mem_cons_of_mem _ mem⟩
  | nested kind place found reaches =>
    obtain ⟨target, d, inside, r, again, known, read, kept⟩ := read.of_object kind
    obtain rfl := Except.ok.inj (place.symm.trans again)
    obtain rfl := Option.some.inj (found.symm.trans known)
    obtain ⟨place, new, mem⟩ := reaches.logged read
    exact ⟨place, new, kept _ mem⟩
  | element kind described member reaches =>
    have := List.sizeOf_lt_of_mem member
    obtain ⟨index, part, v, read, kept⟩ := read.of_array kind described member
    obtain ⟨place, new, mem⟩ := reaches.logged read
    exact ⟨_, new, kept _ (Event.mem_within mem [.item index])⟩
termination_by (sizeOf j, 0)

theorem ReachesFields.logged {poly members : List (String × Json)} {fields : List Field}
    {r s : Record} {log : List Event}
    (reaches : ReachesFields reg resolve options members fields r poly)
    (read : LoggedFields reg resolve options members fields r log s) :
    ∃ place new, .filled place poly new ∈ log := by
  cases reaches with
  | member found looked inside =>
    cases read with
    | kept missing | defaulted missing => rw [found] at missing; cases missing
    | member here again read =>
      obtain rfl := Option.some.inj (found.symm.trans here)
      obtain rfl := Except.ok.inj (looked.symm.trans again)
      have := sizeOf_lookup_lt found
      obtain ⟨place, new, mem⟩ := inside.logged read
      exact ⟨_, new, List.mem_append_left _ (Event.mem_within mem _)⟩
  | later first inside =>
    obtain ⟨more, others, kept⟩ := read.later first
    obtain ⟨place, new, mem⟩ := inside.logged others
    exact ⟨place, new, kept _ mem⟩
termination_by (sizeOf members, fields.length + 1)

end

/-- An element of two lists in a row lies in the first or in the second one. -/
private theorem append_eq_split {α : Type} {xs ys earlier later : List α} {x : α}
    (split : xs ++ ys = earlier ++ x :: later) :
    (∃ rest, xs = earlier ++ x :: rest ∧ later = rest ++ ys) ∨
      ∃ rest, earlier = xs ++ rest ∧ ys = rest ++ x :: later := by
  rcases List.append_eq_append_iff.mp split with within | ⟨between, here, there⟩
  · exact .inr within
  · rcases List.cons_eq_append_iff.mp there with ⟨rfl, there⟩ | ⟨rest, rfl, rfl⟩
    · exact .inr ⟨[], by simpa using here.symm, there.symm⟩
    · exact .inl ⟨rest, here, rfl⟩

/-! What the events tell, for single readings and for readings one after the other. -/

namespace Confined

variable {start middle final : Value} {place : List Step}

/-- A value says of itself of what types its records are, as long as nothing happens. -/
theorem refl (v : Value) : Confined resolve options v [] v where
  named _ _ _ mem := by cases mem
  last _ _ _ _ _ split := by simp at split
  kept _ _ := rfl

theorem append (first : Confined resolve options start log middle)
    (second : Confined resolve options middle more final) :
    Confined resolve options start (log ++ more) final where
  named place poly new mem := by
    rcases List.mem_append.mp mem with mem | mem
    · exact first.named place poly new mem
    · exact second.named place poly new mem
  last earlier place poly new later split untouched := by
    rcases append_eq_split split with ⟨rest, here, rfl⟩ | ⟨rest, -, there⟩
    · have decided := first.last earlier place poly new rest here fun e mem =>
        untouched e (List.mem_append_left _ mem)
      have still := second.kept place fun e mem => untouched e (List.mem_append_right _ mem)
      exact still.trans decided
    · exact second.last rest place poly new later there untouched
  kept place untouched := by
    have before := first.kept place fun e mem => untouched e (List.mem_append_left _ mem)
    have after := second.kept place fun e mem => untouched e (List.mem_append_right _ mem)
    exact after.trans before

/-- Whatever lay in a place before, it does not show once something else has been put there. -/
theorem replaced (inside : Confined resolve options start log final) (other : Value) :
    Confined resolve options other (.replaced [] :: log) final where
  named place poly new mem := by
    rcases List.mem_cons.mp mem with same | mem
    · cases same
    · exact inside.named place poly new mem
  last earlier place poly new later split untouched := by
    rcases List.cons_eq_append_iff.mp split with ⟨-, same⟩ | ⟨rest, -, there⟩
    · cases same
    · exact inside.last rest place poly new later there untouched
  kept place untouched := absurd List.nil_prefix (untouched _ List.mem_cons_self)

theorem filled {poly : List (String × Json)} {new : Record}
    (named : namedTarget resolve options poly = .ok new)
    (inside : Confined resolve options (.object new) log final) (other : Value) :
    Confined resolve options other (.filled [] poly new :: log) final where
  named place members created mem := by
    rcases List.mem_cons.mp mem with same | mem
    · obtain ⟨-, rfl, rfl⟩ := Event.filled.inj same
      exact namedTarget_eq_ok named
    · exact inside.named place members created mem
  last earlier place members created later split untouched := by
    rcases List.cons_eq_append_iff.mp split with ⟨-, same⟩ | ⟨rest, -, there⟩
    · obtain ⟨event, rfl⟩ := List.cons.inj same
      obtain ⟨rfl, rfl, rfl⟩ := Event.filled.inj event
      -- The record is of the type that it was created with, since nothing else takes its place.
      exact inside.kept [] untouched
    · exact inside.last rest place members created later there untouched
  kept place untouched := absurd List.nil_prefix (untouched _ List.mem_cons_self)

/-- What happens to a part happens to the whole, in the place of the part. -/
theorem inside (part : Confined resolve options before log v) (outer : List Step)
    (holds : ∀ place, after.typeAt? (outer ++ place) = v.typeAt? place)
    (still : ∀ place, (∀ e ∈ log, ¬outer ++ e.place <+: place) →
      after.typeAt? place = start.typeAt? place) :
    Confined resolve options start (log.map (Event.within outer)) after where
  named place poly new mem := by
    obtain ⟨e, logged, same⟩ := List.mem_map.mp mem
    cases e with
    | replaced => cases same
    | filled inner members created =>
      obtain ⟨-, rfl, rfl⟩ := Event.filled.inj same
      exact part.named inner members created logged
  last earlier place poly new later split untouched := by
    obtain ⟨first, others, rfl, -, rest⟩ := List.map_eq_append_iff.mp split
    obtain ⟨e, tail, rfl, same, rfl⟩ := List.map_eq_cons_iff.mp rest
    cases e with
    | replaced => cases same
    | filled inner members created =>
      obtain ⟨rfl, rfl, rfl⟩ := Event.filled.inj same
      rw [holds]
      refine part.last first inner members created tail rfl fun e mem above => ?_
      refine untouched _ (List.mem_map_of_mem mem) ?_
      rw [Event.place_within]
      exact (List.prefix_append_right_inj outer).mpr above
  kept place untouched := by
    refine still place fun e mem => ?_
    rw [← Event.place_within]
    exact untouched _ (List.mem_map_of_mem mem)

/-- What happens to a value happens to the record that it is written into, in the place of the
field. Where nothing happens, the value has to show the records that lay there. -/
theorem written (value : Confined resolve options before log v) (set : f.set r v = .ok next)
    (shown : (∀ e ∈ log, e.place ≠ []) → ∀ place,
      before.typeAt? place = (Value.object r).typeAt? (f.place ++ place)) :
    Confined resolve options (.object r) (log.map (Event.within f.place)) (.object next) := by
  obtain ⟨-, d, fits, set⟩ := Field.set_eq_ok set
  have holds : ∀ place, (Value.object next).typeAt? (f.place ++ place) = v.typeAt? place :=
    fun place => (Record.typeAt_get (Record.get_of_set set) place).trans
      (Shape.typeAt_ofValue fits place)
  refine value.inside f.place holds fun place untouched => ?_
  by_cases within : f.place <+: place
  · obtain ⟨inner, rfl⟩ := within
    have apart : ∀ e ∈ log, ¬e.place <+: inner := fun e mem above =>
      untouched e mem ((List.prefix_append_right_inj _).mpr above)
    rw [holds, value.kept inner apart]
    exact shown (fun e mem root => apart e mem (root ▸ List.nil_prefix)) inner
  · exact Record.typeAt_set set within

/-- A value that no object names takes the place of the field. -/
theorem set (ok : f.set r v = .ok next) :
    Confined resolve options (.object r) [.replaced f.place] (.object next) := by
  have value : Confined resolve options .null [.replaced []] v := (refl v).replaced .null
  have field := value.written ok fun untouched => absurd rfl (untouched _ List.mem_cons_self)
  rwa [List.map_singleton, Event.within, List.append_nil] at field

end Confined

/-- A place that nothing takes as a whole holds a record already, which is read in place. -/
private theorem Logged.root (read : Logged reg resolve options context held j log v)
    (untouched : ∀ e ∈ log, e.place ≠ []) : ∃ target, held = some (.object target) := by
  cases read with
  | merged => exact ⟨_, rfl⟩
  | leaf | list | begun | created => exact absurd rfl (untouched _ List.mem_cons_self)

/-- The record that a field holds lies in its place. -/
private theorem typeAt_held (looked : heldValue f r = .ok (some (.object target)))
    (place : List Step) :
    (Value.object target).typeAt? place = (Value.object r).typeAt? (f.place ++ place) := by
  unfold heldValue at looked
  split at looked
  · rename_i nested
    obtain ⟨v, read, same⟩ := except_map_eq_ok.mp looked
    obtain rfl := Option.some.inj same
    obtain ⟨-, d, found, shown⟩ := Field.get_eq_ok.mp read
    rw [Field.present_of_ne_enum (by rw [nested]; nofun)] at shown
    rw [← shown]
    exact (Record.typeAt_get found place).symm
  · cases looked

mutual

/-- The events of a reading tell what has become of the place. -/
theorem Logged.confined {context : Context} {held : Option Value} {j : Json} {log : List Event}
    {v : Value} : Logged reg resolve options context held j log v →
      Confined resolve options (held.getD .null) log v
  | .leaf _ _ => (Confined.refl v).replaced _
  | .list _ _ each => (each.confined [] rfl).replaced _
  | .merged _ _ inside => inside.confined
  | .begun _ _ _ _ inside => inside.confined.replaced _
  | .created _ named _ inside => inside.confined.filled named _

private theorem LoggedItems.confined {context : Context} {index : Nat} {items : List Json}
    {log : List Event} {values : List Value} (before : List Value)
    (reached : before.length = index) :
    LoggedItems reg resolve options context index items log values →
      Confined resolve options (.array (before ++ values)) log (.array (before ++ values))
  | .nil => .refl _
  | .cons first others => by
    rename_i v items part more values
    have later := others.confined (before ++ [v]) (by rw [List.length_append, reached]; rfl)
    rw [List.append_assoc, List.singleton_append] at later
    have found : (before ++ v :: values)[index]? = some v := by simp [← reached]
    have element := first.confined.inside [.item index] (Value.typeAt_item found) fun _ _ => rfl
    exact element.append later

theorem LoggedFields.confined {members : List (String × Json)} {fields : List Field}
    {r s : Record} {log : List Event} : LoggedFields reg resolve options members fields r log s →
      Confined resolve options (.object r) log (.object s)
  | .nil => .refl _
  | .kept _ _ others => others.confined
  | .defaulted _ _ set others => (Confined.set set).append others.confined
  | .member _ looked read set others => by
    refine (read.confined.written set fun untouched place => ?_).append others.confined
    obtain ⟨target, rfl⟩ := read.root untouched
    exact typeAt_held looked place

end

end Json

end ObjectMapping
