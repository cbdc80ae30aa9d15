import ObjectMapping.Edit
import ObjectMapping.Proofs.Field.Access
import ObjectMapping.Proofs.Typing

/-! The algebra of changes. What a slot holds after several changes is what one change makes of it,
and a change that is made again later on need not have been made before. A change that is made twice
is therefore made once. -/
namespace ObjectMapping

namespace Record

theorem setSlot_type (r : Record) (name : String) (d : Datum) : (r.setSlot name d).type = r.type :=
  rfl

private theorem replace_replace (name : String) (d e : Datum) (slots : List (String × Datum)) :
    setSlot.replace name e (setSlot.replace name d slots) = setSlot.replace name e slots := by
  induction slots with
  | nil => rfl
  | cons slot slots ih =>
    obtain ⟨n, held⟩ := slot
    by_cases same : n = name
    · simp [setSlot.replace, same]
    · simp [setSlot.replace, same, ih]

private theorem replace_comm {name other : String} (differ : name ≠ other) (d e : Datum)
    (slots : List (String × Datum)) :
    setSlot.replace name d (setSlot.replace other e slots) =
      setSlot.replace other e (setSlot.replace name d slots) := by
  induction slots with
  | nil => rfl
  | cons slot slots ih =>
    obtain ⟨n, held⟩ := slot
    by_cases first : n = name
    · subst first
      simp [setSlot.replace, differ]
    · by_cases second : n = other
      · subst second
        simp [setSlot.replace, first]
      · simp [setSlot.replace, first, second, ih]

/-- Of two contents for one slot the later one stays. -/
theorem setSlot_setSlot (r : Record) (name : String) (d e : Datum) :
    (r.setSlot name d).setSlot name e = r.setSlot name e := by
  simp only [setSlot, type, slots, replace_replace]

theorem setSlot_comm (r : Record) {name other : String} (differ : name ≠ other) (d e : Datum) :
    (r.setSlot other e).setSlot name d = (r.setSlot name d).setSlot other e := by
  simp only [setSlot, type, slots, replace_comm differ]

end Record

namespace Edit

variable {fresh : TypeName → String → Record} {steps others : List (String × Edit)} {r : Record}
variable {name : String} {d : Datum} {e : Edit}

theorem run_nil (r : Record) : run fresh [] r = r := rfl

theorem run_cons_found (found : r.slot? name = some d) (rest : List (String × Edit)) :
    run fresh ((name, e) :: rest) r =
      run fresh rest (r.setSlot name (apply fresh (fresh r.type name) e d)) := by
  rw [run, found]

theorem run_cons_missing (missing : r.slot? name = none) (rest : List (String × Edit)) :
    run fresh ((name, e) :: rest) r = run fresh rest r := by
  rw [run, missing]

theorem run_append (steps others : List (String × Edit)) (r : Record) :
    run fresh (steps ++ others) r = run fresh others (run fresh steps r) := by
  induction steps generalizing r with
  | nil => rfl
  | cons step rest ih =>
    obtain ⟨name, e⟩ := step
    rw [List.cons_append]
    cases found : r.slot? name with
    | none => rw [run_cons_missing found, run_cons_missing found, ih]
    | some d => rw [run_cons_found found, run_cons_found found, ih]

theorem run_type (steps : List (String × Edit)) (r : Record) : (run fresh steps r).type = r.type := by
  induction steps generalizing r with
  | nil => rfl
  | cons step rest ih =>
    obtain ⟨name, e⟩ := step
    cases found : r.slot? name with
    | none => rw [run_cons_missing found, ih]
    | some d => rw [run_cons_found found, ih, Record.setSlot_type]

/-- What a slot holds after a change, if there is one. -/
private def act (fresh : TypeName → String → Record) (new : Record) : Option Edit → Datum → Datum
  | none, d => d
  | some e, d => apply fresh new e d

/-- Two changes of one slot are one. -/
private theorem exists_apply_apply (new : Record) (e f : Edit) :
    ∃ g, ∀ d, apply fresh new f (apply fresh new e d) = apply fresh new g d := by
  cases f with
  | put content => exact ⟨.put content, fun _ => rfl⟩
  | merge later =>
    cases e with
    | put content => exact ⟨.put (apply fresh new (.merge later) content), fun _ => rfl⟩
    | merge first =>
      refine ⟨.merge (first ++ later), fun d => ?_⟩
      cases d with
      | record r => simp only [apply, run_append]
      | unset => simp only [apply, run_append]
      | present inner => cases inner <;> simp only [apply, run_append]
      | scalar | vacant | occupied | list => rfl

/-- What becomes of one slot is the same whatever the others hold, and changing it beforehand
concerns nothing but the slot. -/
private theorem exists_act (fresh : TypeName → String → Record) (steps : List (String × Edit))
    (type : TypeName) (name : String) :
    ∃ c, ∀ r : Record, r.type = type → ∀ d, r.slot? name = some d →
      (run fresh steps r).slot? name = some (act fresh (fresh type name) c d) ∧
        ∀ x, run fresh steps (r.setSlot name x) =
          (run fresh steps r).setSlot name (act fresh (fresh type name) c x) := by
  induction steps with
  | nil => exact ⟨none, fun r _ d found => ⟨found, fun x => rfl⟩⟩
  | cons step rest ih =>
    obtain ⟨other, e⟩ := step
    obtain ⟨c, later⟩ := ih
    by_cases same : other = name
    · subst same
      -- The change of the slot and what comes later are one change of it.
      obtain ⟨g, both⟩ : ∃ g, ∀ d, act fresh (fresh type other) c (apply fresh (fresh type other) e d) =
          apply fresh (fresh type other) g d := by
        cases c with
        | none => exact ⟨e, fun _ => rfl⟩
        | some f => exact exists_apply_apply (fresh type other) e f
      refine ⟨some g, ?_⟩
      rintro r rfl d found
      obtain ⟨-, moved⟩ := later r rfl d found
      have after : ∀ x, run fresh ((other, e) :: rest) (r.setSlot other x) = _ :=
        fun x => run_cons_found (Record.slot_setSlot_same found x) rest
      simp only [Record.setSlot_type, Record.setSlot_setSlot, moved, both] at after
      obtain ⟨shown, -⟩ := later (r.setSlot other (apply fresh (fresh r.type other) e d)) rfl _
        (Record.slot_setSlot_same found _)
      rw [run_cons_found found]
      refine ⟨by rw [shown, both, act], fun x => ?_⟩
      rw [after, moved, both, Record.setSlot_setSlot, act]
    · refine ⟨c, ?_⟩
      rintro r rfl d found
      have differ : name ≠ other := fun equal => same equal.symm
      cases there : r.slot? other with
      | none =>
        rw [run_cons_missing there]
        refine ⟨(later r rfl d found).1, fun x => ?_⟩
        have missing := (Record.slot_setSlot_other r x same).trans there
        rw [run_cons_missing missing, (later r rfl d found).2]
      | some y =>
        rw [run_cons_found there]
        have still := (Record.slot_setSlot_other r (apply fresh (fresh r.type other) e y) differ).trans
          found
        obtain ⟨shown, moved⟩ :=
          later (r.setSlot other (apply fresh (fresh r.type other) e y)) rfl d still
        refine ⟨shown, fun x => ?_⟩
        have here := (Record.slot_setSlot_other r x same).trans there
        rw [run_cons_found here, Record.setSlot_type, Record.setSlot_comm r same, moved]

/-- A change of one slot need not have been made before it is made, if that is so for the slot. -/
private theorem run_step_absorb
    (absorb : ∀ new c d, apply fresh new e (act fresh new c (apply fresh new e d)) =
      apply fresh new e (act fresh new c d)) (others : List (String × Edit)) (r : Record) :
    run fresh [(name, e)] (run fresh others (run fresh [(name, e)] r)) =
      run fresh [(name, e)] (run fresh others r) := by
  cases found : r.slot? name with
  | none => rw [run_cons_missing found, run_nil]
  | some d =>
    obtain ⟨c, each⟩ := exists_act fresh others r.type name
    obtain ⟨shown, moved⟩ := each r rfl d found
    have before := Record.slot_setSlot_same shown (act fresh (fresh r.type name) c
      (apply fresh (fresh r.type name) e d))
    rw [run_cons_found found, run_nil, moved, run_cons_found before, run_cons_found shown, run_nil,
      run_nil, Record.setSlot_type, run_type, absorb, Record.setSlot_setSlot]

mutual

private theorem apply_absorb (e : Edit) (new : Record) (c : Option Edit) (d : Datum) :
    apply fresh new e (act fresh new c (apply fresh new e d)) =
      apply fresh new e (act fresh new c d) := by
  cases e with
  | put content => rfl
  | merge steps =>
    have twice : ∀ r, run fresh steps (run fresh steps r) = run fresh steps r :=
      fun r => run_absorb steps [] r
    cases c with
    | none =>
      cases d with
      | present inner => cases inner <;> simp only [act, apply, twice]
      | _ => simp only [act, apply, twice]
    | some f =>
      cases f with
      | put content => rfl
      | merge others =>
        have absorb := fun r => run_absorb steps others r
        cases d with
        | present inner => cases inner <;> simp only [act, apply, absorb]
        | _ => simp only [act, apply, absorb]
termination_by sizeOf e

/-- Changes of a record need not have been made before they are made. -/
theorem run_absorb (steps others : List (String × Edit)) (r : Record) :
    run fresh steps (run fresh others (run fresh steps r)) =
      run fresh steps (run fresh others r) := by
  cases steps with
  | nil => rfl
  | cons step rest =>
    obtain ⟨name, e⟩ := step
    have absorb : ∀ others r, run fresh [(name, e)] (run fresh others (run fresh [(name, e)] r)) =
        run fresh [(name, e)] (run fresh others r) :=
      run_step_absorb fun new c d => apply_absorb e new c d
    have split : ∀ s, run fresh ((name, e) :: rest) s = run fresh rest (run fresh [(name, e)] s) :=
      run_append [(name, e)] rest
    calc run fresh ((name, e) :: rest) (run fresh others (run fresh ((name, e) :: rest) r))
      _ = run fresh rest (run fresh [(name, e)]
            (run fresh (rest ++ others) (run fresh [(name, e)] r))) := by
          rw [split, split, run_append]
      _ = run fresh rest (run fresh (others ++ [(name, e)]) (run fresh rest r)) := by
          rw [absorb, run_append, run_append]
      _ = run fresh rest (run fresh (others ++ [(name, e)]) r) := run_absorb rest _ r
      _ = run fresh ((name, e) :: rest) (run fresh others r) := by
          rw [run_append, split]
termination_by sizeOf steps

end

/-- What is changed twice is changed once. -/
theorem run_run (steps : List (String × Edit)) (r : Record) :
    run fresh steps (run fresh steps r) = run fresh steps r :=
  run_absorb steps [] r

/-- What is put at the end of a path is a change of the record. -/
theorem set_eq_run {c : Catalogue} {path : List String} {shape : Shape} (typed : r.Instance c)
    (leads : c.Leads r.type path shape) (found : r.get? path = some d) (e : Edit) :
    r.set? (apply c.fresh (c.initial (shape.recordType?.getD "")) e d) path =
      some (run c.fresh (e.atPath path) r) := by
  generalize same : r.type = type at leads
  induction leads generalizing r with
  | @slot _ _ name slot known has =>
    have here : r.slot? name = some d := found
    have begins : c.fresh r.type name = c.initial (slot.shape.recordType?.getD "") := by
      rw [Catalogue.fresh, same, known, Option.bind_some, has, Option.bind_some]
    rw [Record.set?, here, Option.map_some, atPath, run_cons_found here, run_nil, begins]
  | @through _ _ name _ path _ _ known has embeds rest ih =>
    obtain ⟨old, here, holds⟩ := typed.content (same ▸ known) has
    obtain ⟨inner, rfl, type, inside⟩ := Datum.holds_record.mp (embeds ▸ holds)
    have longer := Record.leads_ne_nil rest
    rw [Record.get_through here longer] at found
    have step : e.atPath (name :: path) = [(name, .merge (e.atPath path))] := by
      cases path with
      | nil => exact absurd rfl longer
      | cons next path => rfl
    rw [Record.set_through here longer, ih inside found type, Option.map_some, step,
      run_cons_found here, run_nil, apply]

end Edit

end ObjectMapping
