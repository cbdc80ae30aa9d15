import ObjectMapping.Proofs.Field.Column
import ObjectMapping.Proofs.Lookup
import ObjectMapping.Proofs.Statement.Steps
import ObjectMapping.Statement.Assigned
import ObjectMapping.Statement.Changes

/-! Each call on an update or a deletion adds to what the calls of its kind contribute and to
nothing else, so the statement is at any time the one that has the calls so far side by side. No
call fails over a descriptor that was built. -/
namespace ObjectMapping

/-- A chain of filters is built from its parts. -/
theorem constructed_addFilter {filters : List Expr} {filter : Option Expr}
    (constructed : ∀ e ∈ filters, e.Constructed) (start : ∀ e ∈ filter, e.Constructed) :
    ∀ e ∈ filters.foldl addFilter filter, e.Constructed := by
  induction filters generalizing filter with
  | nil => exact start
  | cons first filters ih =>
    have new : first.Constructed := constructed first List.mem_cons_self
    refine ih (fun e later => constructed e (List.mem_cons_of_mem first later)) ?_
    cases filter with
    | none =>
      rintro e ⟨⟩
      exact new
    | some old =>
      rintro e ⟨⟩
      exact .combine .and (start old rfl) new

namespace Restriction

variable {calls : List Restriction} {call : Restriction}

/-- One more call restricts the rows further, or asks for the row of the key. -/
theorem conditionOf_concat (calls : List Restriction) (call : Restriction) :
    conditionOf (calls ++ [call]) = call.filter?.toList.foldl addFilter (conditionOf calls) := by
  rw [conditionOf, filtersOf, filterMap_concat, List.foldl_append]
  rfl

theorem keyed_concat (calls : List Restriction) (call : Restriction) :
    keyed (calls ++ [call]) = (keyed calls || call.isByKey) := by
  simp [keyed]

theorem keyed_of_mem (asked : byKey ∈ calls) : keyed calls = true :=
  List.any_eq_true.mpr ⟨byKey, asked, rfl⟩

theorem constructed_condition (constructed : ∀ e, filter e ∈ calls → e.Constructed) :
    ∀ e ∈ conditionOf calls, e.Constructed := by
  refine constructed_addFilter (fun e member => ?_) nofun
  obtain ⟨call, among, filters⟩ := List.mem_filterMap.mp member
  cases call with
  | filter other =>
    obtain rfl := Option.some.inj filters
    exact constructed other among
  | byKey => cases filters

end Restriction

open Restriction (conditionOf keyed)

namespace Delete

variable {target : Storable} {before calls : List Restriction} {dialect : Dialect}
  {s : BoundStatement}

/-- A call adds to the condition or asks for the row of the key. -/
theorem apply_assembled (call : Restriction) :
    apply ⟨target, conditionOf before, keyed before⟩ call =
      ⟨target, conditionOf (before ++ [call]), keyed (before ++ [call])⟩ := by
  rw [Restriction.conditionOf_concat, Restriction.keyed_concat]
  cases call with
  | filter e => rw [Restriction.isByKey, Bool.or_false]; rfl
  | byKey => rw [Restriction.isByKey, Bool.or_true]; rfl

theorem foldl_assembled (target : Storable) (before calls : List Restriction) :
    calls.foldl apply ⟨target, conditionOf before, keyed before⟩ =
      ⟨target, conditionOf (before ++ calls), keyed (before ++ calls)⟩ := by
  induction calls generalizing before with
  | nil => rw [List.foldl_nil, List.append_nil]
  | cons call calls ih =>
    have split : before ++ call :: calls = before ++ [call] ++ calls := by simp
    rw [List.foldl_cons, apply_assembled, ih, split]

/-- A deletion has the conditions in one, and keeps to the row of the key if a call asked for it. -/
theorem made_eq (target : Storable) (calls : List Restriction) :
    made target calls = ⟨target, conditionOf calls, keyed calls⟩ :=
  foldl_assembled target [] calls

/-- A deletion that was asked to keep to the row of the key has the filters in a chain beside it. -/
theorem keyed_of_calls (asked : .byKey ∈ calls) (ok : (made target calls).bind dialect = .ok s) :
    Keyed dialect target [] ((Restriction.filtersOf calls).foldl addFilter none) s := by
  rw [made_eq, Restriction.keyed_of_mem asked] at ok
  exact .delete ok

theorem constructed_of_calls (constructed : ∀ e, .filter e ∈ calls → e.Constructed) :
    (made target calls).Constructed := by
  rw [made_eq]
  exact Restriction.constructed_condition constructed

end Delete

namespace Update

variable {c : Catalogue} {target : Storable} {before steps : List Step} {step : Step} {u : Update}
  {a : Assignment} {dialect : Dialect} {s : BoundStatement}

/-- A column field of a finished descriptor is found by its name. -/
theorem make_of_built {d : Descriptor} (built : d.Built c) {f : Field} (column : f ∈ d.columns) :
    ColumnRef.make d f.name = .ok ⟨d, f⟩ := by
  obtain ⟨member, fits⟩ := List.mem_filter.mp column
  have distinct : d.fields.Pairwise fun f g => f.name ≠ g.name :=
    List.pairwise_map.mp built.sound.distinct
  have found : d.field? f.name = some f := find_distinct distinct member
  rw [ColumnRef.make, found]
  exact if_pos fits

/-- Assigning all columns does not fail. -/
theorem setAll_eq (built : u.target.descriptor.Built c) :
    u.setAll = .ok { u with sets := u.sets ++ Step.assignAll.assignments u.target.descriptor } := by
  let d := u.target.descriptor
  have columns : (d.columns.filter fun f => !f.primaryKey).mapM (fun f => ColumnRef.make d f.name) =
      .ok ((d.columns.filter fun f => !f.primaryKey).map (⟨d, ·⟩)) :=
    mapM_eq_ok_iff.mpr (List.forall₂_map_right_iff.mpr (List.forall₂_same.mpr fun f among =>
      make_of_built built (List.mem_of_mem_filter among)))
  refine bind_eq_ok.mpr ⟨_, columns, ?_⟩
  rw [List.map_map]
  rfl

/-- A call adds to what the calls of its kind contribute. -/
theorem apply_assembled (built : target.descriptor.Built c) (step : Step) :
    step.apply (assembled target before) = .ok (assembled target (before ++ [step])) := by
  have all : assembled target (before ++ [step]) =
      ⟨target, (assembled target before).sets ++ step.assignments target.descriptor,
        conditionOf (restrictionsOf before ++ step.restriction?.toList),
        keyed (restrictionsOf before ++ step.restriction?.toList)⟩ := by
    rw [assembled, restrictionsOf, filterMap_concat, List.flatMap_append, List.flatMap_singleton]
    rfl
  rw [all]
  cases step with
  | assign | assignExpr | assignCurrent =>
    rw [Step.restriction?, Option.toList_none, List.append_nil]
    rfl
  | assignAll =>
    rw [Step.restriction?, Option.toList_none, List.append_nil]
    exact setAll_eq built
  | restrict call =>
    rw [Step.restriction?, Option.toList_some, Step.assignments, List.append_nil,
      Restriction.conditionOf_concat, Restriction.keyed_concat]
    cases call with
    | filter e => rw [Restriction.isByKey, Bool.or_false]; rfl
    | byKey => rw [Restriction.isByKey, Bool.or_true]; rfl

theorem foldlM_assembled (built : target.descriptor.Built c) (before steps : List Step) :
    steps.foldlM Step.apply (assembled target before) =
      .ok (assembled target (before ++ steps)) := by
  induction steps generalizing before with
  | nil => rw [List.foldlM_nil, List.append_nil]; rfl
  | cons step steps ih =>
    have split : before ++ step :: steps = before ++ [step] ++ steps := by simp
    rw [List.foldlM_cons, apply_assembled built, split]
    exact ih _

/-- No call on an update fails, and the update has the calls of each kind side by side. -/
theorem made_eq (built : target.descriptor.Built c) (steps : List Step) :
    made target steps = .ok (assembled target steps) :=
  foldlM_assembled built [] steps

/-- An update that was asked to keep to the row of the key has the filters in a chain beside it. -/
theorem keyed_of_calls (built : target.descriptor.Built c) (asked : .restrict .byKey ∈ steps)
    (called : made target steps = .ok u) (ok : u.bind dialect = .ok s) :
    Keyed dialect target (steps.flatMap (Step.assignments target.descriptor))
      ((Restriction.filtersOf (restrictionsOf steps)).foldl addFilter none) s := by
  obtain rfl := Except.ok.inj ((made_eq built steps).symm.trans called)
  have among : .byKey ∈ restrictionsOf steps := List.mem_filterMap.mpr ⟨_, asked, rfl⟩
  rw [assembled, Restriction.keyed_of_mem among] at ok
  exact .update ok

/-- A call assigns what the record holds, to a column of its descriptor, or it assigns the column
that it names. -/
theorem assignments_cases {d : Descriptor} (among : a ∈ step.assignments d) :
    (∃ f ∈ d.columns, a = ⟨⟨d, f⟩, .current⟩) ∨ ∃ column, step.column? = some column ∧
      a.column = column.ref ∧ ∀ e, a.value = .expr e → step.expr? = some e := by
  cases step with
  | assign column x | assignExpr column e =>
    obtain rfl := List.mem_singleton.mp among
    refine .inr ⟨column, rfl, rfl, fun e value => ?_⟩
    cases value
    rfl
  | assignCurrent column =>
    obtain rfl := List.mem_singleton.mp among
    exact .inr ⟨column, rfl, rfl, nofun⟩
  | assignAll =>
    obtain ⟨f, chosen, rfl⟩ := List.mem_map.mp among
    exact .inl ⟨f, List.mem_of_mem_filter chosen, rfl⟩
  | restrict => cases among

theorem constructed_of_calls (built : target.descriptor.Built c)
    (constructed : ∀ step ∈ steps, ∀ e, step.expr? = some e → e.Constructed)
    (called : made target steps = .ok u) : u.Constructed := by
  obtain rfl := Except.ok.inj ((made_eq built steps).symm.trans called)
  constructor
  · intro a member e value
    obtain ⟨step, among, contributes⟩ := List.mem_flatMap.mp member
    rcases assignments_cases contributes with ⟨f, -, rfl⟩ | ⟨_, -, -, handed⟩
    · cases value
    · exact constructed step among e (handed e value)
  · refine Restriction.constructed_condition fun e filters => ?_
    obtain ⟨step, among, contributes⟩ := List.mem_filterMap.mp filters
    cases step with
    | restrict call =>
      obtain rfl := Option.some.inj contributes
      exact constructed _ among e rfl
    | assign | assignExpr | assignCurrent | assignAll => cases contributes

/-- A field of a finished descriptor goes with the shape of its own slot. -/
theorem matchesShape_self {d : Descriptor} (built : d.Built c) {f : Field} (member : f ∈ d.fields) :
    TypedColumn.matchesShape f f.shape := by
  have regular : f.Regular c := built.each (fun _ declared => declared.regular)
    (fun _ _ _ before => ⟨before.zero, before.described⟩) f member
  rw [TypedColumn.matchesShape, beq_self_eq_true, Bool.and_true, Bool.or_eq_true, beq_iff_eq]
  rcases (built.sound.linked f member).typed with same | ⟨enum, number⟩
  · exact .inl same
  · obtain ⟨e, described⟩ := regular.described enum
    exact .inr (by rw [enum, number, described]; rfl)

/-- The columns of an update were accepted for the type of the record if those were that the calls
name. -/
theorem typed_of_calls (built : target.descriptor.Built c)
    (described : target.descriptor.type = target.record.type)
    (accepted : ∀ step ∈ steps, ∀ column, step.column? = some column → ∃ d wanted name,
      TypedColumn.make d target.record.type wanted name = .ok column)
    (called : made target steps = .ok u) : u.Typed := by
  obtain rfl := Except.ok.inj ((made_eq built steps).symm.trans called)
  intro a member
  obtain ⟨step, among, contributes⟩ := List.mem_flatMap.mp member
  rcases assignments_cases contributes with ⟨f, listed, rfl⟩ | ⟨column, names, same, -⟩
  · have own : TypedColumn.make target.descriptor target.record.type ⟨"", f.shape⟩ f.name =
        .ok ⟨⟨target.descriptor, f⟩, f.shape⟩ := by
      rw [TypedColumn.make, if_neg (not_not.mpr described), make_of_built built listed]
      exact if_pos (matchesShape_self built (List.mem_of_mem_filter listed))
    exact ⟨_, _, _, _, own, rfl⟩
  · obtain ⟨d, wanted, name, ok⟩ := accepted step among column names
    exact ⟨d, wanted, name, column, ok, same⟩

/-- The columns of an update are columns of the target if those are that the calls name. -/
theorem targeted_of_calls (built : target.descriptor.Built c)
    (own : ∀ step ∈ steps, ∀ column, step.column? = some column →
      target.descriptor.HasColumn column.ref.name)
    (called : made target steps = .ok u) : u.Targeted := by
  obtain rfl := Except.ok.inj ((made_eq built steps).symm.trans called)
  intro a member
  obtain ⟨step, among, contributes⟩ := List.mem_flatMap.mp member
  rcases assignments_cases contributes with ⟨f, listed, rfl⟩ | ⟨column, names, same, -⟩
  · exact ⟨f, listed, rfl⟩
  · exact same ▸ own step among column names

end Update

end ObjectMapping
