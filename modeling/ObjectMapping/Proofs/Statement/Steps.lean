import ObjectMapping.Proofs.Except
import ObjectMapping.Proofs.Expr.Connective
import ObjectMapping.Statement.Steps

/-! The calls that put a query together commute with those of other kinds. Each one adds to what
the calls of its kind contribute and to nothing else, so the query is at any time the one that has
the calls so far side by side; only a join of another kind is refused. -/
namespace ObjectMapping

/-- The results of a step for each element stand beside the elements. -/
theorem mapM_eq_ok_iff {f : α → Except ε β} {xs : List α} :
    xs.mapM f = .ok ys ↔ List.Forall₂ (fun x y => f x = .ok y) xs ys := by
  induction xs generalizing ys with
  | nil =>
    rw [List.forall₂_nil_left_iff]
    exact ⟨fun ok => (Except.ok.inj ok).symm, fun none => congrArg Except.ok none.symm⟩
  | cons x xs ih =>
    rw [mapM_cons_eq_ok, List.forall₂_cons_left_iff]
    simp only [ih]

/-- What one more element contributes comes last. -/
theorem filterMap_concat (f : α → Option β) (xs : List α) (x : α) :
    (xs ++ [x]).filterMap f = xs.filterMap f ++ (f x).toList := by
  rw [List.filterMap_append, List.filterMap_cons, List.filterMap_nil]
  cases f x <;> rfl

namespace Expr

/-- One more filter is one more condition of the conjunction. -/
theorem addFilter_conjunction (es : List Expr) (e : Expr) :
    addFilter (conjunction es) e = conjunction (es ++ [e]) := by
  rcases es with _ | ⟨a, _ | ⟨b, rest⟩⟩
  · rfl
  · simp only [addFilter, conjunction, Expr.and, combine, List.cons_append, List.nil_append,
      List.flatMap_cons, List.flatMap_nil, List.append_nil]
  · simp only [addFilter, conjunction, Expr.and, combine, conjuncts_logical, List.cons_append,
      List.flatMap_append, List.flatMap_cons, List.flatMap_nil, List.append_nil, List.append_assoc]

end Expr

namespace Select

variable {target : Storable} {steps others before after : List Step} {step : Step}
  {kind first : JoinKind} {d : Descriptor} {condition : Option Expr} {e : Error}

private theorem getLast_concat (f : α → Option β) (xs : List α) (x : α) :
    ((xs ++ [x]).filterMap f).getLast? = (f x).or (xs.filterMap f).getLast? := by
  rw [filterMap_concat]
  cases f x with
  | none => rw [Option.toList_none, List.append_nil, Option.none_or]
  | some b => rw [Option.toList_some, List.getLast?_concat, Option.some_or]

section

variable (steps : List Step) (step : Step)

theorem joinsOf_concat : joinsOf (steps ++ [step]) = joinsOf steps ++ step.join?.toList :=
  filterMap_concat ..

theorem filtersOf_concat : filtersOf (steps ++ [step]) = filtersOf steps ++ step.filter?.toList :=
  filterMap_concat ..

theorem orderOf_concat : orderOf (steps ++ [step]) = orderOf steps ++ step.order?.toList :=
  filterMap_concat ..

theorem limitOf_concat : limitOf (steps ++ [step]) = step.limit?.or (limitOf steps) :=
  getLast_concat ..

theorem offsetOf_concat : offsetOf (steps ++ [step]) = step.offset?.or (offsetOf steps) :=
  getLast_concat ..

theorem kindOf_append (after : List Step) :
    kindOf (steps ++ after) = (kindOf steps).or (kindOf after) := by
  rw [kindOf, joinsOf, List.filterMap_append, List.head?_append, Option.map_or]
  rfl

end

theorem kindOf_concat (steps : List Step) (step : Step) :
    kindOf (steps ++ [step]) = (kindOf steps).or (step.join?.map (·.1)) := by
  rw [kindOf, joinsOf_concat, List.head?_append, Option.map_or, Option.head?_toList]
  rfl

/-- The call may follow the others: it joins nothing, or in the way in which they do. -/
def Fits (steps : List Step) (step : Step) : Prop :=
  ∀ j, step.join? = some j → ∀ first, kindOf steps = some first → j.1 = first

/-- A join of the kind of those before it takes its place after them. -/
theorem join_assembled (fits : Fits steps (.join kind d condition)) :
    (assembled steps target).join kind d condition = .ok
      { assembled steps target with
        joinKind := some kind
        joins := (joinsOf steps).map (·.2) ++ [⟨d.table, condition⟩] } := by
  simp only [Select.join, assembled]
  cases active : kindOf steps with
  | none => rfl
  | some first => exact if_pos (fits _ rfl first active).symm

/-- A join of another kind is refused. -/
theorem join_assembled_mixed (found : kindOf steps = some first) (other : kind ≠ first) :
    (assembled steps target).join kind d condition = .error (first.mixed kind) := by
  simp only [Select.join, assembled, found]
  exact if_neg other.symm

/-- A call adds to what the calls of its kind contribute, and to nothing else. -/
theorem apply_assembled (fits : Fits steps step) :
    step.apply (assembled steps target) = .ok (assembled (steps ++ [step]) target) := by
  cases step with
  | join kind d condition =>
    have uniform : (kindOf steps).or (some kind) = some kind := by
      cases active : kindOf steps with
      | none => rfl
      | some first => exact congrArg some (fits _ rfl first active).symm
    rw [Step.apply, join_assembled fits]
    simp [assembled, joinsOf_concat, filtersOf_concat, orderOf_concat, limitOf_concat,
      offsetOf_concat, kindOf_concat, uniform, Step.join?, Step.filter?, Step.order?, Step.limit?,
      Step.offset?]
  | filter | order | limit | offset =>
    simp [Step.apply, restrict, orderBy, assembled, joinsOf_concat, filtersOf_concat, orderOf_concat,
      limitOf_concat, offsetOf_concat, kindOf_concat, Expr.addFilter_conjunction, Step.join?,
      Step.filter?, Step.order?, Step.limit?, Step.offset?]

theorem OneKind.fits (uniform : OneKind (before ++ step :: after)) : Fits before step := by
  intro j joins first found
  have member : j ∈ joinsOf (before ++ step :: after) :=
    List.mem_filterMap.mpr ⟨step, List.mem_append_right _ List.mem_cons_self, joins⟩
  have same := uniform j member
  rw [kindOf_append, found, Option.some_or] at same
  exact Option.some.inj same

/-- As long as the joins are of one kind, a query has the calls so far side by side. -/
theorem foldlM_assembled (uniform : OneKind (before ++ steps)) :
    steps.foldlM Step.apply (assembled before target) = .ok (assembled (before ++ steps) target) := by
  induction steps generalizing before with
  | nil => rw [List.foldlM_nil, List.append_nil]; rfl
  | cons step steps ih =>
    have split : before ++ step :: steps = before ++ [step] ++ steps := by simp
    rw [List.foldlM_cons, apply_assembled uniform.fits, split]
    exact ih (split ▸ uniform)

theorem made_of_oneKind (uniform : OneKind steps) :
    made target steps = .ok (assembled steps target) := by
  have start : OneKind ([] ++ steps) := uniform
  exact foldlM_assembled start

theorem made_of_mixed (mixed : Mixed steps e) : made target steps = .error e := by
  obtain ⟨d, condition, after, found, uniform, other⟩ := mixed
  rw [made, List.foldlM_append, ← made, made_of_oneKind uniform]
  change ((assembled _ target).join _ d condition >>= fun q => after.foldlM Step.apply q) = _
  rw [join_assembled_mixed found other]
  rfl

theorem OneKind.concat (uniform : OneKind steps) (fits : Fits steps step) :
    OneKind (steps ++ [step]) := by
  intro j member
  rw [joinsOf_concat, List.mem_append, Option.mem_toList] at member
  rw [kindOf_concat]
  rcases member with earlier | joins
  · rw [← uniform j earlier, Option.some_or]
  · cases active : kindOf steps with
    | none => rw [Option.none_or, joins, Option.map_some]
    | some first => rw [Option.some_or, fits j joins first active]

/-- Either all joins are of one kind, or there is a first one that is not. -/
theorem oneKind_or_mixed (uniform : OneKind before) (steps : List Step) :
    OneKind (before ++ steps) ∨ ∃ e, Mixed (before ++ steps) e := by
  induction steps generalizing before with
  | nil => exact .inl (by rwa [List.append_nil])
  | cons step steps ih =>
    by_cases fits : Fits before step
    · have split : before ++ step :: steps = before ++ [step] ++ steps := by simp
      rw [split]
      exact ih (uniform.concat fits)
    · simp only [Fits, not_forall] at fits
      obtain ⟨j, joins, first, found, other⟩ := fits
      cases step with
      | join kind d condition =>
        obtain rfl := Option.some.inj joins
        exact .inr ⟨_, .of_join d condition steps found uniform other⟩
      | filter | order | limit | offset => cases joins

theorem made_cases (target : Storable) (steps : List Step) :
    OneKind steps ∧ made target steps = .ok (assembled steps target) ∨
      ∃ e, Mixed steps e ∧ made target steps = .error e := by
  have none : OneKind [] := nofun
  rcases oneKind_or_mixed none steps with uniform | ⟨e, mixed⟩
  · exact .inl ⟨uniform, made_of_oneKind uniform⟩
  · exact .inr ⟨e, mixed, made_of_mixed mixed⟩

theorem made_eq_error : made target steps = .error e ↔ Mixed steps e := by
  refine ⟨fun failed => ?_, made_of_mixed⟩
  rcases made_cases target steps with ⟨-, ok⟩ | ⟨cause, mixed, again⟩
  · cases failed.symm.trans ok
  · exact Except.error.inj (again.symm.trans failed) ▸ mixed

/-- What is told of a join that is refused depends on the kind of the first join alone, since there
is but one other kind. -/
theorem Mixed.kinds (mixed : Mixed steps e) :
    ∃ first kind, kindOf steps = some first ∧ kind ≠ first ∧ e = first.mixed kind ∧
      ∃ j ∈ joinsOf steps, j.1 = kind := by
  obtain ⟨d, condition, after, found, uniform, other⟩ := mixed
  refine ⟨_, _, by rw [kindOf_append, found, Option.some_or], other, rfl, ?_⟩
  exact ⟨_, List.mem_filterMap.mpr ⟨_, List.mem_append_right _ List.mem_cons_self, rfl⟩, rfl⟩

theorem mem_of_kindOf (found : kindOf steps = some first) : ∃ j ∈ joinsOf steps, j.1 = first := by
  obtain ⟨j, head, rfl⟩ := Option.map_eq_some_iff.mp found
  exact ⟨j, List.mem_of_head? head, rfl⟩

/-- The calls fail if they join in both ways. -/
theorem exists_error_iff (target : Storable) (steps : List Step) :
    (∃ e, made target steps = .error e) ↔
      (∃ j ∈ joinsOf steps, j.1 = .inner) ∧ ∃ j ∈ joinsOf steps, j.1 = .leftOuter := by
  constructor
  · rintro ⟨e, failed⟩
    obtain ⟨first, kind, found, other, -, there⟩ := (made_eq_error.mp failed).kinds
    have here := mem_of_kindOf found
    cases first <;> cases kind
    · exact absurd rfl other
    · exact ⟨here, there⟩
    · exact ⟨there, here⟩
    · exact absurd rfl other
  · rintro ⟨⟨j, inner, jKind⟩, k, outer, kKind⟩
    rcases made_cases target steps with ⟨uniform, -⟩ | ⟨e, -, failed⟩
    · have same := (uniform j inner).trans (uniform k outer).symm
      rw [jKind, kKind] at same
      cases same
    · exact ⟨e, failed⟩

/-- What is made depends on the order of the calls within each kind alone. -/
theorem made_alike (alike : Alike steps others) : made target others = made target steps := by
  have kinds : kindOf others = kindOf steps := by rw [kindOf, kindOf, alike.joins]
  rcases made_cases target steps with ⟨uniform, ok⟩ | ⟨e, mixed, failed⟩
  · have uniform : OneKind others := by rwa [OneKind, alike.joins, kinds]
    rw [ok, made_of_oneKind uniform]
    simp only [assembled, kinds, alike.joins, alike.filters, alike.order, alike.limit, alike.offset]
  · have fails : ∃ e, made target others = .error e := by
      rw [exists_error_iff, alike.joins, ← exists_error_iff target]
      exact ⟨e, failed⟩
    obtain ⟨e', failed'⟩ := fails
    obtain ⟨first, kind, found, other, rfl, -⟩ := mixed.kinds
    obtain ⟨first', kind', found', other', rfl, -⟩ := (made_eq_error.mp failed').kinds
    obtain rfl := Option.some.inj (found.symm.trans (kinds.symm.trans found'))
    have same : kind' = kind := by
      cases first <;> cases kind <;> cases kind' <;> first | rfl | contradiction
    rw [failed, failed', same]

section

variable {dialect : Dialect} {text : String}

theorem joinText_eq_ok {q : Select} {j : Join} : q.joinText dialect j = .ok text ↔
    JoinWritten dialect (q.joinKind.getD .inner).keyword j text := by
  simp only [joinText, JoinWritten]
  cases j.condition with
  | none =>
    refine ⟨fun ok => ⟨_, rfl, (Except.ok.inj ok).symm⟩, ?_⟩
    rintro ⟨_, rfl, rfl⟩
    rfl
  | some e =>
    rw [bind_eq_ok]
    refine exists_congr fun on => and_congr Iff.rfl ?_
    exact ⟨fun ok => (Except.ok.inj ok).symm, fun same => congrArg Except.ok same.symm⟩

theorem orderText_eq_ok {key : Expr × Bool} :
    orderText dialect key = .ok text ↔ KeyWritten dialect key text := by
  rw [orderText, bind_eq_ok, KeyWritten]
  refine exists_congr fun compiled => and_congr Iff.rfl ?_
  exact ⟨fun ok => (Except.ok.inj ok).symm, fun same => congrArg Except.ok same.symm⟩

/-- The text of the calls side by side. -/
theorem sql_assembled :
    (assembled steps target).sql dialect = .ok text ↔ Written dialect target steps text := by
  simp only [sql, bind_eq_ok, mapM_eq_ok_iff, joinText_eq_ok, orderText_eq_ok]
  constructor
  · rintro ⟨joins, joined, condition, filtered, keys, ordered, ok⟩
    obtain rfl := Except.ok.inj ok
    have written : Written dialect target steps _ := .of_parts joined filtered ordered
    cases condition <;> exact written
  · rintro @⟨joins, keys, condition, joined, filtered, ordered⟩
    refine ⟨joins, joined, condition, filtered, keys, ordered, ?_⟩
    cases condition <;> rfl

end

/-- What calls make of a query depends on the order of the calls within each kind alone. They fail
if they join in both ways, and then at the first join that is not of the kind of the first one.
Otherwise the joins, the conditions and the keys of the order are in the text as they were called. -/
theorem made_spec (target : Storable) (steps : List Step) :
    (∀ e, made target steps = .error e ↔ Mixed steps e) ∧
      ((∃ e, made target steps = .error e) ↔
        (∃ j ∈ joinsOf steps, j.1 = .inner) ∧ ∃ j ∈ joinsOf steps, j.1 = .leftOuter) ∧
      (∀ others, Alike steps others → made target others = made target steps) ∧
      ∀ q, made target steps = .ok q →
        ∀ dialect text, q.sql dialect = .ok text ↔ Written dialect target steps text := by
  refine ⟨fun e => made_eq_error, exists_error_iff target steps,
    fun others alike => made_alike alike, fun q ok dialect text => ?_⟩
  rcases made_cases target steps with ⟨-, again⟩ | ⟨e, -, failed⟩
  · obtain rfl := Except.ok.inj (again.symm.trans ok)
    exact sql_assembled
  · cases failed.symm.trans ok

namespace Shop

def books : Storable := ⟨.mk "Book" [], ⟨"Book", "books", "Book", none, [], 0, .mk "Book" []⟩⟩

def listed : Expr := .literal (.bool true)

def lent : Expr := .literal (.bool false)

def calls : List Step :=
  [.filter listed, .join .inner books.descriptor none, .limit 3, .filter lent, .order listed true,
    .limit 7]

/-- The same calls of each kind, in between each other in another way. -/
def reordered : List Step :=
  [.limit 9, .order listed true, .filter listed, .filter lent, .join .inner books.descriptor none,
    .limit 7]

end Shop

open Shop in
theorem made_spec_books :
    made books reordered = made books calls ∧
      (∃ text, Written .sqlite books calls text ∧
        text = "SELECT * FROM \"books\" INNER JOIN \"books\" ON 1 = 1 WHERE 1 AND 0 " ++
          "ORDER BY 1 ASC LIMIT 7") ∧
      made books (calls ++ [.join .leftOuter books.descriptor none]) =
        .error (JoinKind.inner.mixed .leftOuter) := by
  obtain ⟨-, -, same, written⟩ := made_spec books calls
  have alike : Alike calls reordered := ⟨rfl, rfl, rfl, rfl, rfl⟩
  have uniform : OneKind calls := by
    intro j member
    obtain rfl := List.mem_singleton.mp member
    rfl
  have text : (assembled calls books).sql .sqlite = .ok _ := rfl
  refine ⟨same reordered alike,
    ⟨_, (written _ (made_of_oneKind uniform) .sqlite _).mp text, by decide +kernel⟩, ?_⟩
  exact ((made_spec books _).1 _).mpr (.of_join books.descriptor none [] rfl uniform (by decide))

end Select

end ObjectMapping
