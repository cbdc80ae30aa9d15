import ObjectMapping.Expr.Calls
import ObjectMapping.Proofs.Action
import ObjectMapping.Proofs.Expr.Tree

/-! Whoever answers, an expression is written by asking about its nodes in order, and its text
depends on the answers alone. -/
namespace ObjectMapping.Expr

section

variable {m : Type → Type v} [Monad m] {answer : Head → m String}

/-- The step `x` asks about these nodes and about nothing else, and makes of the answers what `y`
makes of the same texts. What stands after them is left for later steps. -/
def Asks (answer : Head → m String) (x : m α) (y : StateM (List String) α) (hs : List Head) : Prop :=
  ∀ later : List Head, y.run <$> (hs ++ later).mapM answer = do
    let a ← x
    let texts ← later.mapM answer
    return (a, texts)

/-- Writing the expression asks about its nodes. -/
def Visited (answer : Head → m String) (e : Expr) : Prop :=
  Asks answer (e.render answer) (e.render next) e.nodes

variable [LawfulMonad m]

namespace Asks

theorem pure (a : α) : Asks answer (pure a) (pure a) [] := by
  intro later
  rw [pure_bind, bind_pure_comp]
  rfl

theorem node (h : Head) : Asks answer (answer h) (next h) [h] := by
  intro later
  rw [List.singleton_append, List.mapM_cons, map_bind]
  refine bind_congr fun text => ?_
  rw [map_bind]
  exact bind_congr fun texts => map_pure ..

theorem bind {x : m α} {y : StateM (List String) α} {f : α → m β} {g : α → StateM (List String) β}
    (first : Asks answer x y hs) (second : ∀ a, Asks answer (f a) (g a) ks) :
    Asks answer (x >>= f) (y >>= g) (hs ++ ks) := by
  intro later
  -- What the first step leaves are the texts of the second step and of all that is later.
  have composed : (y >>= g).run = (fun p => (g p.1).run p.2) ∘ y.run := rfl
  rw [composed, comp_map, List.append_assoc, first, bind_assoc, map_bind]
  refine bind_congr fun a => ?_
  rw [map_bind]
  trans (g a).run <$> (ks ++ later).mapM answer
  · rw [map_eq_pure_bind]
    exact bind_congr fun texts => map_pure ..
  · exact second a later

/-- A last step that only makes something of the answers asks about no further node. -/
theorem last {x : m α} {y : StateM (List String) α} (first : Asks answer x y hs) (f : α → β) :
    Asks answer (do return f (← x)) (do return f (← y)) hs := by
  have whole := first.bind fun a => .pure (f a)
  rwa [List.append_nil] at whole

theorem list {es : List Expr} (each : ∀ e ∈ es, Visited answer e) :
    Asks answer (renderList answer es) (renderList next es) (es.flatMap nodes) := by
  induction es with
  | nil => exact .pure []
  | cons e rest ih =>
    obtain ⟨first, each⟩ := List.forall_mem_cons.mp each
    simp only [renderList, List.flatMap_cons]
    exact first.bind fun text => (ih each).last (text :: ·)

theorem operands {es : List Expr} (each : ∀ e ∈ es, Visited answer e) :
    Asks answer (renderOperands answer es) (renderOperands next es) (es.flatMap nodes) := by
  induction es with
  | nil => exact .pure []
  | cons e rest ih =>
    obtain ⟨first, each⟩ := List.forall_mem_cons.mp each
    simp only [renderOperands, List.flatMap_cons]
    exact first.bind fun text => (ih each).last (e.grouped text :: ·)

theorem branches {branches : List (Expr × Expr)}
    (each : ∀ branch ∈ branches, Visited answer branch.1 ∧ Visited answer branch.2) :
    Asks answer (renderBranches answer branches) (renderBranches next branches)
      (branches.flatMap fun branch => branch.1.nodes ++ branch.2.nodes) := by
  induction branches with
  | nil => exact .pure ""
  | cons branch rest ih =>
    obtain ⟨⟨condition, result⟩, each⟩ := List.forall_mem_cons.mp each
    simp only [renderBranches, List.flatMap_cons, List.append_assoc]
    exact condition.bind fun c => result.bind fun r =>
      (ih each).last (" WHEN " ++ c ++ " THEN " ++ r ++ ·)

theorem otherwise {otherwise : Option Expr} (each : ∀ e ∈ otherwise, Visited answer e) :
    Asks answer (renderElse answer otherwise) (renderElse next otherwise)
      (otherwise.toList.flatMap nodes) := by
  cases otherwise with
  | none => exact .pure ""
  | some e =>
    simp only [renderElse, Option.toList_some, List.flatMap_singleton]
    exact (each e rfl).last (" ELSE " ++ ·)

end Asks

/-- Every kind of node asks about itself and then about what stands below it. -/
theorem visited (answer : Head → m String) (e : Expr) : Visited answer e := by
  induction e using operand_induction with
  | step e below =>
    rw [Visited, nodes_eq]
    cases e with
    | column | literal | null => exact .node _
    | unary op operand =>
      have inside := below operand List.mem_cons_self
      simp only [render, operands, List.flatMap_singleton]
      exact (Asks.node _).bind fun token => inside.last fun text =>
        unaryText token (operand.grouped text)
    | cast target operand =>
      have inside := below operand List.mem_cons_self
      simp only [render, operands, List.flatMap_singleton]
      exact (Asks.node _).bind fun type => inside.last fun text =>
        "CAST(" ++ text ++ " AS " ++ type ++ ")"
    | binary op left right =>
      have first := below left List.mem_cons_self
      have second := below right (List.mem_cons_of_mem _ List.mem_cons_self)
      simp only [render, operands, List.flatMap_cons, List.flatMap_nil, List.append_nil]
      exact (Asks.node _).bind fun token => first.bind fun l => second.last fun r =>
        "(" ++ left.grouped l ++ " " ++ token ++ " " ++ right.grouped r ++ ")"
    | relational op left right =>
      have first := below left List.mem_cons_self
      have second := below right (List.mem_cons_of_mem _ List.mem_cons_self)
      simp only [render, operands, List.flatMap_cons, List.flatMap_nil, List.append_nil]
      exact (Asks.node _).bind fun token => first.bind fun l => second.last fun r =>
        left.grouped l ++ " " ++ token ++ " " ++ right.grouped r
    | call name args =>
      simp only [render, operands]
      exact (Asks.node _).bind fun name => (Asks.list below).last fun texts =>
        name ++ "(" ++ ", ".intercalate texts ++ ")"
    | logical connective children =>
      simp only [render, operands]
      exact (Asks.node _).bind fun token => (Asks.operands below).last fun texts =>
        (" " ++ token ++ " ").intercalate texts
    | conditional branches otherwise =>
      obtain ⟨among, last⟩ := forall_conditional.mp below
      simp only [render, operands, List.flatMap_append, List.flatMap_assoc, List.flatMap_cons,
        List.flatMap_nil, List.append_nil]
      exact (Asks.node _).bind fun _ => (Asks.branches among).bind fun cases =>
        (Asks.otherwise last).last fun text => "CASE" ++ cases ++ text ++ " END"

/-- An expression is written by asking about its nodes in order and laying out the answers. -/
theorem render_eq (answer : Head → m String) (e : Expr) :
    e.render answer = e.assemble <$> e.nodes.mapM answer := by
  have laid : e.assemble = Prod.fst ∘ (e.render next).run := rfl
  have asked := visited answer e []
  rw [List.append_nil] at asked
  rw [laid, comp_map, asked, map_bind]
  simp

end

section

variable {σ : Type} {answer : Head → Action σ String} {s t u : σ}

theorem perform_logged (h : Head) (s : σ) (calls : List Head) :
    (logged answer h).perform (s, calls) =
      (((answer h).perform s).1, ((answer h).perform s).2, calls ++ [h]) := by
  rw [logged, Action.perform_bind, Action.perform_modify]
  exact Action.perform_onFirst ..

theorem Consulted.cons (first : (answer h).perform s = (.ok text, t))
    (rest : Consulted answer hs t outcome u calls) :
    Consulted answer (h :: hs) s (outcome.map (text :: ·)) u (h :: calls) := by
  cases rest with
  | all answered => exact .all (.cons first answered)
  | refused before split earlier fails =>
    exact .refused (h :: before) (congrArg (h :: ·) split) (.cons first earlier) fails

/-- Nodes that are asked about one after the other are consulted, whether a list of them is kept
or not. -/
theorem consulted (answer : Head → Action σ String) (hs : List Head) (s : σ) :
    ∃ outcome t calls, Consulted answer hs s outcome t calls ∧
      (hs.mapM answer).perform s = (outcome, t) ∧
      ∀ earlier, (hs.mapM (logged answer)).perform (s, earlier) = (outcome, t, earlier ++ calls) := by
  induction hs generalizing s with
  | nil => exact ⟨.ok [], s, [], .all .nil, rfl, fun earlier => by rw [List.append_nil]; rfl⟩
  | cons h hs ih =>
    simp only [Action.perform_mapM_cons, perform_logged]
    rcases asked : (answer h).perform s with ⟨e | text, t⟩
    · exact ⟨.error e, t, [h], .refused [] rfl .nil asked, rfl, fun _ => rfl⟩
    · obtain ⟨outcome, u, calls, rest, plain, logged⟩ := ih t
      refine ⟨outcome.map (text :: ·), u, h :: calls, rest.cons asked, ?_, fun earlier => ?_⟩
      · simp only [plain]
      · simp only [logged, List.append_assoc, List.singleton_append]

/-- Whoever answers, an expression is written by asking about its nodes, each before what stands
below it and from left to right, once for each time that it occurs. The first refusal ends this and
is the outcome; otherwise the text is laid out from the answers. Keeping a list of the nodes that
are asked about changes nothing else. -/
theorem render_consults (answer : Head → Action σ String) (e : Expr) (s : σ) :
    ∃ outcome t calls, Consulted answer e.nodes s outcome t calls ∧
      (e.render answer).perform s = (outcome.map e.assemble, t) ∧
      (e.render (logged answer)).perform (s, []) = (outcome.map e.assemble, t, calls) := by
  obtain ⟨outcome, t, calls, asked, plain, kept⟩ := consulted answer e.nodes s
  refine ⟨outcome, t, calls, asked, ?_, ?_⟩
  · rw [render_eq, Action.perform_map, plain]
  · rw [render_eq, Action.perform_map, kept, List.nil_append]

end

end ObjectMapping.Expr
