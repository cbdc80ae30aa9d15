import ObjectMapping.Error

/-! Steps that change a state and may fail. A failed step leaves the state that it
had reached, so what happened before the failure stays visible. -/
namespace ObjectMapping

/-- A step on a state of type `σ` that yields an `α` or fails. -/
abbrev Action (σ α : Type) := ExceptT Error (StateM σ) α

namespace Action

/-- The outcome of the step together with the state that it leaves. -/
def perform (action : Action σ α) (s : σ) : Except Error α × σ := action.run.run s

/-- The step that is given by its outcome and the state that it leaves. -/
def ofFunction (f : σ → Except Error α × σ) : Action σ α := ExceptT.mk f

/-- A result that does not depend on the state. -/
def ofExcept (result : Except Error α) : Action σ α := ExceptT.mk (pure result)

/-- Replace the state by a result, if there is one. -/
def update (f : σ → Except Error σ) : Action σ Unit :=
  ofFunction fun s =>
    match f s with
    | .ok s => (.ok (), s)
    | .error e => (.error e, s)

/-- The same step with its error changed. -/
def mapError (f : Error → Error) (action : Action σ α) : Action σ α :=
  ofFunction fun s =>
    let (result, s) := action.perform s
    (result.mapError f, s)

/-- The outcome of a step as a value, so that later steps follow a failure too. -/
def attempt (action : Action σ α) : Action σ (Except Error α) :=
  ofFunction fun s =>
    let (result, s) := action.perform s
    (.ok result, s)

/-- Run a step, and then another one whatever became of the first. The outcome is
that of the first. -/
def andFinally (action : Action σ α) (last : Action σ Unit) : Action σ α :=
  ofFunction fun s =>
    let (result, s) := action.perform s
    (result, (last.perform s).2)

/-- A step on the first of two states. -/
def onFirst (action : Action σ α) : Action (σ × τ) α :=
  ofFunction fun (s, t) =>
    let (result, s) := action.perform s
    (result, s, t)

/-- A step on the second of two states. -/
def onSecond (action : Action τ α) : Action (σ × τ) α :=
  ofFunction fun (s, t) =>
    let (result, t) := action.perform t
    (result, s, t)

@[simp] theorem perform_pure (x : α) (s : σ) :
    (pure x : Action σ α).perform s = (.ok x, s) := rfl

@[simp] theorem perform_throw (e : Error) (s : σ) :
    (throw e : Action σ α).perform s = (.error e, s) := rfl

@[simp] theorem perform_get (s : σ) : (get : Action σ σ).perform s = (.ok s, s) := rfl

@[simp] theorem perform_modify (f : σ → σ) (s : σ) :
    (modify f : Action σ PUnit).perform s = (.ok ⟨⟩, f s) := rfl

@[simp] theorem perform_ofFunction (f : σ → Except Error α × σ) (s : σ) :
    (ofFunction f).perform s = f s := rfl

@[simp] theorem perform_ofExcept (result : Except Error α) (s : σ) :
    (ofExcept result).perform s = (result, s) := rfl

@[simp] theorem perform_mapError (f : Error → Error) (action : Action σ α) (s : σ) :
    (action.mapError f).perform s = ((action.perform s).1.mapError f, (action.perform s).2) := rfl

@[simp] theorem perform_andFinally (action : Action σ α) (last : Action σ Unit) (s : σ) :
    (action.andFinally last).perform s =
      ((action.perform s).1, (last.perform (action.perform s).2).2) := rfl

@[simp] theorem perform_onFirst (action : Action σ α) (s : σ) (t : τ) :
    action.onFirst.perform (s, t) = ((action.perform s).1, (action.perform s).2, t) := rfl

@[simp] theorem perform_onSecond (action : Action τ α) (s : σ) (t : τ) :
    action.onSecond.perform (s, t) = ((action.perform t).1, s, (action.perform t).2) := rfl

/-- The second step starts where the first one succeeded; a failure ends the whole. -/
theorem perform_bind (a : Action σ α) (f : α → Action σ β) (s : σ) :
    (a >>= f).perform s =
      match a.perform s with
      | (.ok x, s) => (f x).perform s
      | (.error e, s) => (.error e, s) := by
  unfold perform ExceptT.run StateT.run
  simp only [bind, ExceptT.bind, ExceptT.mk, StateT.bind, ExceptT.bindCont]
  cases a s with
  | mk result s => cases result <;> rfl

end Action

end ObjectMapping
