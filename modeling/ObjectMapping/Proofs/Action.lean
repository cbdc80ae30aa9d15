import ObjectMapping.Action

/-! What a step is sure to do: the states before and after it are related whatever
the outcome, and a success leaves more to rely on. The rules follow the ways in which
steps are put together. -/
namespace ObjectMapping.Action

variable {σ τ α β : Type} {step : σ → σ → Prop} {post : α → σ → Prop}

/-- The whole has a result when both steps have. -/
theorem perform_bind_eq_ok {first : Action σ β} {second : β → Action σ α} :
    (first >>= second).perform s = (.ok a, t) ↔
      ∃ x u, first.perform s = (.ok x, u) ∧ (second x).perform u = (.ok a, t) := by
  rw [perform_bind]
  cases first.perform s with
  | mk result u =>
    cases result with
    | error => exact ⟨fun done => (by cases done), fun ⟨_, _, done, _⟩ => (by cases done)⟩
    | ok x =>
      refine ⟨fun done => ⟨x, u, rfl, done⟩, ?_⟩
      rintro ⟨_, _, ⟨⟩, done⟩
      exact done

theorem perform_map (f : β → α) (action : Action σ β) (s : σ) :
    (f <$> action).perform s = ((action.perform s).1.map f, (action.perform s).2) := by
  rw [map_eq_pure_bind, perform_bind]
  rcases action.perform s with ⟨_ | x, t⟩ <;> rfl

/-- Of several steps the later ones are taken from the state that the first one leaves. -/
theorem perform_mapM_cons {γ : Type} (f : γ → Action σ α) (x : γ) (xs : List γ) (s : σ) :
    ((x :: xs).mapM f).perform s =
      match (f x).perform s with
      | (.ok a, t) => (((xs.mapM f).perform t).1.map (a :: ·), ((xs.mapM f).perform t).2)
      | (.error e, t) => (.error e, t) := by
  rw [List.mapM_cons, perform_bind]
  rcases (f x).perform s with ⟨_ | a, t⟩
  · rfl
  · simp only [perform_bind]
    rcases (xs.mapM f).perform t with ⟨_ | rest, u⟩ <;> rfl

theorem perform_ofExcept_eq_ok {result : Except Error α} :
    (ofExcept result).perform s = (.ok x, t) ↔ result = .ok x ∧ s = t := by
  rw [perform_ofExcept, Prod.mk.injEq]

theorem perform_onFirst_eq_ok {action : Action σ α} {p q : σ × τ} :
    action.onFirst.perform p = (.ok x, q) ↔ action.perform p.1 = (.ok x, q.1) ∧ p.2 = q.2 := by
  rw [perform_onFirst, Prod.ext_iff, Prod.ext_iff, Prod.ext_iff, and_assoc]

theorem perform_update_eq_ok {f : τ → Except Error τ} {p q : σ × τ} :
    (update f).onSecond.perform p = (.ok x, q) ↔ f p.2 = .ok q.2 ∧ p.1 = q.1 := by
  obtain ⟨s, t⟩ := p
  obtain ⟨s', t'⟩ := q
  rw [perform_onSecond, update, perform_ofFunction]
  cases f t with
  | error => exact ⟨fun done => (by cases done), fun ⟨done, _⟩ => (by cases done)⟩
  | ok u =>
    constructor
    · rintro ⟨⟩
      exact ⟨rfl, rfl⟩
    · rintro ⟨⟨⟩, rfl⟩
      rfl

/-- The state after the step is related to the one before it, and a result comes
with its promise. -/
def Ensures (step : σ → σ → Prop) (action : Action σ α) (s : σ) (post : α → σ → Prop) : Prop :=
  match action.perform s with
  | (.ok x, t) => step s t ∧ post x t
  | (.error _, t) => step s t

theorem Ensures.related (sure : Ensures step action s post) : step s (action.perform s).2 := by
  unfold Ensures at sure
  cases outcome : action.perform s with
  | mk result t =>
    rw [outcome] at sure
    cases result with
    | ok => exact sure.1
    | error => exact sure

theorem Ensures.mono (weaker : ∀ s t, step s t → other s t) (sure : Ensures step action s post) :
    Ensures other action s post := by
  unfold Ensures at sure ⊢
  cases outcome : action.perform s with
  | mk result t =>
    rw [outcome] at sure
    cases result with
    | ok => exact ⟨weaker s t sure.1, sure.2⟩
    | error => exact weaker s t sure

theorem Ensures.pure (x : α) (s : σ) (stays : step s s) (promise : post x s) :
    Ensures step (pure x) s post :=
  ⟨stays, promise⟩

theorem Ensures.throw (e : Error) (s : σ) (stays : step s s) :
    Ensures step (throw e : Action σ α) s post :=
  stays

theorem Ensures.get (s : σ) (stays : step s s) :
    Ensures step MonadState.get s fun x t => s = x ∧ s = t :=
  ⟨stays, rfl, rfl⟩

theorem Ensures.ofExcept (result : Except Error α) (s : σ) (stays : step s s) :
    Ensures step (ofExcept result) s fun x t => result = .ok x ∧ s = t := by
  cases result with
  | ok x => exact ⟨stays, rfl, rfl⟩
  | error => exact stays

/-- What the first step promises is there for the second one. -/
theorem Ensures.bind {middle : β → σ → Prop} {first : Action σ β} {second : β → Action σ α}
    (trans : ∀ a b c, step a b → step b c → step a c) (sure : Ensures step first s middle)
    (next : ∀ x t, middle x t → Ensures step (second x) t post) :
    Ensures step (first >>= second) s post := by
  unfold Ensures at sure ⊢
  rw [perform_bind]
  cases outcome : first.perform s with
  | mk result t =>
    rw [outcome] at sure
    cases result with
    | error => exact sure
    | ok x =>
      have last := next x t sure.2
      simp only [Ensures] at last ⊢
      revert last
      cases (second x).perform t with
      | mk result u =>
        cases result with
        | ok => exact fun last => ⟨trans _ _ _ sure.1 last.1, last.2⟩
        | error => exact fun last => trans _ _ _ sure.1 last

/-- A refusal changes nothing. -/
theorem Ensures.guard [Decidable refused] {rest : PUnit → Action σ α} (e : Error)
    (stays : step s s) (next : ¬refused → Ensures step (rest ⟨⟩) s post) :
    Ensures step (if refused then do rest (← MonadExcept.throw e) else rest ⟨⟩) s post := by
  by_cases stop : refused
  · rw [if_pos stop, Ensures, perform_bind, perform_throw]
    exact stays
  · rw [if_neg stop]
    exact next stop

/-- A step on the first of two states leaves the second one alone. -/
theorem Ensures.onFirst (sure : Ensures step action s post) (t : τ) :
    Ensures (fun p q => step p.1 q.1) (action.onFirst (τ := τ)) (s, t)
      (fun x p => post x p.1 ∧ t = p.2) := by
  unfold Ensures at sure ⊢
  rw [perform_onFirst]
  revert sure
  cases action.perform s with
  | mk result u =>
    cases result with
    | ok => exact fun sure => ⟨sure.1, sure.2, rfl⟩
    | error => exact id

/-- A step on the second of two states leaves the first one alone. -/
theorem Ensures.onSecond (action : Action τ α) (s : σ) (t : τ) (stays : step s s) :
    Ensures (fun p q => step p.1 q.1) (action.onSecond (σ := σ)) (s, t) fun _ p => s = p.1 := by
  unfold Ensures
  rw [perform_onSecond]
  cases action.perform t with
  | mk result u =>
    cases result with
    | ok => exact ⟨stays, rfl⟩
    | error => exact stays

/-- Whatever a step on the first of two states does, the second one stays. -/
theorem Ensures.onFirst_keeps (action : Action σ α) (p : σ × τ) :
    Ensures (fun p q => q.2 = p.2) action.onFirst p fun _ _ => True := by
  unfold Ensures
  rw [perform_onFirst]
  cases action.perform p.1 with
  | mk result u =>
    cases result with
    | ok => exact ⟨rfl, trivial⟩
    | error => rfl

/-- If the step fails, the state after it is related to the one before it. -/
def Spares (step : σ → σ → Prop) (action : Action σ α) (s : σ) : Prop :=
  ∀ e t, action.perform s = (.error e, t) → step s t

/-- A refusal changes nothing. -/
theorem Spares.guard [Decidable refused] {rest : PUnit → Action σ α} (e : Error) (stays : step s s)
    (next : ¬refused → Spares step (rest ⟨⟩) s) :
    Spares step (if refused then do rest (← throw e) else rest ⟨⟩) s := by
  by_cases stop : refused
  · intro e' t failed
    rw [if_pos stop, perform_bind, perform_throw] at failed
    obtain ⟨-, rfl⟩ := Prod.mk.inj failed
    exact stays
  · rw [if_neg stop]
    exact next stop

/-- Where the first step is sure of the relation, only a failure of the second one counts. -/
theorem Spares.bind {middle : β → σ → Prop} {first : Action σ β} {second : β → Action σ α}
    (trans : ∀ a b c, step a b → step b c → step a c) (sure : Ensures step first s middle)
    (next : ∀ x t, Spares step (second x) t) : Spares step (first >>= second) s := by
  intro e u failed
  rw [perform_bind] at failed
  unfold Ensures at sure
  cases outcome : first.perform s with
  | mk result t =>
    rw [outcome] at failed sure
    cases result with
    | error =>
      obtain ⟨-, rfl⟩ := Prod.mk.inj failed
      exact sure
    | ok x => exact trans s t u sure.1 (next x t e u failed)

/-- A step after which nothing fails spares what it spares itself. -/
theorem Spares.last {first : Action σ β} {second : β → Action σ α}
    (spares : Spares step first s) (safe : ∀ x t, ∃ y u, (second x).perform t = (.ok y, u)) :
    Spares step (first >>= second) s := by
  intro e u failed
  rw [perform_bind] at failed
  cases outcome : first.perform s with
  | mk result t =>
    rw [outcome] at failed
    cases result with
    | error =>
      obtain ⟨-, rfl⟩ := Prod.mk.inj failed
      exact spares _ _ outcome
    | ok x =>
      obtain ⟨y, v, done⟩ := safe x t
      cases done.symm.trans failed

/-- A state that is to be replaced by a result stays where there is none. -/
theorem Spares.update (f : τ → Except Error τ) (p : σ × τ) :
    Spares (fun p q => q.2 = p.2) (Action.update f).onSecond p := by
  obtain ⟨s, t⟩ := p
  intro e q failed
  simp only [Action.update, perform_onSecond, perform_ofFunction] at failed
  cases outcome : f t with
  | ok => rw [outcome] at failed; cases failed
  | error =>
    rw [outcome] at failed
    obtain ⟨-, rfl⟩ := Prod.mk.inj failed
    rfl

end ObjectMapping.Action
