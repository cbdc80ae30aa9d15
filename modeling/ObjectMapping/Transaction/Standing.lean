import ObjectMapping.Transaction.History

/-! What a failed request may leave behind. The flag, the open statements and their states
and parameters stay as they were, except that a fetch may fail after it has brought its own
statement further; no later fetch goes over that part of the way again. -/
namespace ObjectMapping

/-- The state that a statement reaches by calls: that of the last one which brought it on. -/
def StatementState.advanced (state : StatementState) (calls : List (Use × CallOutcome)) :
    StatementState :=
  calls.foldl (fun state call =>
    match call with
    | (.prepare, .succeeded) => .prepared
    | (.execute, .succeeded) => .executed
    | (.fetch, .exhausted) => .done
    | _ => state) state

namespace Request

/-- The handle of the statement that the request is about. -/
def handle? : Request → Option Handle
  | start | commit | rollback | create .. => none
  | bindParameters h _ | prepare h | execute h | fetchNext h .. | readGeneratedKey h .. | close h =>
    some h

/-- The handle of the statement whose rows the request fetches. -/
def fetched? : Request → Option Handle
  | fetchNext h .. => some h
  | _ => none

end Request

namespace Transaction

variable {σ ι : Type}

/-- The handles of the open statements. -/
def openHandles (tx : Transaction σ ι) : List Handle := tx.statements.map (·.1)

/-- The state and the parameters of an open statement. -/
def standing (tx : Transaction σ ι) (h : Handle) : Option (StatementState × List Value) :=
  (tx.statements.lookup h).map fun s => (s.state, s.params)

/-- What a request that failed has left of the transaction before it. -/
structure Unharmed (c : Connector σ ι) (q : Request) (tx next : Transaction σ ι) : Prop where
  active : next.active = tx.active
  handles : next.openHandles = tx.openHandles
  standing : ∀ h, q.fetched? ≠ some h → next.standing h = tx.standing h
  /-- The statement whose rows were to be fetched is as far as the last step that succeeded. -/
  progress : ∀ h, q.fetched? = some h →
    next.standing h = (tx.standing h).map fun (state, params) =>
      (state.advanced (received h (entered tx next)), params)
  /-- Fetching again neither prepares nor executes what has been prepared or executed. -/
  retry : ∀ h state params, q.fetched? = some h → next.standing h = some (state, params) →
    ∀ retries : List Request, (∀ r ∈ retries, r.fetched? = some h) →
      (StatementState.prepared.rank ≤ state.rank →
        ∀ o, (.prepare, o) ∉ received h (history c next retries)) ∧
      (StatementState.executed.rank ≤ state.rank →
        ∀ o, (.execute, o) ∉ received h (history c next retries))

/-- What a request, successful or not, has left of the statements that it is not about. -/
structure Apart (q : Request) (tx next : Transaction σ ι) : Prop where
  others : ∀ h, q.handle? = some h →
    ∀ k ≠ h, next.statements.lookup k = tx.statements.lookup k
  all : q.handle? = none →
    ∀ k s, tx.statements.lookup k = some s → next.statements.lookup k = some s

end Transaction

end ObjectMapping
