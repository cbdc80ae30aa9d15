import ObjectMapping.Transaction.History

/-! The states that a transaction comes to. Requests may come in any order, and between two of
them a program may work on the connection itself, after which it is in any state. -/
namespace ObjectMapping.Transaction

variable {σ ι : Type}

/-- The handle that is given back by a request that succeeded. -/
def givenBack : Request → Except Error Reply → List Handle
  | .close h, .ok _ => [h]
  | _, _ => []

/-- The transaction comes to a state; on the way it has handed out some handles, and some have
been closed. -/
inductive Reached (c : Connector σ ι) :
    Transaction σ ι → (issued closed : List Handle) → Prop where
  | new (connection : σ) : Reached c (new connection) [] []
  | answer (reached : Reached c tx issued closed) (q : Request) :
      Reached c ((answer c q).perform tx).2 (issued ++ handles ((answer c q).perform tx).1)
        (closed ++ givenBack q ((answer c q).perform tx).1)
  | reconnect (reached : Reached c tx issued closed) (connection : σ) :
      Reached c { tx with connection := connection } issued closed

/-- The handle refers to nothing: whatever is wanted of it is refused, and the transaction and
its connection are exactly as before. Nobody looks at the handle for the key of a record whose
type has none. -/
structure Refuses (c : Connector σ ι) (tx : Transaction σ ι) (h : Handle) : Prop where
  stateOf : (stateOf h).perform tx = (.error (unknownStatement h), tx)
  bindParameters : ∀ params, (bindParameters h params).perform tx = (.error (unknownStatement h), tx)
  prepare : (prepare c h).perform tx = (.error (unknownStatement h), tx)
  execute : (execute c h).perform tx = (.error (unknownStatement h), tx)
  fetchNext : ∀ d target, d.describes target →
    (fetchNext c h d).perform (tx, target) = (.error (unknownStatement h), tx, target)
  readGeneratedKey : ∀ d target, (readGeneratedKey c h d).perform (tx, target) =
    (if d.primaryKey?.isSome then .error (unknownStatement h) else .ok false, tx, target)
  close : (close c h).perform tx = (.error (unknownStatement h), tx)

end ObjectMapping.Transaction
