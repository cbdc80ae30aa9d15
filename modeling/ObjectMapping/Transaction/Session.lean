import ObjectMapping.Transaction

/-! The life of a transaction as a sequence of requests in any order and on any
handles. A request that fails does not end the life; dropping the transaction does. -/
namespace ObjectMapping

/-- A request to a transaction. A fetch and the reading of a generated key write
into a record of the caller. -/
inductive Request where
  | start
  | commit
  | rollback
  | create (kind : StatementKind) (sql : String)
  | bindParameters (handle : Handle) (params : List Value)
  | prepare (handle : Handle)
  | execute (handle : Handle)
  | fetchNext (handle : Handle) (descriptor : Descriptor) (target : Record)
  | readGeneratedKey (handle : Handle) (descriptor : Descriptor) (target : Record)
  | close (handle : Handle)

/-- What a request that succeeded answers. -/
inductive Reply where
  | done
  | opened (handle : Handle)
  | affected (rows : Nat)
  /-- Whether there was something to write into the record, and the record afterwards. -/
  | wrote (found : Bool) (target : Record)

namespace Transaction

variable {σ ι : Type}

/-- A step that works on a record of the caller, which is handed back. -/
def withTarget (target : Record) (act : Action (Transaction σ ι × Record) Bool) :
    Action (Transaction σ ι) Reply :=
  .ofFunction fun tx =>
    let (result, tx, target) := act.perform (tx, target)
    (result.map (.wrote · target), tx)

/-- Answer a request. -/
def answer (c : Connector σ ι) : Request → Action (Transaction σ ι) Reply
  | .start => do start c; return .done
  | .commit => do commit c; return .done
  | .rollback => do rollback c; return .done
  | .create kind sql => do return .opened (← create c kind sql)
  | .bindParameters h params => do bindParameters h params; return .done
  | .prepare h => do prepare c h; return .done
  | .execute h => do return .affected (← execute c h)
  | .fetchNext h d target => withTarget target (fetchNext c h d)
  | .readGeneratedKey h d target => withTarget target (readGeneratedKey c h d)
  | .close h => do close c h; return .done

/-- The transaction after requests, whatever became of each of them. -/
def after (tx : Transaction σ ι) (c : Connector σ ι) (requests : List Request) :
    Transaction σ ι :=
  requests.foldl (fun tx q => ((answer c q).perform tx).2) tx

end Transaction

end ObjectMapping
