import ObjectMapping.Transaction.History

/-! Running a statement leaves a transaction as it was. What was opened on the way has been
closed, and the connection has released it. -/
namespace ObjectMapping

/-- How often the connection was made to release the statement of a handle. -/
def releases (h : Handle) (events : List Event) : Nat :=
  (received h events).countP (·.1 = .release)

namespace Transaction

variable {σ ι : Type}

/-- A transaction has come to a state in which the same statements are open, each as it was. -/
structure Tidy (c : Connector σ ι) (tx next : Transaction σ ι) : Prop where
  /-- It came there by requests. -/
  conducted : ∃ requests, next = tx.after c requests
  active : next.active = tx.active
  statements : next.statements = tx.statements
  /-- Each statement that the connection created meanwhile was released once, and no other. -/
  released : ∀ h, releases h (entered tx next) = if h ∈ created (entered tx next) then 1 else 0

end Transaction

end ObjectMapping
