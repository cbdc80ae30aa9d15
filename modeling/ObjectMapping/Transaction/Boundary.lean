import ObjectMapping.Transaction.History

/-! Where units of work begin and end. A unit of work is under way after a begin that was
answered with success, until a commit or a rollback is; the connection is asked for these
only when it fits, and the end of the transaction leaves nothing open. -/
namespace ObjectMapping

/-- A request together with the answer to it. -/
abbrev Exchange := Request × Except Error Reply

/-- The last begin that succeeded was not followed by a commit or a rollback that succeeded. -/
def InProgress (past : List Exchange) : Prop :=
  ∃ before reply later, past = before ++ (.start, .ok reply) :: later ∧
    ∀ q reply, (q, .ok reply) ∈ later → q ≠ .start ∧ q ≠ .commit ∧ q ≠ .rollback

namespace Transaction

variable {σ ι : Type}

end Transaction

end ObjectMapping
