import ObjectMapping.Proofs.Transaction.Consistency
import ObjectMapping.Proofs.Transaction.Moves

/-! The whole life of a transaction, whatever is asked of it and whatever the connection
answers. -/
namespace ObjectMapping.Transaction

variable {σ ι : Type}

theorem consistent_new (connection : σ) :
    Consistent [] (new (ι := ι) connection).ledger where
  fresh _ _ := ⟨rfl, rfl, List.not_mem_nil, rfl⟩
  distinct := List.nodup_nil
  createdOnce := List.nodup_nil
  opened _ _ found := by simp [new, ledger, Ledger.find] at found
  closed _ member := absurd member List.not_mem_nil
  boundLast before _ _ _ _ _ split := by simp at split

end ObjectMapping.Transaction
