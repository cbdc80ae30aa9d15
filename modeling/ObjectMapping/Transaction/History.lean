import ObjectMapping.Transaction.Session

/-! What can be observed of a transaction from the outside: which parameters were
bound, which calls the connection received, and how they ended, all in one order. -/
namespace ObjectMapping

/-- Something that happened in a transaction. -/
inductive Event where
  /-- Parameters were supplied for a statement. -/
  | bound (handle : Handle) (params : List Value)
  /-- The connection received a call. -/
  | called (entry : JournalEntry)

/-- What a connection can be asked to do with an open statement. -/
inductive Use where
  | prepare
  | execute
  | fetch
  | lastInsertId
  | release
  deriving DecidableEq

/-- What the call does with a statement, if it is about the one of the handle. -/
def Call.use? (h : Handle) : Call → Option Use
  | .prepare k _ => if k = h then some .prepare else none
  | .execute k _ _ => if k = h then some .execute else none
  | .fetch k _ => if k = h then some .fetch else none
  | .lastInsertId k _ => if k = h then some .lastInsertId else none
  | .release k _ => if k = h then some .release else none
  | _ => none

namespace Event

/-- The call among the events that the connection received. -/
def entry? : Event → Option JournalEntry
  | bound _ _ => none
  | called entry => some entry

/-- What happened to the statement of a handle, as its connection saw it. -/
def received? (h : Handle) : Event → Option (Use × CallOutcome)
  | bound _ _ => none
  | called entry => (entry.call.use? h).map (·, entry.outcome)

/-- The handle of a statement that the connection created. -/
def created? : Event → Option Handle
  | called ⟨.create h _, .succeeded⟩ => some h
  | _ => none

/-- The parameters that were supplied for a statement. -/
def bound? (h : Handle) : Event → Option (List Value)
  | bound k params => if k = h then some params else none
  | called _ => none

end Event

/-- The calls that a statement received, with their outcomes. -/
def received (h : Handle) (events : List Event) : List (Use × CallOutcome) :=
  events.filterMap (Event.received? h)

theorem received_append (h : Handle) (before later : List Event) :
    received h (before ++ later) = received h before ++ received h later :=
  List.filterMap_append

/-- The statements that the connection created, in order. -/
def created (events : List Event) : List Handle := events.filterMap Event.created?

theorem created_append (before later : List Event) :
    created (before ++ later) = created before ++ created later :=
  List.filterMap_append

/-- The parameters that were supplied last for a statement; none when there were none. -/
def lastBound (h : Handle) (events : List Event) : List Value :=
  ((events.filterMap (Event.bound? h)).getLast?).getD []

/-- A call may come after another one, unless it fetches where the other found no row. -/
def MayFollow (earlier later : Use × CallOutcome) : Prop :=
  earlier = (.fetch, .exhausted) → later.1 ≠ .fetch

/-- The calls that one statement receives from its creation to its release: failed
attempts to prepare it; after one that succeeded, failed attempts to execute it;
after one that succeeded, fetches and questions for the generated key, with no
fetch after one that found no row. The release is the last call of all. -/
inductive Lifecycle : List (Use × CallOutcome) → Prop where
  | unprepared (refusals : Nat) :
      Lifecycle (List.replicate refusals (.prepare, .failed) ++ [(.release, .succeeded)])
  | unexecuted (refusals failures : Nat) :
      Lifecycle (List.replicate refusals (.prepare, .failed) ++ (.prepare, .succeeded) ::
        List.replicate failures (.execute, .failed) ++ [(.release, .succeeded)])
  | executed (refusals failures : Nat) (uses : List (Use × CallOutcome))
      (reading : ∀ use ∈ uses, use.1 = .fetch ∨ use.1 = .lastInsertId)
      (ending : uses.Pairwise MayFollow) :
      Lifecycle (List.replicate refusals (.prepare, .failed) ++ (.prepare, .succeeded) ::
        List.replicate failures (.execute, .failed) ++ (.execute, .succeeded) :: uses ++
        [(.release, .succeeded)])

namespace Transaction

variable {σ ι : Type}

/-- The calls that were entered between two states of a transaction. -/
def entered (before after : Transaction σ ι) : List Event :=
  (after.journal.drop before.journal.length).map .called

/-- What a request makes happen, given its reply and the state that it leaves. -/
def happened (tx : Transaction σ ι) (q : Request) (reply : Except Error Reply)
    (next : Transaction σ ι) : List Event :=
  match q, reply with
  | .bindParameters h params, .ok _ => .bound h params :: entered tx next
  | _, _ => entered tx next

/-- What happens while requests are answered one after the other. -/
def history (c : Connector σ ι) (tx : Transaction σ ι) : List Request → List Event
  | [] => []
  | q :: rest =>
    let (reply, next) := (answer c q).perform tx
    happened tx q reply next ++ history c next rest

/-- The handle that a reply hands out, if it does. -/
def handles : Except Error Reply → List Handle
  | .ok (.opened h) => [h]
  | _ => []

end Transaction

end ObjectMapping
