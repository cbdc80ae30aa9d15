import ObjectMapping.Action
import ObjectMapping.Expr.Tree

/-! What writing an expression asks of the one who answers. Every answer may depend on all that was
asked before; the first refusal ends the asking. -/
namespace ObjectMapping.Expr

/-- The same answers, with a list of the nodes that were asked about. -/
def logged (answer : Head → Action σ String) (h : Head) : Action (σ × List Head) String := do
  modify fun (s, calls) => (s, calls ++ [h])
  (answer h).onFirst

/-- The nodes are answered one after the other by these texts, the first of them in the state `s`. -/
inductive Answered (answer : Head → Action σ String) : (s : σ) → List Head → List String → σ → Prop where
  | nil : Answered answer s [] [] s
  | cons (first : (answer h).perform s = (.ok text, t)) (rest : Answered answer t hs texts u) :
      Answered answer s (h :: hs) (text :: texts) u

/-- What becomes of asking about the nodes in order, and which of them are asked about. -/
inductive Consulted (answer : Head → Action σ String) (hs : List Head) (s : σ) :
    Except Error (List String) → σ → (calls : List Head) → Prop where
  | all (answered : Answered answer s hs texts t) : Consulted answer hs s (.ok texts) t hs
  | refused {h : Head} (before : List Head) (split : hs = before ++ h :: after)
      (earlier : Answered answer s before texts t) (fails : (answer h).perform t = (.error e, u)) :
      Consulted answer hs s (.error e) u (before ++ [h])

/-- The next of the texts that are left. -/
def next (_ : Head) : StateM (List String) String :=
  modifyGet fun
    | [] => ("", [])
    | text :: rest => (text, rest)

/-- The text of an expression whose nodes are answered by these texts, in order. -/
def assemble (e : Expr) (texts : List String) : String := ((e.render next).run texts).1

end ObjectMapping.Expr
