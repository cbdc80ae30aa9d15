import ObjectMapping.Sql.Term

/-! Reading terms from tokens, one token at a time. What has been begun and not ended
is kept on a stack; an operator ends every operand to its left that binds tighter
than it does or as tight. -/
namespace ObjectMapping.Sql

/-- Something begun that waits for the operand on its right. -/
inductive Frame where
  | paren
  | not
  | neg
  | binary (op : Operator) (left : Term)
  | cast
  /-- A function after some of its arguments. -/
  | call (name : String) (before : List Term)
  /-- A condition of a conditional, after the branches before it. -/
  | condition (before : List (Term × Term))
  | result (before : List (Term × Term)) (condition : Term)
  | otherwise (branches : List (Term × Term))

namespace Frame

/-- How tight the operand has to bind for the frame to take it. -/
def admits (level : Nat) : Frame → Prop
  | not => notLevel ≤ level
  | neg => signLevel ≤ level
  | binary op _ => op.level < level
  | _ => True

instance : Decidable (Frame.admits level f) := by
  unfold admits
  cases f <;> infer_instance

end Frame

/-- How far the reading of a term has come. -/
inductive Reading where
  /-- An operand has to follow. -/
  | expects (stack : List Frame)
  /-- An operand has just ended. -/
  | holds (stack : List Frame) (t : Term)
  /-- After the first part of a qualified name and its dot. -/
  | dot (stack : List Frame) (quote : Char) (table : String)
  /-- After the word that begins a conditional. -/
  | caseWord (stack : List Frame)
  /-- After the word that begins a conversion. -/
  | castWord (stack : List Frame)
  /-- Inside the type of a conversion, with some parentheses open. -/
  | type (stack : List Frame) (operand : Term) (before : List Token) (depth : Nat)
    (inside : ∀ more, closes 0 (before ++ more) = closes depth more)

/-- Whether the top of the stack takes an operand of the level. -/
def ready (stack : List Frame) (level : Nat) : Prop := ∀ f ∈ stack.head?, f.admits level

instance : Decidable (ready stack level) := by
  unfold ready
  cases stack <;> simp only [List.head?_nil, List.head?_cons, Option.mem_def] <;> infer_instance

/-- End what binds at least as tight as the level. -/
def reduce (level : Nat) : List Frame → Term → List Frame × Term
  | .neg :: rest, t => if level ≤ signLevel then reduce level rest (.neg t) else (.neg :: rest, t)
  | .not :: rest, t => if level ≤ notLevel then reduce level rest (.not t) else (.not :: rest, t)
  | .binary op left :: rest, t =>
    if level ≤ op.level then reduce level rest (.binary op left t)
    else (.binary op left :: rest, t)
  | stack, t => (stack, t)

namespace Reading

/-- Read `NOT` where an operand has to follow; right after `IS` it is part of that. -/
def beginNot : List Frame → Option Reading
  | .binary .is left :: rest => some (expects (.binary .isNot left :: rest))
  | stack => if ready stack notLevel then some (expects (.not :: stack)) else none

/-- Read a word where an operand has to follow. -/
def beginWord (stack : List Frame) (text : String) : Option Reading :=
  if text = "NOT" then beginNot stack
  else if text = "CASE" then some (caseWord stack)
  else if text = "CAST" then some (castWord stack)
  else if text ∈ keywords then none
  else some (.holds stack (.atom (.word text)))

/-- Read a token where an operand has to follow. -/
def begin (stack : List Frame) : Token → Option Reading
  | .number text => some (.holds stack (.atom (.number text)))
  | .quoted quote text => some (.holds stack (.atom (.quoted quote text)))
  | .word text => beginWord stack text
  | .sign "(" => some (expects (.paren :: stack))
  | .sign "-" => some (expects (.neg :: stack))
  | .sign ")" =>
    match stack with
    | .call name [] :: rest => some (.holds rest (.call name []))
    | _ => none
  | _ => none

/-- Read a token that ends all that was begun since a frame that is no operator. -/
def close (stack : List Frame) (t : Term) : Token → Option Reading
  | .sign ")" =>
    match stack with
    | .paren :: rest => some (.holds rest (.paren t))
    | .call name before :: rest => some (.holds rest (.call name (before ++ [t])))
    | _ => none
  | .sign "," =>
    match stack with
    | .call name before :: rest => some (expects (.call name (before ++ [t]) :: rest))
    | _ => none
  | .word "AS" =>
    match stack with
    | .cast :: rest => some (type rest t [] 0 fun _ => rfl)
    | _ => none
  | .word "THEN" =>
    match stack with
    | .condition before :: rest => some (expects (.result before t :: rest))
    | _ => none
  | .word "WHEN" =>
    match stack with
    | .result before condition :: rest =>
      some (expects (.condition (before ++ [(condition, t)]) :: rest))
    | _ => none
  | .word "ELSE" =>
    match stack with
    | .result before condition :: rest =>
      some (expects (.otherwise (before ++ [(condition, t)]) :: rest))
    | _ => none
  | .word "END" =>
    match stack with
    | .result before condition :: rest =>
      some (.holds rest (.conditional (before ++ [(condition, t)]) none))
    | .otherwise branches :: rest => some (.holds rest (.conditional branches (some t)))
    | _ => none
  | _ => none

/-- Read a token after an operand. -/
def extend (stack : List Frame) (t : Term) (token : Token) : Option Reading :=
  match Operator.ofToken? token with
  | some op =>
    let (stack, left) := reduce op.level stack t
    some (expects (.binary op left :: stack))
  | none =>
    match t, token with
    | .atom (.word text), .sign "(" =>
      if isFree text then some (expects (.call text [] :: stack)) else none
    | .atom (.word introducer), .quoted '\'' text =>
      if isFree introducer then some (.holds stack (.atom (.prefixed introducer text))) else none
    | .atom (.quoted quote table), .sign "." =>
      if quote ≠ '\'' then some (dot stack quote table) else none
    | t, token =>
      let (stack, t) := reduce 0 stack t
      close stack t token

/-- Read a token inside a type. -/
def stepType (stack : List Frame) (operand : Term) (before : List Token) (depth : Nat)
    (inside : ∀ more, closes 0 (before ++ more) = closes depth more) (token : Token) : Reading :=
  if opens : token = .sign "(" then
    type stack operand (before ++ [token]) (depth + 1) fun more => by
      rw [List.append_assoc, inside, List.singleton_append, closes, if_pos opens]
  else if ends : token = .sign ")" then
    match depth with
    | 0 => .holds stack (.cast operand ⟨before, by simpa [closes] using inside []⟩)
    | depth + 1 =>
      type stack operand (before ++ [token]) depth fun more => by
        rw [List.append_assoc, inside, List.singleton_append, closes, if_neg opens, if_pos ends]
        simp
  else
    type stack operand (before ++ [token]) depth fun more => by
      rw [List.append_assoc, inside, List.singleton_append, closes, if_neg opens, if_neg ends]

/-- Read a token. -/
def step (reading : Reading) (token : Token) : Option Reading :=
  match reading with
  | expects stack => begin stack token
  | .holds stack t => extend stack t token
  | dot stack quote table =>
    match token with
    | .quoted q column =>
      if q = quote then some (.holds stack (.atom (.qualified quote table column))) else none
    | _ => none
  | caseWord stack => if token = .word "WHEN" then some (expects (.condition [] :: stack)) else none
  | castWord stack => if token = .sign "(" then some (expects (.cast :: stack)) else none
  | type stack operand before depth inside =>
    some (stepType stack operand before depth inside token)

/-- Read tokens one after the other. -/
def run (reading : Reading) (tokens : List Token) : Option Reading := tokens.foldlM step reading

/-- The term that ends with the tokens, if everything begun has ended. -/
def finish : Reading → Option Term
  | .holds stack t =>
    match reduce 0 stack t with
    | ([], t) => some t
    | _ => none
  | _ => none

end Reading

/-- The term that tokens are read as. -/
def parse (tokens : List Token) : Option Term := ((Reading.expects []).run tokens).bind Reading.finish

end ObjectMapping.Sql
