import ObjectMapping.Sql.Parse

/-! Reading finds every term whose operands bind tight enough. The stack then holds
part of the term, which the next token brings to its end; so the operand that the
reading holds need not be the term itself, but ends as the term does. -/
namespace ObjectMapping.Sql

theorem ready_mono (top : ready stack level) (le : level ≤ other) : ready stack other := by
  intro f member
  have admits := top f member
  cases f <;> simp only [Frame.admits] at admits ⊢ <;> omega

/-- What takes an operand of the level of an operator is not ended by it. -/
theorem reduce_stop (top : ready stack level) (other : level ≠ notLevel) (loose : level < signLevel)
    (t : Term) : reduce level stack t = (stack, t) := by
  cases stack with
  | nil => rfl
  | cons f rest =>
    have admits := top f rfl
    cases f with
    | not =>
      have apart : ¬ level ≤ notLevel := by
        simp only [Frame.admits] at admits
        omega
      simp [reduce, apart]
    | neg => exact absurd admits (Nat.not_le.mpr loose)
    | binary op left =>
      have apart : ¬ level ≤ op.level := Nat.not_le.mpr admits
      simp [reduce, apart]
    | _ => rfl

theorem Operator.level_ne_notLevel (op : Operator) : op.level ≠ notLevel := by
  cases op <;> decide

theorem Operator.level_lt_signLevel (op : Operator) : op.level < signLevel := by
  cases op <;> decide

namespace Reading

theorem run_append (r : Reading) (first second : List Token) :
    r.run (first ++ second) = (r.run first).bind (·.run second) := by
  simp only [run, List.foldlM_append]
  rfl

theorem run_cons (r : Reading) (t : Token) (rest : List Token) :
    r.run (t :: rest) = (r.step t).bind (·.run rest) := rfl

/-- The tokens that end everything since a frame that is no operator. -/
def closers : List Token :=
  [.sign ")", .sign ",", .word "AS", .word "THEN", .word "WHEN", .word "ELSE", .word "END"]

theorem extend_closer (closer : token ∈ closers) (stack : List Frame) (t : Term) :
    extend stack t token = close (reduce 0 stack t).1 (reduce 0 stack t).2 token := by
  have plain : Operator.ofToken? token = none := by
    revert token
    decide
  unfold extend
  rw [plain]
  simp only
  split
  · exact absurd closer (by decide)
  · simp [closers] at closer
  · exact absurd closer (by decide)
  · rfl

theorem extend_operator (op : Operator) (other : op ≠ .isNot) (stack : List Frame) (t : Term) :
    extend stack t op.token =
      some (expects (.binary op (reduce op.level stack t).2 :: (reduce op.level stack t).1)) := by
  cases op with
  | isNot => exact absurd rfl other
  | _ => rfl

end Reading

/-- The tokens take the reading to an operand that ends as the term does. -/
def Reads (stack : List Frame) (ts : List Token) (t : Term) : Prop :=
  ∃ stack' u, (Reading.expects stack).run ts = some (.holds stack' u) ∧
    ∀ level ≤ t.level, reduce level stack' u = reduce level stack t

namespace Reads

/-- A term that is an operand as it stands. -/
theorem operand (run : (Reading.expects stack).run ts = some (.holds stack t)) :
    Reads stack ts t :=
  ⟨stack, t, run, fun _ _ => rfl⟩

/-- What follows an operand in a frame that is no operator sees the operand itself. -/
theorem close (reads : Reads (f :: stack) ts t) (barrier : f.admits 0)
    (closer : token ∈ Reading.closers) :
    ∃ r, (Reading.expects (f :: stack)).run ts = some r ∧
      r.step token = Reading.close (f :: stack) t token := by
  obtain ⟨stack', u, run, same⟩ := reads
  have top : ready (f :: stack) 0 := by
    intro g member
    obtain rfl : f = g := by simpa using member
    exact barrier
  refine ⟨_, run, ?_⟩
  rw [Reading.step, Reading.extend_closer closer, same 0 (Nat.zero_le _),
    reduce_stop top (by decide) (by decide)]

/-- The operand and the token after it, read from what comes before both. -/
theorem run_close (reads : Reads (f :: stack) ts t) (barrier : f.admits 0)
    (closer : token ∈ Reading.closers) (rest : List Token) :
    (Reading.expects (f :: stack)).run (ts ++ token :: rest) =
      (Reading.close (f :: stack) t token).bind (·.run rest) := by
  obtain ⟨r, run, step⟩ := reads.close barrier closer
  rw [Reading.run_append, run, Option.bind_some, Reading.run_cons, step]

theorem not (reads : Reads (.not :: stack) ts t) (top : ready stack notLevel)
    (tight : notLevel ≤ t.level) : Reads stack (.word "NOT" :: ts) (.not t) := by
  obtain ⟨stack', u, run, same⟩ := reads
  have begun : Reading.begin stack (.word "NOT") = some (.expects (.not :: stack)) := by
    rw [Reading.begin, Reading.beginWord, if_pos rfl]
    unfold Reading.beginNot
    split
    · exact absurd (show Operator.is.level < notLevel from top _ rfl) (by decide)
    · exact if_pos top
  refine ⟨stack', u, ?_, ?_⟩
  · rw [Reading.run_cons, Reading.step, begun]
    exact run
  · intro level (le : level ≤ notLevel)
    rw [same level (Nat.le_trans le tight), reduce, if_pos le]

theorem neg (reads : Reads (.neg :: stack) ts t) (tight : signLevel ≤ t.level) :
    Reads stack (.sign "-" :: ts) (.neg t) := by
  obtain ⟨stack', u, run, same⟩ := reads
  refine ⟨stack', u, run, ?_⟩
  intro level (le : level ≤ signLevel)
  rw [same level (Nat.le_trans le tight), reduce, if_pos le]

/-- The second word of an operator is read as part of it. -/
private theorem run_operator (op : Operator) (stack : List Frame) (t : Term) (rest : List Token) :
    (Reading.holds stack t).run (op.tokens ++ rest) =
      (Reading.expects (.binary op (reduce op.level stack t).2 ::
        (reduce op.level stack t).1)).run rest := by
  cases op with
  | isNot =>
    rw [Operator.tokens, List.cons_append, Reading.run_cons, Reading.step]
    have is := Reading.extend_operator .is (by decide) stack t
    rw [show Operator.is.token = .word "IS" from rfl] at is
    rw [is]
    rfl
  | _ =>
    rw [Operator.tokens, List.singleton_append, Reading.run_cons, Reading.step,
      Reading.extend_operator _ (by decide)]
    · rfl
    · intro same
      cases same

theorem binary (op : Operator) (first : Reads stack before l)
    (second : Reads (.binary op l :: stack) after r) (top : ready stack op.level)
    (left : op.level ≤ l.level) (right : op.level < r.level) :
    Reads stack (before ++ (op.tokens ++ after)) (.binary op l r) := by
  obtain ⟨stack₁, u, run₁, same₁⟩ := first
  obtain ⟨stack₂, v, run₂, same₂⟩ := second
  have stop := reduce_stop top op.level_ne_notLevel op.level_lt_signLevel l
  refine ⟨stack₂, v, ?_, ?_⟩
  · rw [Reading.run_append, run₁, Option.bind_some, run_operator, same₁ _ left, stop]
    exact run₂
  · intro level (le : level ≤ op.level)
    rw [same₂ level (by omega), reduce, if_pos le]

end Reads

namespace Reading

theorem begin_word (stack : List Frame) (text : String) (other : text ∉ keywords) :
    begin stack (.word text) = some (.holds stack (.atom (.word text))) := by
  have apart : ∀ word ∈ keywords, text ≠ word := by
    rintro word member rfl
    exact other member
  rw [begin, beginWord, if_neg (apart "NOT" (by decide)), if_neg (apart "CASE" (by decide)),
    if_neg (apart "CAST" (by decide)), if_neg other]

theorem run_type (stack : List Frame) (operand : Term) (before type rest : List Token)
    (depth : Nat) (inside : ∀ more, closes 0 (before ++ more) = closes depth more)
    (closed : closes depth type) :
    (Reading.type stack operand before depth inside).run (type ++ .sign ")" :: rest) =
      (Reading.holds stack
        (.cast operand ⟨before ++ type, (inside type).trans closed⟩)).run rest := by
  induction type generalizing before depth with
  | nil =>
    obtain rfl : depth = 0 := by simpa [closes] using closed
    simp [run_cons, step, stepType]
  | cons t type ih =>
    rw [List.cons_append, run_cons, step, Option.bind_some]
    rw [closes] at closed
    unfold stepType
    split
    · rename_i opens
      rw [if_pos opens] at closed
      simpa using ih (before ++ [t]) _ _ closed
    · rename_i opens
      rw [if_neg opens] at closed
      split
      · rename_i ends
        rw [if_pos ends] at closed
        cases depth with
        | zero => simp at closed
        | succ depth => simpa using ih (before ++ [t]) _ _ (by simpa using closed)
      · rename_i ends
        rw [if_neg ends] at closed
        simpa using ih (before ++ [t]) _ _ closed

end Reading

theorem isFree_iff (word : String) : isFree word ↔ word ∉ keywords ∧ word ∉ constants := by
  simp [isFree]

namespace Reads

theorem atom (a : Atom) (fits : a.Fits) (stack : List Frame) : Reads stack a.tokens (.atom a) := by
  apply operand
  cases a with
  | number text => rfl
  | quoted quote text => rfl
  | word text => rw [Atom.tokens, Reading.run_cons, Reading.step, Reading.begin_word _ _ fits]; rfl
  | prefixed introducer text =>
    have free := (isFree_iff introducer).mp fits
    have known : isFree introducer := fits
    rw [Atom.tokens, Reading.run_cons, Reading.step, Reading.begin_word _ _ free.1,
      Option.bind_some, Reading.run_cons, Reading.step]
    change (if isFree introducer then _ else _ : Option Reading).bind _ = _
    rw [if_pos known]
    rfl
  | qualified quote table column =>
    have other : quote ≠ '\'' := fits
    rw [Atom.tokens, Reading.run_cons, Reading.step, Reading.begin, Option.bind_some,
      Reading.run_cons, Reading.step]
    change (if quote ≠ '\'' then _ else _ : Option Reading).bind _ = _
    rw [if_pos other]
    simp [Reading.run_cons, Reading.step]
    rfl

/-- The parenthesis after the name of a function opens its arguments. -/
private theorem run_call (free : isFree name) (stack : List Frame) (rest : List Token) :
    (Reading.expects stack).run (.word name :: .sign "(" :: rest) =
      (Reading.expects (.call name [] :: stack)).run rest := by
  rw [Reading.run_cons, Reading.step, Reading.begin_word _ _ ((isFree_iff name).mp free).1,
    Option.bind_some, Reading.run_cons, Reading.step]
  change (if isFree name then _ else _ : Option Reading).bind _ = _
  rw [if_pos free]
  rfl

end Reads

mutual

theorem reads (t : Term) (fits : t.Fits) (stack : List Frame) (top : ready stack t.level) :
    Reads stack t.fringe t := by
  cases t with
  | atom a => exact .atom a fits stack
  | paren inner =>
    apply Reads.operand
    have begun : ready (.paren :: stack) inner.level := by rintro _ ⟨⟩; trivial
    have within := reads inner fits (.paren :: stack) begun
    rw [Term.fringe, Reading.run_cons]
    exact within.run_close trivial (by decide) []
  | not operand =>
    obtain ⟨fits, tight⟩ := fits
    have begun : ready (.not :: stack) operand.level := by rintro _ ⟨⟩; exact tight
    exact (reads operand fits (.not :: stack) begun).not top tight
  | neg operand =>
    obtain ⟨fits, tight⟩ := fits
    have begun : ready (.neg :: stack) operand.level := by rintro _ ⟨⟩; exact tight
    exact (reads operand fits (.neg :: stack) begun).neg tight
  | binary op left right =>
    obtain ⟨fitsLeft, fitsRight, loose, tight⟩ := fits
    have begun : ready (.binary op left :: stack) right.level := by rintro _ ⟨⟩; exact tight
    exact (reads left fitsLeft stack (ready_mono top loose)).binary op
      (reads right fitsRight _ begun) top loose tight
  | cast operand type =>
    apply Reads.operand
    have begun : ready (.cast :: stack) operand.level := by rintro _ ⟨⟩; trivial
    have within := reads operand fits (.cast :: stack) begun
    rw [Term.fringe, Reading.run_cons]
    refine (within.run_close trivial (by decide) _).trans ?_
    exact Reading.run_type stack operand [] type.tokens [] 0 _ type.closed
  | call name args =>
    apply Reads.operand
    obtain ⟨free, fits⟩ := fits
    rw [Term.fringe, Reads.run_call free]
    cases args with
    | nil => rfl
    | cons t rest => exact readsList (t :: rest) (by simp) fits name [] stack
  | conditional branches otherwise =>
    apply Reads.operand
    obtain ⟨some, fits, fitsElse⟩ := fits
    rw [Term.fringe, Reading.run_cons]
    obtain ⟨before, condition, result, whole, run⟩ :=
      readsBranches branches some fits [] (.caseWord stack) stack rfl
    have whole : before ++ [(condition, result)] = branches := whole
    cases otherwise with
    | none =>
      refine (run (.word "END") (by decide) []).trans ?_
      simp [Reading.close, Reading.run, whole]
    | some t =>
      refine (run (.word "ELSE") (by decide) _).trans ?_
      have begun : ready (.otherwise branches :: stack) t.level := by rintro _ ⟨⟩; trivial
      have within := reads t fitsElse (.otherwise branches :: stack) begun
      rw [Reading.close, Option.bind_some, whole]
      exact within.run_close trivial (by decide) []

theorem readsList (args : List Term) (some : args ≠ []) (fits : Term.FitsList args) (name : String)
    (before : List Term) (stack : List Frame) :
    (Reading.expects (.call name before :: stack)).run (Term.fringeList args ++ [.sign ")"]) =
      .some (.holds stack (.call name (before ++ args))) := by
  cases args with
  | nil => exact absurd rfl some
  | cons t rest =>
    obtain ⟨fit, fits⟩ := fits
    have begun : ready (.call name before :: stack) t.level := by rintro _ ⟨⟩; trivial
    have within := reads t fit (.call name before :: stack) begun
    cases rest with
    | nil => exact within.run_close trivial (by decide) []
    | cons u rest =>
      rw [Term.fringeList, List.append_assoc, List.cons_append]
      refine (within.run_close trivial (by decide) _).trans ?_
      have more := readsList (u :: rest) (by simp) fits name (before ++ [t]) stack
      rw [List.append_assoc] at more
      exact more

/-- The last result is not ended before the token after the branches tells how. -/
theorem readsBranches (branches : List (Term × Term)) (some : branches ≠ [])
    (fits : Term.FitsBranches branches) (before : List (Term × Term)) (r : Reading)
    (stack : List Frame) (start : r.step (.word "WHEN") = .some (.expects (.condition before :: stack))) :
    ∃ done condition result, done ++ [(condition, result)] = before ++ branches ∧
      ∀ token ∈ Reading.closers, ∀ rest,
        r.run (Term.fringeBranches branches ++ token :: rest) =
          (Reading.close (.result done condition :: stack) result token).bind (·.run rest) := by
  cases branches with
  | nil => exact absurd rfl some
  | cons branch more =>
    obtain ⟨condition, result⟩ := branch
    obtain ⟨fitsCondition, fitsResult, fits⟩ := fits
    have begun : ready (.condition before :: stack) condition.level := by rintro _ ⟨⟩; trivial
    have first := reads condition fitsCondition (.condition before :: stack) begun
    have begun : ready (.result before condition :: stack) result.level := by rintro _ ⟨⟩; trivial
    have second := reads result fitsResult (.result before condition :: stack) begun
    have run : ∀ rest, r.run (.word "WHEN" :: (condition.fringe ++ .word "THEN" :: rest)) =
        (Reading.expects (.result before condition :: stack)).run rest := by
      intro rest
      rw [Reading.run_cons, start, Option.bind_some, first.run_close trivial (by decide)]
      rfl
    cases more with
    | nil =>
      refine ⟨before, condition, result, rfl, ?_⟩
      intro token closer rest
      simp only [Term.fringeBranches, List.append_nil, List.cons_append, List.append_assoc]
      rw [run, second.run_close trivial closer]
    | cons next more =>
      have closer : .word "WHEN" ∈ Reading.closers := by decide
      obtain ⟨r', ran, step⟩ := second.close trivial closer
      obtain ⟨done, condition', result', whole, run'⟩ :=
        readsBranches (next :: more) (by simp) fits (before ++ [(condition, result)]) r' stack step
      refine ⟨done, condition', result', by simpa using whole, ?_⟩
      intro token closer rest
      rw [Term.fringeBranches]
      simp only [List.cons_append, List.append_assoc]
      rw [run, Reading.run_append, ran, Option.bind_some, run' token closer rest]

end

/-- Reading finds every term that fits. -/
theorem parse_fringe (t : Term) (fits : t.Fits) : parse t.fringe = some t := by
  obtain ⟨stack, u, run, same⟩ := reads t fits [] (by rintro _ ⟨⟩)
  rw [parse, run, Option.bind_some, Reading.finish, same 0 (Nat.zero_le _)]
  rfl

end ObjectMapping.Sql
