import ObjectMapping.Proofs.Sql.ParseComplete

/-! What reading finds has the tokens that were read, and its operands bind tight
enough. Together with completeness this makes reading exact, and the grammar
unambiguous. -/
namespace ObjectMapping.Sql

namespace Frame

/-- The tokens that the frame has taken. -/
def fringe : Frame → List Token
  | paren => [.sign "("]
  | not => [.word "NOT"]
  | neg => [.sign "-"]
  | binary op left => left.fringe ++ op.tokens
  | cast => [.word "CAST", .sign "("]
  | call name before =>
    .word name :: .sign "(" :: before.flatMap fun t => t.fringe ++ [.sign ","]
  | condition before => .word "CASE" :: (Term.fringeBranches before ++ [.word "WHEN"])
  | result before test =>
    .word "CASE" :: (Term.fringeBranches before ++
      .word "WHEN" :: (test.fringe ++ [.word "THEN"]))
  | otherwise branches => .word "CASE" :: (Term.fringeBranches branches ++ [.word "ELSE"])

/-- The level of the term that the frame will become. -/
def level : Frame → Nat
  | not => notLevel
  | neg => signLevel
  | binary op _ => op.level
  | _ => operandLevel

/-- Whether what the frame has taken fits. -/
def Fits : Frame → Prop
  | binary op left => left.Fits ∧ op.level ≤ left.level
  | call name before => isFree name ∧ Term.FitsList before
  | condition before => Term.FitsBranches before
  | result before test => Term.FitsBranches before ∧ test.Fits
  | otherwise branches => branches ≠ [] ∧ Term.FitsBranches branches
  | _ => True

end Frame

/-- The tokens that were taken by everything on the stack. -/
def stackFringe : List Frame → List Token
  | [] => []
  | f :: rest => stackFringe rest ++ f.fringe

/-- Whether everything on the stack fits into what is below it. -/
def StackFits : List Frame → Prop
  | [] => True
  | f :: rest => f.Fits ∧ ready rest f.level ∧ StackFits rest

namespace Reading

/-- The tokens that were read. -/
def fringe : Reading → List Token
  | expects stack => stackFringe stack
  | holds stack t => stackFringe stack ++ t.fringe
  | dot stack quote table => stackFringe stack ++ [.quoted quote table, .sign "."]
  | caseWord stack => stackFringe stack ++ [.word "CASE"]
  | castWord stack => stackFringe stack ++ [.word "CAST"]
  | type stack operand before _ _ =>
    stackFringe stack ++ .word "CAST" :: .sign "(" :: (operand.fringe ++ .word "AS" :: before)

/-- Whether what was read fits. -/
def Sound : Reading → Prop
  | expects stack => StackFits stack
  | holds stack t => StackFits stack ∧ t.Fits ∧ t.level = operandLevel
  | dot stack quote _ => StackFits stack ∧ quote ≠ '\''
  | caseWord stack => StackFits stack
  | castWord stack => StackFits stack
  | type stack operand _ _ _ => StackFits stack ∧ operand.Fits

end Reading

/-- Every stack takes a sign with its operand. -/
theorem ready_sign (stack : List Frame) : ready stack signLevel := by
  intro f _
  cases f with
  | binary op _ => exact op.level_lt_signLevel
  | not => exact (by decide : notLevel ≤ signLevel)
  | neg => exact Nat.le_refl _
  | _ => trivial

/-- Every stack takes an operand as it stands. -/
theorem ready_operand (stack : List Frame) : ready stack operandLevel :=
  ready_mono (ready_sign stack) (by decide)

theorem reduce_sound (stack : List Frame) (t : Term) (fits : StackFits stack) (fit : t.Fits)
    (top : ready stack t.level) (le : level ≤ t.level) (low : level ≤ signLevel) :
    StackFits (reduce level stack t).1 ∧ (reduce level stack t).2.Fits ∧
      level ≤ (reduce level stack t).2.level ∧ ready (reduce level stack t).1 level ∧
      stackFringe (reduce level stack t).1 ++ (reduce level stack t).2.fringe =
        stackFringe stack ++ t.fringe := by
  induction stack generalizing t with
  | nil => exact ⟨trivial, fit, le, (by rintro _ ⟨⟩), rfl⟩
  | cons f rest ih =>
    have admits : f.admits t.level := top f rfl
    obtain ⟨frame, below, fitsRest⟩ := fits
    cases f with
    | neg =>
      rw [reduce, if_pos low]
      simpa [stackFringe, Frame.fringe, Term.fringe] using
        ih (.neg t) fitsRest ⟨fit, admits⟩ below low
    | not =>
      rw [reduce]
      split
      · rename_i loose
        simpa [stackFringe, Frame.fringe, Term.fringe] using
          ih (.not t) fitsRest ⟨fit, admits⟩ below loose
      · rename_i tight
        refine ⟨⟨frame, below, fitsRest⟩, fit, le, ?_, rfl⟩
        rintro _ ⟨⟩
        exact Nat.le_of_not_le tight
    | binary op left =>
      rw [reduce]
      split
      · rename_i loose
        simpa [stackFringe, Frame.fringe, Term.fringe] using
          ih (.binary op left t) fitsRest ⟨frame.1, fit, frame.2, admits⟩ below loose
      · rename_i tight
        refine ⟨⟨frame, below, fitsRest⟩, fit, le, ?_, rfl⟩
        rintro _ ⟨⟩
        exact Nat.lt_of_not_le tight
    | _ =>
      refine ⟨⟨frame, below, fitsRest⟩, fit, le, ?_, rfl⟩
      rintro _ ⟨⟩
      trivial

theorem Operator.ofToken?_eq {t : Token} (found : Operator.ofToken? t = some op) :
    op.tokens = [t] := by
  have same : op.token = t := by simpa using List.find?_some found
  have member : op ∈ Operator.all := List.mem_of_find?_eq_some found
  cases op with
  | isNot => exact absurd member (by decide)
  | _ => exact same ▸ rfl

theorem Term.fitsList_append (before : List Term) (t : Term) (fits : FitsList before)
    (fit : t.Fits) : FitsList (before ++ [t]) := by
  induction before with
  | nil => exact ⟨fit, trivial⟩
  | cons u before ih => exact ⟨fits.1, ih fits.2⟩

theorem Term.fitsBranches_append (before : List (Term × Term)) (c t : Term)
    (fits : FitsBranches before) (condition : c.Fits) (result : t.Fits) :
    FitsBranches (before ++ [(c, t)]) := by
  induction before with
  | nil => exact ⟨condition, result, trivial⟩
  | cons branch before ih => exact ⟨fits.1, fits.2.1, ih fits.2.2⟩

theorem Term.fringeList_append (before : List Term) (t : Term) :
    fringeList (before ++ [t]) = (before.flatMap fun u => u.fringe ++ [.sign ","]) ++ t.fringe := by
  induction before with
  | nil => rfl
  | cons u before ih =>
    cases before with
    | nil => simp [fringeList]
    | cons v before =>
      simp only [List.cons_append, fringeList, List.flatMap_cons, List.append_assoc] at ih ⊢
      rw [ih]
      simp

theorem Term.fringeBranches_append (before : List (Term × Term)) (c t : Term) :
    fringeBranches (before ++ [(c, t)]) =
      fringeBranches before ++ .word "WHEN" :: (c.fringe ++ .word "THEN" :: t.fringe) := by
  induction before with
  | nil => simp [fringeBranches]
  | cons branch before ih => simp [fringeBranches, ih]

namespace Reading

/-- A token was read, and what was read fits. -/
structure Advances (before : List Token) (token : Token) (r : Reading) : Prop where
  sound : r.Sound
  fringe : r.fringe = before ++ [token]

private theorem beginWord_sound (fits : StackFits stack) (next : beginWord stack text = some r) :
    r.Advances (stackFringe stack) (.word text) := by
  unfold beginWord at next
  split at next
  · rename_i word
    subst word
    unfold beginNot at next
    split at next
    · obtain rfl := Option.some.inj next
      exact ⟨fits, by simp [fringe, stackFringe, Frame.fringe, Operator.tokens, Operator.token]⟩
    · split at next
      · rename_i top
        obtain rfl := Option.some.inj next
        exact ⟨⟨trivial, top, fits⟩, rfl⟩
      · cases next
  · split at next
    · rename_i word
      subst word
      obtain rfl := Option.some.inj next
      exact ⟨fits, rfl⟩
    · split at next
      · rename_i word
        subst word
        obtain rfl := Option.some.inj next
        exact ⟨fits, rfl⟩
      · split at next
        · cases next
        · rename_i other
          obtain rfl := Option.some.inj next
          exact ⟨⟨fits, other, rfl⟩, rfl⟩

private theorem begin_sound (fits : StackFits stack) (next : begin stack token = some r) :
    r.Advances (stackFringe stack) token := by
  unfold begin at next
  split at next
  · obtain rfl := Option.some.inj next
    exact ⟨⟨fits, trivial, rfl⟩, rfl⟩
  · obtain rfl := Option.some.inj next
    exact ⟨⟨fits, trivial, rfl⟩, rfl⟩
  · exact beginWord_sound fits next
  · obtain rfl := Option.some.inj next
    exact ⟨⟨trivial, ready_operand _, fits⟩, rfl⟩
  · obtain rfl := Option.some.inj next
    exact ⟨⟨trivial, ready_sign _, fits⟩, rfl⟩
  · split at next
    · obtain rfl := Option.some.inj next
      obtain ⟨⟨free, _⟩, _, fits⟩ := fits
      refine ⟨⟨fits, ⟨free, trivial⟩, rfl⟩, ?_⟩
      simp [fringe, stackFringe, Frame.fringe, Term.fringe, Term.fringeList]
    · cases next
  · cases next

private theorem close_sound (fits : StackFits stack) (fit : t.Fits)
    (next : close stack t token = some r) :
    r.Advances (stackFringe stack ++ t.fringe) token := by
  unfold close at next
  split at next
  · split at next
    · obtain rfl := Option.some.inj next
      obtain ⟨_, _, fits⟩ := fits
      refine ⟨⟨fits, fit, rfl⟩, ?_⟩
      simp [fringe, stackFringe, Frame.fringe, Term.fringe]
    · obtain rfl := Option.some.inj next
      obtain ⟨⟨free, before⟩, _, fits⟩ := fits
      refine ⟨⟨fits, ⟨free, Term.fitsList_append _ _ before fit⟩, rfl⟩, ?_⟩
      simp [fringe, stackFringe, Frame.fringe, Term.fringe, Term.fringeList_append]
    · cases next
  · split at next
    · obtain rfl := Option.some.inj next
      obtain ⟨⟨free, before⟩, top, fits⟩ := fits
      refine ⟨⟨⟨free, Term.fitsList_append _ _ before fit⟩, top, fits⟩, ?_⟩
      simp [fringe, stackFringe, Frame.fringe]
    · cases next
  · split at next
    · obtain rfl := Option.some.inj next
      obtain ⟨_, _, fits⟩ := fits
      refine ⟨⟨fits, fit⟩, ?_⟩
      simp [fringe, stackFringe, Frame.fringe]
    · cases next
  · split at next
    · obtain rfl := Option.some.inj next
      obtain ⟨before, top, fits⟩ := fits
      refine ⟨⟨⟨before, fit⟩, top, fits⟩, ?_⟩
      simp [fringe, stackFringe, Frame.fringe]
    · cases next
  · split at next
    · obtain rfl := Option.some.inj next
      obtain ⟨⟨before, test⟩, top, fits⟩ := fits
      refine ⟨⟨Term.fitsBranches_append _ _ _ before test fit, top, fits⟩, ?_⟩
      simp [fringe, stackFringe, Frame.fringe, Term.fringeBranches_append]
    · cases next
  · split at next
    · obtain rfl := Option.some.inj next
      obtain ⟨⟨before, test⟩, top, fits⟩ := fits
      refine ⟨⟨⟨by simp, Term.fitsBranches_append _ _ _ before test fit⟩, top, fits⟩, ?_⟩
      simp [fringe, stackFringe, Frame.fringe, Term.fringeBranches_append]
    · cases next
  · split at next
    · obtain rfl := Option.some.inj next
      obtain ⟨⟨before, test⟩, _, fits⟩ := fits
      refine ⟨⟨fits, ⟨by simp, Term.fitsBranches_append _ _ _ before test fit, trivial⟩, rfl⟩, ?_⟩
      simp [fringe, stackFringe, Frame.fringe, Term.fringe, Term.fringeElse,
        Term.fringeBranches_append]
    · obtain rfl := Option.some.inj next
      obtain ⟨⟨some, before⟩, _, fits⟩ := fits
      refine ⟨⟨fits, ⟨some, before, fit⟩, rfl⟩, ?_⟩
      simp [fringe, stackFringe, Frame.fringe, Term.fringe, Term.fringeElse]
    · cases next
  · cases next

private theorem extend_sound (fits : StackFits stack) (fit : t.Fits) (whole : t.level = operandLevel)
    (next : extend stack t token = some r) : r.Advances (stackFringe stack ++ t.fringe) token := by
  have top : ready stack t.level := whole ▸ ready_operand stack
  unfold extend at next
  split at next
  · rename_i op found
    have low : op.level ≤ signLevel := Nat.le_of_lt op.level_lt_signLevel
    have le : op.level ≤ t.level := by
      rw [whole]
      exact Nat.le_trans low (by decide)
    obtain ⟨below, left, tight, loose, taken⟩ := reduce_sound stack t fits fit top le low
    obtain rfl := Option.some.inj next
    refine ⟨⟨⟨left, tight⟩, loose, below⟩, ?_⟩
    rw [← taken]
    simp [fringe, stackFringe, Frame.fringe, Operator.ofToken?_eq found]
  · split at next
    · split at next
      · rename_i free
        obtain rfl := Option.some.inj next
        refine ⟨⟨⟨free, trivial⟩, ready_operand _, fits⟩, ?_⟩
        simp [fringe, stackFringe, Frame.fringe, Term.fringe, Atom.tokens]
      · cases next
    · split at next
      · rename_i free
        obtain rfl := Option.some.inj next
        refine ⟨⟨fits, free, rfl⟩, ?_⟩
        simp [fringe, Term.fringe, Atom.tokens]
      · cases next
    · split at next
      · rename_i other
        obtain rfl := Option.some.inj next
        refine ⟨⟨fits, other⟩, ?_⟩
        simp [fringe, Term.fringe, Atom.tokens]
      · cases next
    · obtain ⟨below, ended, _, _, taken⟩ :=
        reduce_sound stack t fits fit top (Nat.zero_le _) (Nat.zero_le _)
      exact taken ▸ close_sound below ended next

private theorem stepType_sound (fits : StackFits stack) (fit : operand.Fits)
    (inside : ∀ more, closes 0 (before ++ more) = closes depth more) (token : Token) :
    (stepType stack operand before depth inside token).Advances
      (type stack operand before depth inside).fringe token := by
  unfold stepType
  split
  · exact ⟨⟨fits, fit⟩, by simp [fringe]⟩
  · split
    · rename_i ends
      cases depth with
      | zero => exact ⟨⟨fits, fit, rfl⟩, by simp [fringe, Term.fringe, ends]⟩
      | succ depth => exact ⟨⟨fits, fit⟩, by simp [fringe]⟩
    · exact ⟨⟨fits, fit⟩, by simp [fringe]⟩

/-- Every step reads its token, and what was read fits as before. -/
theorem step_sound {r r' : Reading} (sound : r.Sound) (next : r.step token = some r') :
    r'.Advances r.fringe token := by
  cases r with
  | expects stack => exact begin_sound sound next
  | holds stack t => exact extend_sound sound.1 sound.2.1 sound.2.2 next
  | dot stack quote table =>
    unfold step at next
    simp only at next
    split at next
    · split at next
      · rename_i same
        subst same
        obtain rfl := Option.some.inj next
        exact ⟨⟨sound.1, sound.2, rfl⟩, by simp [fringe, Term.fringe, Atom.tokens]⟩
      · cases next
    · cases next
  | caseWord stack =>
    rw [step] at next
    split at next
    · rename_i word
      obtain rfl := Option.some.inj next
      refine ⟨⟨trivial, ready_operand _, sound⟩, ?_⟩
      simp [fringe, stackFringe, Frame.fringe, Term.fringeBranches, word]
    · cases next
  | castWord stack =>
    rw [step] at next
    split at next
    · rename_i word
      obtain rfl := Option.some.inj next
      exact ⟨⟨trivial, ready_operand _, sound⟩, by simp [fringe, stackFringe, Frame.fringe, word]⟩
    · cases next
  | type stack operand before depth inside =>
    obtain rfl := Option.some.inj next
    exact stepType_sound sound.1 sound.2 inside token

/-- A whole run reads its tokens, and what was read fits as before. -/
theorem run_sound {r r' : Reading} (ts : List Token) (sound : r.Sound) (ran : r.run ts = some r') :
    r'.Sound ∧ r'.fringe = r.fringe ++ ts := by
  induction ts generalizing r with
  | nil =>
    obtain rfl := Option.some.inj ran
    exact ⟨sound, (List.append_nil _).symm⟩
  | cons t ts ih =>
    rw [run_cons, Option.bind_eq_some_iff] at ran
    obtain ⟨m, next, ran⟩ := ran
    have advances := step_sound sound next
    obtain ⟨last, read⟩ := ih advances.sound ran
    exact ⟨last, by rw [read, advances.fringe, List.append_assoc, List.singleton_append]⟩

end Reading

/-- Tokens are read as a term exactly if they are its fringe and it fits. -/
theorem parse_eq_some_iff {ts : List Token} {t : Term} : parse ts = some t ↔ t.fringe = ts ∧ t.Fits := by
  constructor
  · intro parsed
    obtain ⟨r, ran, ended⟩ := Option.bind_eq_some_iff.mp parsed
    obtain ⟨sound, read⟩ := Reading.run_sound ts (r := .expects []) trivial ran
    cases r with
    | holds stack u =>
      obtain ⟨fits, fit, whole⟩ := sound
      have loose : 0 ≤ u.level := Nat.zero_le _
      obtain ⟨_, last, _, _, taken⟩ := reduce_sound stack u fits fit
        (whole ▸ ready_operand stack) loose (Nat.zero_le _)
      rw [Reading.finish] at ended
      split at ended
      · rename_i result
        obtain rfl := Option.some.inj ended
        rw [result] at last taken
        exact ⟨taken.trans read, last⟩
      · cases ended
    | _ => cases ended
  · rintro ⟨rfl, fits⟩
    exact parse_fringe t fits

end ObjectMapping.Sql
