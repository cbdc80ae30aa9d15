import ObjectMapping.Statement.Select
import ObjectMapping.Statement.Update
import ObjectMapping.Transaction
import ObjectMapping.Wire.Expr

/-! Statements as trees, as lists of the steps that put them together, and the calls
that run them. -/
namespace ObjectMapping.Wire

/-- The error for a step that a statement does not have. -/
def unknownStep (j : Json) : Error := .malformed s!"no such step: '{(j.nth 0).text}'"

/-- A kind of statements by its name in lower case. -/
def readStatementKind : Json → Except Error StatementKind :=
  named "kind of statements" (foldCase ·.name) StatementKind.all

variable (s : Scope)

/-- A call that a connection received. -/
def ofCall : Call → Json
  | .start => ofTexts ["begin"]
  | .commit => ofTexts ["commit"]
  | .rollback => ofTexts ["rollback"]
  | .create h sql => ofTexts ["create", h.kind.name, sql]
  | .prepare _ sql => ofTexts ["prepare", sql]
  | .execute _ sql params => .array [.string "execute", .string sql, .array (ofValues s params)]
  | .fetch _ sql => ofTexts ["fetch", sql]
  | .lastInsertId _ sql => ofTexts ["last_id", sql]
  | .release _ sql => ofTexts ["release", sql]

/-- One more step of a query. -/
def selectStep (q : Select) (j : Json) : Except Error Select := do
  let arg := j.nth 1
  match (j.nth 0).text with
  | "inner_join" => q.join .inner (← s.descriptor arg) none
  | "outer_join" => q.join .leftOuter (← s.descriptor arg) none
  | "inner_join_on" => q.join .inner (← s.descriptor arg) (some (← readExpr s (j.nth 2)))
  | "outer_join_on" => q.join .leftOuter (← s.descriptor arg) (some (← readExpr s (j.nth 2)))
  | "filter" => return q.restrict (← readExpr s arg)
  | "order_asc" => return q.orderBy (← readExpr s arg) true
  | "order_desc" => return q.orderBy (← readExpr s arg) false
  | "limit" => return { q with limit := some arg.count }
  | "offset" => return { q with offset := some arg.count }
  | _ => throw (unknownStep j)

/-- One more step of an update. -/
def updateStep (u : Update) (j : Json) : Except Error Update := do
  let column := typedColumn s u.target.descriptor (j.nth 2) (j.nth 1)
  match (j.nth 0).text with
  | "set_all" => u.setAll
  | "filter" => return u.restrict (← readExpr s (j.nth 1))
  | "by_key" => return u.byPrimaryKey
  | "assign" =>
    let c ← column
    return u.set (c.assign (← c.shape.ofValue (← readValue s (j.nth 3))))
  | "assign_expr" =>
    let c ← column
    return u.set (c.assignExpr (← readExpr s (j.nth 3)))
  | "assign_current" => return u.set (← column).assignCurrent
  | _ => throw (unknownStep j)

/-- One more step of a deletion. -/
def deleteStep (x : Delete) (j : Json) : Except Error Delete := do
  match (j.nth 0).text with
  | "filter" => return x.restrict (← readExpr s (j.nth 1))
  | "by_key" => return x.byPrimaryKey
  | _ => throw (unknownStep j)

/-- The query on the table of `target` with the given steps. -/
def readSelect (target : Storable) (steps : Json) : Except Error Select :=
  steps.items.foldlM (selectStep s) (.all target)

/-- The update of the table of `target` with the given steps. -/
def readUpdate (target : Storable) (steps : Json) : Except Error Update :=
  steps.items.foldlM (updateStep s) (.start target)

/-- The deletion from the table of `target` with the given steps. -/
def readDelete (target : Storable) (steps : Json) : Except Error Delete :=
  steps.items.foldlM (deleteStep s) (.all target)

end ObjectMapping.Wire
