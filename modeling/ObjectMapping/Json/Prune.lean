import ObjectMapping.Json.Visits

/-! Trees with and without nulls. -/
namespace ObjectMapping

/-- The options with or without members for values that are null. -/
def JsonOptions.withNulls (options : JsonOptions) (emit : Bool) : JsonOptions :=
  { options with emitNulls := emit }

namespace Json

mutual

/-- The tree without the members that are null, in all of its objects. Elements of lists stay. -/
def prune : Json → Json
  | array items => array (pruneItems items)
  | object members => object (pruneMembers members)
  | leaf => leaf

/-- The items without the null members in them. -/
def pruneItems : List Json → List Json
  | [] => []
  | j :: rest => prune j :: pruneItems rest

/-- The members that are not null, without the null members in them. -/
def pruneMembers : List (String × Json) → List (String × Json)
  | [] => []
  | (key, j) :: rest => if j.isNull then pruneMembers rest else (key, prune j) :: pruneMembers rest

end

/-- No polymorphic object that writing the record comes to has a field without a value in the place
of the name of its type. -/
def KeepsTags (reg : Registry) (options : JsonOptions) (o : Record) : Prop :=
  ∀ context r f, Visits reg o context (.object r) → context.type = .variant → Reads reg r f .null →
    f.name ≠ options.typeKey

end Json

end ObjectMapping
