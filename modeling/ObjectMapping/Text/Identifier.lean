/-! The shape of the names that objects, tables and fields may have. -/
namespace ObjectMapping

/-- Whether the character may begin an identifier. -/
def isIdentifierStart (c : Char) : Bool := c.isAlpha || c == '_'

/-- Whether the text is a letter or underscore followed by letters, digits and
underscores, all of them ASCII. -/
def isIdentifier (text : String) : Bool :=
  match text.toList with
  | [] => false
  | first :: rest => isIdentifierStart first && rest.all fun c => isIdentifierStart c || c.isDigit

end ObjectMapping
