import EntitySchema.Token

/-!
# Where a document leaves the grammar

* `Expectation` — what the grammar asks for at a point of a line.
* `Mismatch` — an expectation that the tokens at hand do not meet.
* `Mismatch.diagnostic` — the error that reports a mismatch.
-/

namespace EntitySchema

/-- What the grammar asks for at a point of a line. -/
inductive Expectation where
  | statement
  | entityEnd
  | indentation
  | attributeName
  | typeSeparator
  | attributeType
  | attributeEnd
  | arrowHead
  | targetSeparator
  | targetEntity
  | openParen
  | targetAttribute
  | closeParen
  deriving DecidableEq, Repr

/-- How messages name an expectation. -/
def Expectation.describe : Expectation → String
  | statement => "entity name or empty line"
  | entityEnd => "newline after entity name"
  | indentation => "two-space indentation"
  | attributeName => "attribute name"
  | typeSeparator => "space after attribute name"
  | attributeType => "attribute type"
  | attributeEnd => "newline after attribute"
  | arrowHead => "'>' after '-'"
  | targetSeparator => "space after '->'"
  | targetEntity => "referenced entity name"
  | openParen => "'(' after referenced entity"
  | targetAttribute => "referenced attribute name"
  | closeParen => "')' after referenced attribute"

/-- An expectation, and the tokens in front of which it was not met. -/
structure Mismatch where
  expected : Expectation
  rest : List Token
  deriving DecidableEq, Repr

namespace Mismatch

/-- How messages name what stands in the place of the expectation. -/
def found (m : Mismatch) : String :=
  match m.rest with
  | [] => "end of input"
  | t :: _ => t.describe

/-- The error that reports a mismatch: at the token that does not fit, or at `atEnd` if no token is
left. -/
def diagnostic (atEnd : Span) (m : Mismatch) : Diagnostic :=
  .error "E1500" ("expected " ++ m.expected.describe ++ ", found " ++ m.found)
    ((m.rest.head?.map Token.span).getD atEnd)

end Mismatch

end EntitySchema
