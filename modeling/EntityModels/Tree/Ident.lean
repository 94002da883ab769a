import EntityModels.Character
import EntityModels.Keyword
import EntityModels.Text.Position

namespace EntityModels

/-- Types, classes and constraints have names of one kind, fields of the other. -/
inductive IdentKind where
  | type
  | field
  deriving DecidableEq, Repr

namespace IdentKind

def starts : IdentKind → Char → Bool
  | type => isTypeStart
  | field => isFieldStart

/-- Words that have another meaning where a name of the kind could stand. -/
def reserved : IdentKind → List String
  | type => []
  | field => [Keyword.derive]

end IdentKind

structure Ident (kind : IdentKind) where
  text : String
  span : Span
  deriving DecidableEq, Repr

abbrev TypeName := Ident .type

abbrev FieldName := Ident .field

end EntityModels
