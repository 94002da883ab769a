import EntityModels.Grammar.Item

namespace EntityModels

inductive Production where
  | blankLine
  | commentLine
  | fieldType
  | field
  | derive
  | primary
  | foreign
  | unique
  | member
  | entity
  | item
  deriving DecidableEq, Repr

namespace Production

abbrev Node : Production → Type
  | blankLine => BlankLine
  | commentLine => CommentLine
  | fieldType => FieldType
  | field => Field
  | derive => Derive
  | primary => Primary
  | foreign => Foreign
  | unique => Unique
  | member => Member
  | entity => Entity
  | item => Item

/-- A quick look at the unread text: what does not pass it cannot be read. -/
def mayStart : Production → List Char → Bool
  | blankLine => BlankLine.mayStart
  | commentLine => CommentLine.mayStart
  | fieldType => FieldType.mayStart
  | field => Field.mayStart
  | derive => Derive.mayStart
  | primary => Primary.mayStart
  | foreign => Foreign.mayStart
  | unique => Unique.mayStart
  | member => Member.mayStart
  | entity => Entity.mayStart
  | item => Item.mayStart

def parser (options : Options) : (p : Production) → Parser p.Node
  | blankLine => BlankLine.reader
  | commentLine => CommentLine.reader
  | fieldType => FieldType.reader
  | field => Field.reader
  | derive => Derive.reader options.markedNames
  | primary => Primary.reader options.markedNames
  | foreign => Foreign.reader options.markedNames
  | unique => Unique.reader options.markedNames
  | member => Member.parser options
  | entity => Entity.parser options
  | item => Item.parser options

theorem parser_forward (options : Options) (p : Production) : Forward (p.parser options) := by
  cases p with
  | blankLine => exact Parser.ofReader_forward BlankLine.reader_forward
  | commentLine => exact Parser.ofReader_forward CommentLine.reader_forward
  | fieldType => exact Parser.ofReader_forward FieldType.reader_forward
  | field => exact Parser.ofReader_forward Field.reader_forward
  | derive => exact Parser.ofReader_forward (Derive.reader_forward _)
  | primary => exact Parser.ofReader_forward (Primary.reader_forward _)
  | foreign => exact Parser.ofReader_forward (Foreign.reader_forward _)
  | unique => exact Parser.ofReader_forward (Unique.reader_forward _)
  | member => exact Choice.firstOr_forward _ _
  | entity => exact Entity.parserWith_forward _
  | item => exact Choice.firstOr_forward _ _

end Production

end EntityModels
