import EntityModels.Character
import EntityModels.Keyword
import EntityModels.Text.Position

namespace EntityModels

structure BlankLine where
  text : String
  span : Span
  deriving DecidableEq, Repr

structure CommentLine where
  text : String
  span : Span
  deriving DecidableEq, Repr

/-- The comment without its indentation, its dashes and the end of its line. -/
def CommentLine.body (line : CommentLine) : String :=
  let text := line.text.toList.dropWhile isHorizontalSpace
  let text := (Keyword.comment.toList.isPrefixOf? text).getD text
  String.ofList (if text.getLast? = some '\n' then text.dropLast else text)

end EntityModels
