import EntityModels.Grammar.Lexeme
import EntityModels.Tree.Line

/-!
Blank lines and comments. Both need the end of their line; a document may end in a blank stretch
without one where the options allow it.
-/

namespace EntityModels

namespace BlankLine

def reader : Reader BlankLine := do
  let start ← Reader.position
  let blanks ← Reader.space
  match ← Reader.next? with
  | some '\n' =>
    Reader.lineEnd
    return ⟨String.ofList (blanks ++ ['\n']), start.spanTo (← Reader.position)⟩
  | _ => Reader.unterminated

def mayStart (text : List Char) : Bool :=
  let trimmed := text.dropWhile isHorizontalSpace
  trimmed.head? == some '\n' || trimmed.isEmpty && !text.isEmpty

/-- The blank rest of a text, where no line end follows. -/
def trailing : Reader (Option BlankLine) :=
  Reader.rewindUnless Option.isSome do
    let start ← Reader.position
    let blanks ← Reader.space
    let next ← Reader.next?
    let stop ← Reader.position
    return if blanks.isEmpty || next.isSome then none
      else some ⟨String.ofList blanks, start.spanTo stop⟩

theorem reader_forward : Forward reader := by
  refine Forward.position.bind fun _ ↦ Reader.space_forward.bind fun _ ↦
    Forward.next?.bind fun c ↦ ?_
  split
  · exact Reader.lineEnd_forward.bind fun _ ↦ Forward.position.bind fun _ ↦ .pure _
  · exact .unterminated

theorem trailing_forward : Forward trailing :=
  .rewindUnless <| Forward.position.bind fun _ ↦ Reader.space_forward.bind fun _ ↦
    Forward.next?.bind fun _ ↦ Forward.position.bind fun _ ↦ .pure _

end BlankLine

namespace CommentLine

def reader : Reader CommentLine := do
  let start ← Reader.position
  let blanks ← Reader.space
  Reader.keyword Keyword.comment
  let body ← Reader.takeWhile fun c ↦ !isLineEnd c
  if (← Reader.next?).isNone then Reader.unterminated
  else
    Reader.lineEnd
    let text := blanks ++ Keyword.comment.toList ++ body ++ ['\n']
    return ⟨String.ofList text, start.spanTo (← Reader.position)⟩

def mayStart (text : List Char) : Bool :=
  Keyword.comment.toList.isPrefixOf (text.dropWhile isHorizontalSpace)

theorem reader_forward : Forward reader :=
  Forward.position.bind fun _ ↦ Reader.space_forward.bind fun _ ↦
    (Reader.keyword_forward _).bind fun _ ↦ (Forward.takeWhile _).bind fun _ ↦
      Forward.next?.bind fun _ ↦ .ite .unterminated <|
        Reader.lineEnd_forward.bind fun _ ↦ Forward.position.bind fun _ ↦ .pure _

end CommentLine

end EntityModels
