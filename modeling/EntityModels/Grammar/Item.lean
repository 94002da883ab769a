import EntityModels.Grammar.Entity
import EntityModels.Tree.Document

namespace EntityModels

namespace ItemKind

def mayStart : ItemKind → List Char → Bool
  | entity => Entity.mayStart
  | blank => BlankLine.mayStart
  | comment => CommentLine.mayStart

def parser (options : Options) : ItemKind → Parser Item
  | entity => return .entity (← Entity.parser options)
  | blank => return .blank (← BlankLine.reader)
  | comment => return .comment (← CommentLine.reader)

theorem parser_forward (options : Options) (kind : ItemKind) : Forward (kind.parser options) := by
  cases kind with
  | entity => exact (Entity.parserWith_forward _).bind fun _ ↦ .pure _
  | blank => exact (Parser.ofReader_forward BlankLine.reader_forward).bind fun _ ↦ .pure _
  | comment => exact (Parser.ofReader_forward CommentLine.reader_forward).bind fun _ ↦ .pure _

def choice (options : Options) (kind : ItemKind) : Choice Item :=
  ⟨kind.mayStart, kind.parser options, kind.parser_forward options⟩

end ItemKind

namespace Item

def expected : String := "entity, blank line or comment"

def parser (options : Options) : Parser Item :=
  Choice.firstOr expected (ItemKind.all.map (ItemKind.choice options))

def mayStart (text : List Char) : Bool := ItemKind.all.any (·.mayStart text)

/-- An item where there has to be one, or whatever else `expected` names. -/
def required (options : Options) (expected : String) : Parser Item := do
  match ← (parser options).attempt with
  | some item => return item
  | none => Parser.stuck (·.mismatch expected)

theorem required_forward (options : Options) (expected : String) :
    Forward (required options expected) := by
  refine (Parser.attempt_forward (Choice.firstOr_forward _ _)).bind fun found ↦ ?_
  cases found with
  | some item => exact .pure item
  | none => exact Parser.stuck_forward _

end Item

end EntityModels
