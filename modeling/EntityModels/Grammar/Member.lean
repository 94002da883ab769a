import EntityModels.Grammar.Options
import EntityModels.Grammar.Line
import EntityModels.Grammar.Field
import EntityModels.Grammar.Clause
import EntityModels.Parsing.Choice
import EntityModels.Tree.Entity

/-!
Members of an entity, each a line of its own.

A line can be a member of one kind only, with one exception: a primary key could be read as a
uniqueness constraint of that name as well, and has to be tried before it.
-/

namespace EntityModels

namespace MemberKind

def mayStart : MemberKind → List Char → Bool
  | field => Field.mayStart
  | derive => Derive.mayStart
  | primary => Primary.mayStart
  | foreign => Foreign.mayStart
  | unique => Unique.mayStart
  | blank => BlankLine.mayStart
  | comment => CommentLine.mayStart

def reader (options : Options) : MemberKind → Reader Member
  | field => return .field (← Field.reader)
  | derive => return .derive (← Derive.reader options.markedNames)
  | primary => return .primary (← Primary.reader options.markedNames)
  | foreign => return .foreign (← Foreign.reader options.markedNames)
  | unique => return .unique (← Unique.reader options.markedNames)
  | blank => return .blank (← BlankLine.reader)
  | comment => return .comment (← CommentLine.reader)

theorem reader_forward (options : Options) (kind : MemberKind) :
    Forward (kind.reader options) := by
  cases kind with
  | field => exact Field.reader_forward.bind fun _ ↦ .pure _
  | derive => exact (Derive.reader_forward _).bind fun _ ↦ .pure _
  | primary => exact (Primary.reader_forward _).bind fun _ ↦ .pure _
  | foreign => exact (Foreign.reader_forward _).bind fun _ ↦ .pure _
  | unique => exact (Unique.reader_forward _).bind fun _ ↦ .pure _
  | blank => exact BlankLine.reader_forward.bind fun _ ↦ .pure _
  | comment => exact CommentLine.reader_forward.bind fun _ ↦ .pure _

def choice (options : Options) (kind : MemberKind) : Choice Member :=
  ⟨kind.mayStart, kind.reader options, Parser.ofReader_forward (kind.reader_forward options)⟩

end MemberKind

namespace Member

/-- A member of one of the kinds, of which the earlier ones are preferred. -/
def parserOf (kinds : List MemberKind) (options : Options) : Parser Member :=
  Choice.firstOr "entity member" (kinds.map (MemberKind.choice options))

def parser : Options → Parser Member := parserOf MemberKind.all

def mayStart (text : List Char) : Bool := MemberKind.all.any (·.mayStart text)

def choice (options : Options) : Choice Member :=
  ⟨mayStart, parser options, Choice.firstOr_forward _ _⟩

end Member

end EntityModels
