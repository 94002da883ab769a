import EntityModels.Grammar.Item

namespace EntityModels.Document

/-- The blank end of a text, where the options allow one. -/
def trailing (options : Options) : Reader (Option BlankLine) :=
  if options.trailingBlank then BlankLine.trailing else return none

def nextItem (options : Options) : Parser (Option Item) := do
  if (← Reader.next?).isNone then return none
  else
    match ← trailing options with
    | some line => return some (.blank line)
    | none => return some (← Item.required options Item.expected)

theorem nextItem_forward (options : Options) : Forward (nextItem options) := by
  refine (Parser.ofReader_forward .next?).bind fun _ ↦ .ite (.pure _) ?_
  refine (Parser.ofReader_forward (.ite BlankLine.trailing_forward (.pure _))).bind fun line ↦ ?_
  cases line with
  | some line => exact .pure _
  | none => exact (Item.required_forward options _).bind fun _ ↦ .pure _

def parser (options : Options) : Parser Document := do
  let start ← Reader.position
  let items ← collect (nextItem options) (nextItem_forward options)
  let stop ← Reader.position
  return ⟨items, start.spanTo stop⟩

def parse (options : Options) (text : String) : Except Failure Document :=
  match parser options (.ofText text.toList) with
  | .ok document _ => .ok document
  | .error e _ => .error e

end EntityModels.Document
