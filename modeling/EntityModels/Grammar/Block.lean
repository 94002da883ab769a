import EntityModels.Grammar.Item

namespace EntityModels.Block

def opened (markers : List String) (c : Cursor) : Option Cursor :=
  markers.findSome? fun m ↦ (m.toList.isPrefixOf? c.rest).map (c.past m.toList)

def afterOpening (markers : List String) : List Char → Position → Except Failure Cursor
  | [], p =>
    let c : Cursor := ⟨[], p⟩
    match opened markers c with
    | some inside => .ok inside
    | none => .error (c.missingMarker (" or ".intercalate (markers.map fun m ↦ "`" ++ m ++ "`")))
  | x :: rest, p =>
    match opened markers ⟨x :: rest, p⟩ with
    | some inside => .ok inside
    | none => afterOpening markers rest (p.next x)

/-- The next item of a block, of which there is none in front of the closing marker. -/
def nextItem (options : Options) : Parser (Option Item) := do
  let closing := "`" ++ options.markers.closing ++ "`"
  if ← Reader.startsWith options.markers.closing then return none
  else if (← Reader.next?).isNone then Parser.stuck (·.missingMarker closing)
  else return some (← Item.required options (Item.expected ++ " or " ++ closing))

theorem nextItem_forward (options : Options) : Forward (nextItem options) :=
  (Parser.ofReader_forward (.startsWith _)).bind fun _ ↦ .ite (.pure _) <|
    (Parser.ofReader_forward .next?).bind fun _ ↦ .ite (Parser.stuck_forward _) <|
      (Item.required_forward options _).bind fun _ ↦ .pure _

def parser (options : Options) : Parser Document := do
  let start ← Reader.position
  let items ← collect (nextItem options) (nextItem_forward options)
  let stop ← Reader.position
  return ⟨items, start.spanTo stop⟩

/-- Reads the first block in a text. What stands before and behind it is skipped. -/
def parse (options : Options) (text : String) : Except Failure Document := do
  let inside ← afterOpening options.markers.opening text.toList .start
  match parser options { cursor := inside } with
  | .ok document _ => .ok document
  | .error e _ => .error e

end EntityModels.Block
