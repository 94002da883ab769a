import EntityModels.Grammar.Lexeme
import EntityModels.Tree.Field

/-!
Types of fields: `Text`, `[Text]`, `~Text`, `[!Text] Maybe`.

A bracket or a marker says that a type was meant, so what fails behind one fails for good.
-/

namespace EntityModels.FieldType

/-- The mark of a field that may be absent; there need be nothing behind the word. -/
def maybeSuffix : Reader Bool :=
  Reader.rewindUnless id do
    if ← Reader.someSpace then Reader.literal Keyword.maybe else return false

def closeBracket (isList : Bool) : Reader Unit :=
  if isList then Reader.committedIf true (Reader.keyword "]") else return ()

def reader : Reader FieldType := do
  let start ← Reader.position
  let isList ← Reader.literal "["
  let marker ← Reader.marker
  let typeName ← Reader.committedIf (isList || marker.isSome) (Reader.ident .type "type name")
  closeBracket isList
  let isMaybe ← maybeSuffix
  let stop ← Reader.position
  return {
    typeName, isList, isMaybe
    strictness := .ofMarker marker
    span := start.spanTo stop }

def mayStart (text : List Char) : Bool :=
  text.head?.any fun c ↦ c == '[' || c == '!' || c == '~' || isTypeStart c

theorem maybeSuffix_forward : Forward maybeSuffix :=
  .rewindUnless <| Reader.someSpace_forward.bind fun _ ↦ .ite (.literal _) (.pure _)

theorem closeBracket_forward (isList : Bool) : Forward (closeBracket isList) :=
  .ite (Reader.keyword_forward _).committedIf (.pure _)

theorem reader_forward : Forward reader :=
  Forward.position.bind fun _ ↦ (Forward.literal _).bind fun _ ↦ Reader.marker_forward.bind fun _ ↦
    (Reader.ident_forward _ _).committedIf.bind fun _ ↦ (closeBracket_forward _).bind fun _ ↦
      maybeSuffix_forward.bind fun _ ↦ Forward.position.bind fun _ ↦ .pure _

end EntityModels.FieldType
