import EntityModels.Grammar.Member

namespace EntityModels.Entity

/-- The word for JSON instances; there need be no space around it. -/
def jsonFlag : Reader Bool :=
  Reader.rewindUnless id do
    let _ ← Reader.space
    Reader.literal Keyword.json

/-- The name of the table; where a part of it is missing, none of it counts. -/
def sqlTable : Reader (Option String) :=
  Reader.rewindUnless Option.isSome do
    let _ ← Reader.space
    if ← Reader.literal Keyword.sql then
      let _ ← Reader.space
      if ← Reader.literal "=" then
        let _ ← Reader.space
        return (← Reader.token).map String.ofList
      else return none
    else return none

structure Header where
  name : TypeName
  derivesJson : Bool
  sqlTableName : Option String
  deriving DecidableEq, Repr

def header : Reader Header := do
  let name ← Reader.ident .type "entity name"
  let derivesJson ← jsonFlag
  let sqlTableName ← sqlTable
  Reader.finishLine
  return ⟨name, derivesJson, sqlTableName⟩

theorem jsonFlag_forward : Forward jsonFlag :=
  .rewindUnless <| Reader.space_forward.bind fun _ ↦ .literal _

theorem sqlTable_forward : Forward sqlTable :=
  .rewindUnless <| Reader.space_forward.bind fun _ ↦ (Forward.literal _).bind fun _ ↦
    .ite (Reader.space_forward.bind fun _ ↦ (Forward.literal _).bind fun _ ↦
      .ite (Reader.space_forward.bind fun _ ↦ Reader.token_forward.bind fun _ ↦ .pure _)
        (.pure _)) (.pure _)

theorem header_forward : Forward header :=
  (Reader.ident_forward _ _).bind fun _ ↦ jsonFlag_forward.bind fun _ ↦
    sqlTable_forward.bind fun _ ↦ Reader.finishLine_forward.bind fun _ ↦ .pure _

/-- A header and the members under it, up to the first line that is none. -/
def parserWith (member : Choice Member) : Parser Entity := do
  let start ← Reader.position
  let header ← header
  let members ← collect member.tried member.tried_forward
  let stop ← Reader.position
  return { header with members, span := start.spanTo stop }

def parser (options : Options) : Parser Entity := parserWith (Member.choice options)

theorem parserWith_forward (member : Choice Member) : Forward (parserWith member) :=
  (Parser.ofReader_forward .position).bind fun _ ↦
    (Parser.ofReader_forward header_forward).bind fun _ ↦ (collect_forward _).bind fun _ ↦
      (Parser.ofReader_forward .position).bind fun _ ↦ .pure _

def mayStart (text : List Char) : Bool := text.head?.any isTypeStart

end EntityModels.Entity
