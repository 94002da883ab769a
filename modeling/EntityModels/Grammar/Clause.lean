import EntityModels.Grammar.Lexeme
import EntityModels.Parsing.Collect
import EntityModels.Tree.Clause

/-!
Clauses. Each ends in a list of names, which is read as far as it goes; the rest of the line is
without effect.

`marked` tells whether a name in a clause may carry a strictness marker.
-/

namespace EntityModels

namespace Reader

def strayMarker (marked : Bool) : Reader Unit := do
  if marked then
    let _ ← marker
    return ()
  else return ()

def clauseIdent (marked : Bool) (kind : IdentKind) (expected : String) : Reader (Ident kind) := do
  strayMarker marked
  ident kind expected

def listedIdent (marked : Bool) (kind : IdentKind) (expected : String) : Reader (Ident kind) := do
  separator expected
  clauseIdent marked kind expected

theorem strayMarker_forward (marked : Bool) : Forward (strayMarker marked) :=
  .ite (marker_forward.bind fun _ ↦ .pure _) (.pure _)

theorem clauseIdent_forward (marked : Bool) (kind : IdentKind) (expected : String) :
    Forward (clauseIdent marked kind expected) :=
  (strayMarker_forward marked).bind fun _ ↦ ident_forward kind expected

theorem listedIdent_forward (marked : Bool) (kind : IdentKind) (expected : String) :
    Forward (listedIdent marked kind expected) :=
  (expectSpace_forward _).bind fun _ ↦ clauseIdent_forward marked kind expected

def names (marked : Bool) (kind : IdentKind) (expected : String) : Reader (List (Ident kind)) := do
  let first ← listedIdent marked kind expected
  return first :: (← collect (orNone (listedIdent marked kind expected))
    (listedIdent_forward marked kind expected).orNone)

theorem names_forward (marked : Bool) (kind : IdentKind) (expected : String) :
    Forward (names marked kind expected) :=
  (listedIdent_forward marked kind expected).bind fun _ ↦ (collect_forward _).bind fun _ ↦ .pure _

def fieldNames (marked : Bool) : Reader (List FieldName) := names marked .field "field name"

def classNames (marked : Bool) : Reader (List TypeName) := names marked .type "class name"

end Reader

namespace Derive

def reader (marked : Bool) : Reader Derive := do
  Reader.indentation
  let start ← Reader.position
  Reader.keyword Keyword.derive
  let classNames ← Reader.classNames marked
  let stop ← Reader.position
  Reader.finishLine
  return ⟨classNames, start.spanTo stop⟩

def mayStart (text : List Char) : Bool := indentedWord Keyword.derive text

theorem reader_forward (marked : Bool) : Forward (reader marked) :=
  (Reader.expectSpace_forward _).bind fun _ ↦ Forward.position.bind fun _ ↦
    (Reader.keyword_forward _).bind fun _ ↦ (Reader.names_forward _ _ _).bind fun _ ↦
      Forward.position.bind fun _ ↦ Reader.finishLine_forward.bind fun _ ↦ .pure _

end Derive

namespace Primary

def reader (marked : Bool) : Reader Primary := do
  Reader.indentation
  let start ← Reader.position
  Reader.keyword Keyword.primary
  let fieldNames ← Reader.fieldNames marked
  let stop ← Reader.position
  Reader.finishLine
  return ⟨fieldNames, start.spanTo stop⟩

def mayStart (text : List Char) : Bool := indentedWord Keyword.primary text

theorem reader_forward (marked : Bool) : Forward (reader marked) :=
  (Reader.expectSpace_forward _).bind fun _ ↦ Forward.position.bind fun _ ↦
    (Reader.keyword_forward _).bind fun _ ↦ (Reader.names_forward _ _ _).bind fun _ ↦
      Forward.position.bind fun _ ↦ Reader.finishLine_forward.bind fun _ ↦ .pure _

end Primary

namespace Foreign

def reader (marked : Bool) : Reader Foreign := do
  Reader.indentation
  let start ← Reader.position
  Reader.keyword Keyword.foreign
  Reader.separator "target entity"
  let target ← Reader.clauseIdent marked .type "target entity"
  let fieldNames ← Reader.fieldNames marked
  let stop ← Reader.position
  Reader.finishLine
  return ⟨target, fieldNames, start.spanTo stop⟩

def mayStart (text : List Char) : Bool := indentedWord Keyword.foreign text

theorem reader_forward (marked : Bool) : Forward (reader marked) :=
  (Reader.expectSpace_forward _).bind fun _ ↦ Forward.position.bind fun _ ↦
    (Reader.keyword_forward _).bind fun _ ↦ (Reader.expectSpace_forward _).bind fun _ ↦
      (Reader.clauseIdent_forward _ _ _).bind fun _ ↦ (Reader.names_forward _ _ _).bind fun _ ↦
        Forward.position.bind fun _ ↦ Reader.finishLine_forward.bind fun _ ↦ .pure _

end Foreign

namespace Unique

/-- A uniqueness constraint has no word of its own: it begins with its name. -/
def reader (marked : Bool) : Reader Unique := do
  Reader.indentation
  let start ← Reader.position
  let name ← Reader.clauseIdent marked .type "constraint name"
  let fieldNames ← Reader.fieldNames marked
  let stop ← Reader.position
  Reader.finishLine
  return ⟨name, fieldNames, start.spanTo stop⟩

def mayStart (text : List Char) : Bool :=
  indentedChar (fun c ↦ isTypeStart c || c == '!' || c == '~') text

theorem reader_forward (marked : Bool) : Forward (reader marked) :=
  (Reader.expectSpace_forward _).bind fun _ ↦ Forward.position.bind fun _ ↦
    (Reader.clauseIdent_forward _ _ _).bind fun _ ↦ (Reader.names_forward _ _ _).bind fun _ ↦
      Forward.position.bind fun _ ↦ Reader.finishLine_forward.bind fun _ ↦ .pure _

end Unique

end EntityModels
