import EntityModels.Grammar.FieldType
import EntityModels.Grammar.Modifier

namespace EntityModels.Field

def reader : Reader Field := do
  Reader.indentation
  let start ← Reader.position
  let name ← Reader.ident .field "field name"
  Reader.separator "field type"
  let type ← FieldType.reader
  let flags ← Flag.group
  let settings ← Setting.group
  let stop ← Reader.position
  Reader.finishLine
  return {
    name, type
    migrationOnly := (flags.lookup .migrationOnly).isSome
    safeToRemove := (flags.lookup .safeToRemove).isSome
    defaultValue := (settings.lookup .default).bind Setting.Value.text?
    sqlRow := (settings.lookup .sql).bind Setting.Value.text?
    sqlType := (settings.lookup .sqlType).bind Setting.Value.text?
    maxLen := (settings.lookup .maxLen).bind Setting.Value.integer?
    span := start.spanTo stop }

def mayStart (text : List Char) : Bool := indentedChar isFieldStart text

theorem reader_forward : Forward reader :=
  (Reader.expectSpace_forward _).bind fun _ ↦ Forward.position.bind fun _ ↦
    (Reader.ident_forward _ _).bind fun _ ↦ (Reader.expectSpace_forward _).bind fun _ ↦
      FieldType.reader_forward.bind fun _ ↦
        (Reader.modifiers_forward Flag.reader_forward _).bind fun _ ↦
          (Reader.modifiers_forward Setting.reader_forward _).bind fun _ ↦
            Forward.position.bind fun _ ↦ Reader.finishLine_forward.bind fun _ ↦ .pure _

end EntityModels.Field
