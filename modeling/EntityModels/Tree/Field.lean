import EntityModels.Tree.Ident

namespace EntityModels

/-- Whether the value of a field is computed when the record is built. -/
inductive Strictness where
  | strict
  | explicitStrict
  | lazy
  deriving DecidableEq, Repr

namespace Strictness

def all : List Strictness := [strict, explicitStrict, lazy]

def name : Strictness → String
  | strict => "Strict"
  | explicitStrict => "ExplicitStrict"
  | lazy => "Lazy"

instance : Inhabited Strictness := ⟨strict⟩

def ofMarker : Option Char → Strictness
  | some '!' => explicitStrict
  | some '~' => lazy
  | _ => strict

end Strictness

structure FieldType where
  typeName : TypeName
  strictness : Strictness
  isList : Bool
  isMaybe : Bool
  span : Span
  deriving DecidableEq, Repr

/-- A field with its modifiers; of each of them the value, if it was given. -/
structure Field where
  name : FieldName
  type : FieldType
  migrationOnly : Bool
  safeToRemove : Bool
  defaultValue : Option String
  sqlRow : Option String
  sqlType : Option String
  maxLen : Option Nat
  span : Span
  deriving DecidableEq, Repr

end EntityModels
