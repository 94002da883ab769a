import EntityModels.Tree.Ident

namespace EntityModels

structure Derive where
  classNames : List TypeName
  span : Span
  deriving DecidableEq, Repr

structure Primary where
  fieldNames : List FieldName
  span : Span
  deriving DecidableEq, Repr

structure Foreign where
  target : TypeName
  fieldNames : List FieldName
  span : Span
  deriving DecidableEq, Repr

structure Unique where
  name : TypeName
  fieldNames : List FieldName
  span : Span
  deriving DecidableEq, Repr

end EntityModels
