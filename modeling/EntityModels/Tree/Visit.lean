import EntityModels.Tree.Document

namespace EntityModels

inductive NodeKind where
  | document
  | entity
  | typeName
  | fieldName
  | field
  | fieldType
  | derive
  | primary
  | foreign
  | unique
  | blankLine
  | commentLine
  deriving DecidableEq, Repr

namespace NodeKind

/-- The names by which the kinds are known outside; they do not change. -/
def name : NodeKind → String
  | document => "ModelsFile"
  | entity => "Entity"
  | typeName => "TypeIdent"
  | fieldName => "FieldIdent"
  | field => "EntityField"
  | fieldType => "EntityFieldType"
  | derive => "EntityDerive"
  | primary => "EntityPrimary"
  | foreign => "EntityForeign"
  | unique => "EntityUnique"
  | blankLine => "WhiteSpaceLine"
  | commentLine => "CommentLine"

/-- Whether nodes of the kind can have parts to walk through. The type of a field is taken whole. -/
def isContainer : NodeKind → Bool
  | document | entity | field | derive | primary | foreign | unique => true
  | typeName | fieldName | fieldType | blankLine | commentLine => false

end NodeKind

structure Visit where
  kind : NodeKind
  span : Span
  deriving DecidableEq, Repr

def IdentKind.nodeKind : IdentKind → NodeKind
  | type => .typeName
  | field => .fieldName

def Ident.visit {kind : IdentKind} (name : Ident kind) : Visit := ⟨kind.nodeKind, name.span⟩

def Member.nodeKind : Member → NodeKind
  | field _ => .field
  | derive _ => .derive
  | primary _ => .primary
  | foreign _ => .foreign
  | unique _ => .unique
  | blank _ => .blankLine
  | comment _ => .commentLine

def Member.parts : Member → List Visit
  | field node => [node.name.visit, ⟨.fieldType, node.type.span⟩]
  | derive node => node.classNames.map Ident.visit
  | primary node => node.fieldNames.map Ident.visit
  | foreign node => node.target.visit :: node.fieldNames.map Ident.visit
  | unique node => node.name.visit :: node.fieldNames.map Ident.visit
  | blank _ | comment _ => []

def Member.visits (m : Member) : List Visit := ⟨m.nodeKind, m.span⟩ :: m.parts

def Entity.visits (e : Entity) : List Visit :=
  ⟨.entity, e.span⟩ :: e.name.visit :: e.members.flatMap Member.visits

def Item.nodeKind : Item → NodeKind
  | entity _ => .entity
  | blank _ => .blankLine
  | comment _ => .commentLine

def Item.visits : Item → List Visit
  | entity e => e.visits
  | blank line => [⟨.blankLine, line.span⟩]
  | comment line => [⟨.commentLine, line.span⟩]

def Document.visits (d : Document) : List Visit :=
  ⟨.document, d.span⟩ :: d.items.flatMap Item.visits

end EntityModels
