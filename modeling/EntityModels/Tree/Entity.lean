import EntityModels.Tree.Line
import EntityModels.Tree.Field
import EntityModels.Tree.Clause

namespace EntityModels

inductive Member where
  | field (field : Field)
  | derive (clause : Derive)
  | primary (clause : Primary)
  | foreign (clause : Foreign)
  | unique (clause : Unique)
  | blank (line : BlankLine)
  | comment (line : CommentLine)
  deriving DecidableEq, Repr

inductive MemberKind where
  | field
  | derive
  | primary
  | foreign
  | unique
  | blank
  | comment
  deriving DecidableEq, Repr

namespace MemberKind

def all : List MemberKind := [field, derive, primary, foreign, unique, blank, comment]

def name : MemberKind → String
  | field => "Field"
  | derive => "Derive"
  | primary => "Primary"
  | foreign => "Foreign"
  | unique => "Unique"
  | blank => "WhiteSpace"
  | comment => "Comment"

end MemberKind

namespace Member

def kind : Member → MemberKind
  | field _ => .field
  | derive _ => .derive
  | primary _ => .primary
  | foreign _ => .foreign
  | unique _ => .unique
  | blank _ => .blank
  | comment _ => .comment

def span : Member → Span
  | field node => node.span
  | derive node => node.span
  | primary node => node.span
  | foreign node => node.span
  | unique node => node.span
  | blank node => node.span
  | comment node => node.span

def field? : Member → Option Field
  | field node => some node
  | _ => none

def derive? : Member → Option Derive
  | derive node => some node
  | _ => none

def primary? : Member → Option Primary
  | primary node => some node
  | _ => none

def foreign? : Member → Option Foreign
  | foreign node => some node
  | _ => none

def unique? : Member → Option Unique
  | unique node => some node
  | _ => none

end Member

structure Entity where
  name : TypeName
  derivesJson : Bool
  sqlTableName : Option String
  members : List Member
  span : Span
  deriving DecidableEq, Repr

namespace Entity

variable (e : Entity)

def fields : List Field := e.members.filterMap Member.field?

def field? (name : String) : Option Field := e.fields.find? (·.name.text == name)

def derives : List Derive := e.members.filterMap Member.derive?

/-- The first primary key; any other is without effect. -/
def primary? : Option Primary := e.members.findSome? Member.primary?

def foreignKeys : List Foreign := e.members.filterMap Member.foreign?

def uniques : List Unique := e.members.filterMap Member.unique?

end Entity

end EntityModels
