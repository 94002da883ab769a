import EntityModels.Tree.Entity

namespace EntityModels

inductive Item where
  | entity (entity : Entity)
  | blank (line : BlankLine)
  | comment (line : CommentLine)
  deriving DecidableEq, Repr

inductive ItemKind where
  | entity
  | blank
  | comment
  deriving DecidableEq, Repr

namespace ItemKind

def all : List ItemKind := [entity, blank, comment]

def name : ItemKind → String
  | entity => "Entity"
  | blank => "WhiteSpace"
  | comment => "Comment"

end ItemKind

namespace Item

def kind : Item → ItemKind
  | entity _ => .entity
  | blank _ => .blank
  | comment _ => .comment

def span : Item → Span
  | entity node => node.span
  | blank node => node.span
  | comment node => node.span

def entity? : Item → Option Entity
  | entity node => some node
  | _ => none

def trivia? : Item → Option String
  | entity _ => none
  | blank line => some line.text
  | comment line => some line.text

end Item

structure Document where
  items : List Item
  span : Span
  deriving DecidableEq, Repr

namespace Document

variable (d : Document)

def entities : List Entity := d.items.filterMap Item.entity?

def entity? (name : String) : Option Entity := d.entities.find? (·.name.text == name)

/-- All blank lines and comments outside the entities, one after the other. -/
def triviaText : String := String.join (d.items.filterMap Item.trivia?)

def isEmpty : Bool := d.items.isEmpty

end Document

end EntityModels
