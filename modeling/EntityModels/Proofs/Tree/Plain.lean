import EntityModels.Proofs.Text.Spacing
import EntityModels.Proofs.Tree.Render

namespace EntityModels

def BlankLine.mapText (f : List Char → List Char) (line : BlankLine) : BlankLine :=
  { line with text := String.ofList (f line.text.toList) }

def CommentLine.mapText (f : List Char → List Char) (line : CommentLine) : CommentLine :=
  { line with text := String.ofList (f line.text.toList) }

def Member.mapText (f : List Char → List Char) : Member → Member
  | blank line => blank (line.mapText f)
  | comment line => comment (line.mapText f)
  | node => node

def Entity.mapText (f : List Char → List Char) (e : Entity) : Entity :=
  { e with members := e.members.map (Member.mapText f) }

def Item.mapText (f : List Char → List Char) : Item → Item
  | entity e => entity (e.mapText f)
  | blank line => blank (line.mapText f)
  | comment line => comment (line.mapText f)

def Document.mapText (f : List Char → List Char) (d : Document) : Document :=
  { d with items := d.items.map (Item.mapText f) }

def BlankLine.plain (line : BlankLine) : BlankLine := (line.mapSpan noSpan).mapText squeeze

def CommentLine.plain (line : CommentLine) : CommentLine := (line.mapSpan noSpan).mapText squeeze

def Member.plain (m : Member) : Member := (m.mapSpan noSpan).mapText squeeze

def Entity.plain (e : Entity) : Entity := (e.mapSpan noSpan).mapText squeeze

def Item.plain (item : Item) : Item := (item.mapSpan noSpan).mapText squeeze

def Document.plain (d : Document) : Document := (d.mapSpan noSpan).mapText squeeze

variable (place : Span → Span)

@[simp] theorem Member.plain_mapSpan (m : Member) : (m.mapSpan place).plain = m.plain := by
  rw [plain, mapSpan_mapSpan]
  rfl

@[simp] theorem Entity.plain_mapSpan (e : Entity) : (e.mapSpan place).plain = e.plain := by
  rw [plain, mapSpan_mapSpan]
  rfl

@[simp] theorem Item.plain_mapSpan (item : Item) : (item.mapSpan place).plain = item.plain := by
  rw [plain, mapSpan_mapSpan]
  rfl

end EntityModels
