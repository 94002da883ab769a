import EntityModels.Tree.Document

namespace EntityModels

def Ident.mapSpan {kind : IdentKind} (f : Span → Span) (name : Ident kind) : Ident kind :=
  { name with span := f name.span }

def FieldType.mapSpan (f : Span → Span) (type : FieldType) : FieldType :=
  { type with typeName := type.typeName.mapSpan f, span := f type.span }

def Field.mapSpan (f : Span → Span) (field : Field) : Field :=
  { field with
    name := field.name.mapSpan f, type := field.type.mapSpan f, span := f field.span }

def Derive.mapSpan (f : Span → Span) (clause : Derive) : Derive :=
  ⟨clause.classNames.map (Ident.mapSpan f), f clause.span⟩

def Primary.mapSpan (f : Span → Span) (clause : Primary) : Primary :=
  ⟨clause.fieldNames.map (Ident.mapSpan f), f clause.span⟩

def Foreign.mapSpan (f : Span → Span) (clause : Foreign) : Foreign :=
  ⟨clause.target.mapSpan f, clause.fieldNames.map (Ident.mapSpan f), f clause.span⟩

def Unique.mapSpan (f : Span → Span) (clause : Unique) : Unique :=
  ⟨clause.name.mapSpan f, clause.fieldNames.map (Ident.mapSpan f), f clause.span⟩

def BlankLine.mapSpan (f : Span → Span) (line : BlankLine) : BlankLine :=
  { line with span := f line.span }

def CommentLine.mapSpan (f : Span → Span) (line : CommentLine) : CommentLine :=
  { line with span := f line.span }

def Member.mapSpan (f : Span → Span) : Member → Member
  | field node => field (node.mapSpan f)
  | derive node => derive (node.mapSpan f)
  | primary node => primary (node.mapSpan f)
  | foreign node => foreign (node.mapSpan f)
  | unique node => unique (node.mapSpan f)
  | blank node => blank (node.mapSpan f)
  | comment node => comment (node.mapSpan f)

def Entity.mapSpan (f : Span → Span) (e : Entity) : Entity :=
  { e with
    name := e.name.mapSpan f, members := e.members.map (Member.mapSpan f), span := f e.span }

def Item.mapSpan (f : Span → Span) : Item → Item
  | entity node => entity (node.mapSpan f)
  | blank node => blank (node.mapSpan f)
  | comment node => comment (node.mapSpan f)

def Document.mapSpan (f : Span → Span) (d : Document) : Document :=
  ⟨d.items.map (Item.mapSpan f), f d.span⟩

variable (f g : Span → Span)

@[simp] theorem Ident.mapSpan_mapSpan {kind : IdentKind} (name : Ident kind) :
    (name.mapSpan f).mapSpan g = name.mapSpan (g ∘ f) := rfl

theorem Ident.mapSpan_comp {kind : IdentKind} :
    (mapSpan g : Ident kind → Ident kind) ∘ mapSpan f = mapSpan (g ∘ f) := rfl

@[simp] theorem Member.mapSpan_mapSpan (m : Member) :
    (m.mapSpan f).mapSpan g = m.mapSpan (g ∘ f) := by
  cases m <;>
    simp [Member.mapSpan, Field.mapSpan, FieldType.mapSpan, Derive.mapSpan, Primary.mapSpan,
      Foreign.mapSpan, Unique.mapSpan, BlankLine.mapSpan, CommentLine.mapSpan, Ident.mapSpan_comp]

@[simp] theorem Member.mapSpan_span (m : Member) : (m.mapSpan f).span = f m.span := by
  cases m <;> rfl

@[simp] theorem Entity.mapSpan_mapSpan (e : Entity) :
    (e.mapSpan f).mapSpan g = e.mapSpan (g ∘ f) := by
  simp [Entity.mapSpan]

@[simp] theorem Item.mapSpan_mapSpan (i : Item) :
    (i.mapSpan f).mapSpan g = i.mapSpan (g ∘ f) := by
  cases i <;> simp [Item.mapSpan, BlankLine.mapSpan, CommentLine.mapSpan]

@[simp] theorem Item.mapSpan_span (i : Item) : (i.mapSpan f).span = f i.span := by
  cases i <;> rfl

end EntityModels
