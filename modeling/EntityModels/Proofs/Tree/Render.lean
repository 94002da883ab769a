import EntityModels.Grammar.Modifier
import EntityModels.Proofs.Tree.Respan

namespace EntityModels

/-- A text that can stand as a name of the kind. -/
structure IdentKind.Names (kind : IdentKind) (text : String) : Prop where
  starts : text.toList.head?.any kind.starts
  continues : ∀ c ∈ text.toList, isIdentChar c
  free : text ∉ kind.reserved

/-- At least one name, and each of them right. -/
def IdentKind.NamesAll {kind : IdentKind} (names : List (Ident kind)) : Prop :=
  names ≠ [] ∧ ∀ name ∈ names, kind.Names name.text

structure Setting.Writable (text : String) : Prop where
  ne_nil : text.toList ≠ []
  continues : ∀ c ∈ text.toList, isIdentChar c

structure Field.WellFormed (f : Field) : Prop where
  name : IdentKind.field.Names f.name.text
  type : IdentKind.type.Names f.type.typeName.text
  defaultValue : ∀ text ∈ f.defaultValue, Setting.Writable text
  sqlRow : ∀ text ∈ f.sqlRow, Setting.Writable text
  sqlType : ∀ text ∈ f.sqlType, Setting.Writable text
  maxLen : ∀ n ∈ f.maxLen, n < 0x8000000000000000

def BlankLine.WellFormed (line : BlankLine) : Prop :=
  ∃ blanks, (∀ c ∈ blanks, isHorizontalSpace c) ∧ line.text.toList = blanks ++ ['\n']

def CommentLine.WellFormed (line : CommentLine) : Prop :=
  ∃ blanks body, (∀ c ∈ blanks, isHorizontalSpace c) ∧ '\n' ∉ body ∧
    line.text.toList = blanks ++ (Keyword.comment.toList ++ (body ++ ['\n']))

def Member.WellFormed : Member → Prop
  | field f => f.WellFormed
  | derive clause => IdentKind.NamesAll clause.classNames
  | primary clause => IdentKind.NamesAll clause.fieldNames
  | foreign clause => IdentKind.type.Names clause.target.text ∧ IdentKind.NamesAll clause.fieldNames
  | unique clause => IdentKind.type.Names clause.name.text ∧ clause.name.text ≠ Keyword.primary ∧
      IdentKind.NamesAll clause.fieldNames
  | blank line => line.WellFormed
  | comment line => line.WellFormed

structure Entity.WellFormed (e : Entity) : Prop where
  name : IdentKind.type.Names e.name.text
  sqlTableName : ∀ text ∈ e.sqlTableName, Setting.Writable text
  members : ∀ m ∈ e.members, m.WellFormed

def Item.WellFormed : Item → Prop
  | entity e => e.WellFormed
  | blank line => line.WellFormed
  | comment line => line.WellFormed

/-- Blank lines and comments behind an entity are members of it, so none is an item there. -/
structure Document.WellFormed (d : Document) : Prop where
  items : ∀ item ∈ d.items, item.WellFormed
  apart : ∀ before e item after, d.items = before ++ .entity e :: item :: after →
    item.kind = .entity

def indent : List Char := [' ', ' ']

/-- Words, each behind a space. -/
def spaced {α : Type} (render : α → List Char) (words : List α) : List Char :=
  words.flatMap fun word ↦ ' ' :: render word

def Ident.render {kind : IdentKind} (name : Ident kind) : List Char := name.text.toList

def Strictness.render : Strictness → List Char
  | strict => []
  | explicitStrict => ['!']
  | lazy => ['~']

def FieldType.render (type : FieldType) : List Char :=
  (if type.isList then ['['] else []) ++ type.strictness.render ++ type.typeName.text.toList ++
    (if type.isList then [']'] else []) ++
      (if type.isMaybe then ' ' :: Keyword.maybe.toList else [])

def Flag.render (flag : Flag × Unit) : List Char := flag.1.keyword.toList

def Setting.Value.render : Value → List Char
  | text t => t.toList
  | integer n => Nat.toDigits 10 n

def Setting.render (setting : Setting × Value) : List Char :=
  setting.1.keyword.toList ++ '=' :: setting.2.render

namespace Field

variable (f : Field)

def flags : List (Flag × Unit) :=
  (if f.migrationOnly then [(.migrationOnly, ())] else []) ++
    (if f.safeToRemove then [(.safeToRemove, ())] else [])

def settings : List (Setting × Setting.Value) :=
  f.defaultValue.toList.map (fun text ↦ (.default, .text text)) ++
    f.sqlRow.toList.map (fun text ↦ (.sql, .text text)) ++
      f.sqlType.toList.map (fun text ↦ (.sqlType, .text text)) ++
        f.maxLen.toList.map fun n ↦ (.maxLen, .integer n)

def render : List Char :=
  indent ++ f.name.text.toList ++ ' ' :: f.type.render ++ spaced Flag.render f.flags ++
    spaced Setting.render f.settings ++ ['\n']

end Field

def Member.render : Member → List Char
  | field f => f.render
  | derive clause =>
    indent ++ Keyword.derive.toList ++ spaced Ident.render clause.classNames ++ ['\n']
  | primary clause =>
    indent ++ Keyword.primary.toList ++ spaced Ident.render clause.fieldNames ++ ['\n']
  | foreign clause =>
    indent ++ Keyword.foreign.toList ++ ' ' :: clause.target.text.toList ++
      spaced Ident.render clause.fieldNames ++ ['\n']
  | unique clause =>
    indent ++ clause.name.text.toList ++ spaced Ident.render clause.fieldNames ++ ['\n']
  | blank line => line.text.toList
  | comment line => line.text.toList

def Entity.renderTable (table : Option String) : List Char :=
  table.elim [] fun text ↦ ' ' :: Keyword.sql.toList ++ '=' :: text.toList

def Entity.renderHeader (e : Entity) : List Char :=
  e.name.text.toList ++ (if e.derivesJson then ' ' :: Keyword.json.toList else []) ++
    renderTable e.sqlTableName ++ ['\n']

def Item.renderLines : Item → List (List Char)
  | entity e => e.renderHeader :: e.members.map Member.render
  | blank line => [line.text.toList]
  | comment line => [line.text.toList]

def Document.render (d : Document) : String :=
  String.ofList (d.items.flatMap Item.renderLines).flatten

def Span.nowhere : Span := ⟨⟨1, 1⟩, ⟨1, 1⟩⟩

def noSpan (_ : Span) : Span := .nowhere

theorem Ident.mapSpan_noSpan {kind : IdentKind} {name other : Ident kind}
    (h : name.text = other.text) : name.mapSpan noSpan = other.mapSpan noSpan := by
  obtain ⟨text, span⟩ := name
  obtain rfl : text = other.text := h
  rfl

theorem Ident.map_mapSpan_noSpan {kind : IdentKind} {names others : List (Ident kind)}
    (h : names.map Ident.text = others.map Ident.text) :
    names.map (Ident.mapSpan noSpan) = others.map (Ident.mapSpan noSpan) := by
  have hmap (names : List (Ident kind)) : names.map (Ident.mapSpan noSpan) =
      (names.map Ident.text).map fun text ↦ ⟨text, .nowhere⟩ := by
    rw [List.map_map]
    rfl
  rw [hmap, hmap, h]

end EntityModels
