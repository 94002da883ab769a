import Mathlib.Data.List.Chain
import EntityModels.Proofs.Tree.Render

/-!
Which trees a reading can produce. These are the trees that can be written, but for two things: a
constraint may be named like a primary key if names in clauses can be marked, and a text may end in
a blank stretch.
-/

namespace EntityModels

def CommentLine.Produced (line : CommentLine) : Prop :=
  ∃ blanks, (∀ c ∈ blanks, isHorizontalSpace c) ∧ '\n' ∉ line.body.toList ∧
    line.text.toList = blanks ++ (Keyword.comment.toList ++ (line.body.toList ++ ['\n']))

/-- What stands at the end of a text without a line end. -/
structure BlankLine.Unended (line : BlankLine) : Prop where
  ne_nil : line.text.toList ≠ []
  blank : ∀ c ∈ line.text.toList, isHorizontalSpace c

/-- Without marks in front of names, a line that could be a primary key is none of the
constraints. -/
def Member.Produced (marked : Bool) : Member → Prop
  | field f => f.WellFormed
  | derive clause => IdentKind.NamesAll clause.classNames
  | primary clause => IdentKind.NamesAll clause.fieldNames
  | foreign clause => IdentKind.type.Names clause.target.text ∧ IdentKind.NamesAll clause.fieldNames
  | unique clause => IdentKind.type.Names clause.name.text ∧
      (marked = false → clause.name.text ≠ Keyword.primary) ∧ IdentKind.NamesAll clause.fieldNames
  | blank line => line.WellFormed
  | comment line => line.Produced

structure Entity.Produced (marked : Bool) (e : Entity) : Prop where
  name : IdentKind.type.Names e.name.text
  sqlTableName : ∀ text ∈ e.sqlTableName, Setting.Writable text
  members : ∀ m ∈ e.members, m.Produced marked

def Item.Produced (marked : Bool) : Item → Prop
  | entity e => e.Produced marked
  | blank line => line.WellFormed
  | comment line => line.Produced

/-- Directly behind an entity stands nothing but another entity. -/
def EntitiesLast (items : List Item) : Prop :=
  items.IsChain fun a b ↦ a.kind = .entity → b.kind = .entity

theorem CommentLine.body_eq (line : CommentLine) {blanks body : List Char}
    (hblanks : ∀ c ∈ blanks, isHorizontalSpace c)
    (h : line.text.toList = blanks ++ (Keyword.comment.toList ++ (body ++ ['\n']))) :
    line.body = String.ofList body := by
  have hdrop : line.text.toList.dropWhile isHorizontalSpace =
      Keyword.comment.toList ++ (body ++ ['\n']) := by
    rw [h, List.dropWhile_append_of_pos hblanks]
    rfl
  have hprefix : Keyword.comment.toList.isPrefixOf? (Keyword.comment.toList ++ (body ++ ['\n'])) =
      some (body ++ ['\n']) := isPrefixOf?_eq_some_iff.2 rfl
  rw [CommentLine.body, hdrop, hprefix, Option.getD_some, List.getLast?_concat, if_pos rfl,
    List.dropLast_concat]

theorem CommentLine.WellFormed.produced {line : CommentLine} (h : line.WellFormed) :
    line.Produced := by
  obtain ⟨blanks, body, hblanks, hnl, htext⟩ := h
  refine ⟨blanks, hblanks, ?_⟩
  rw [line.body_eq hblanks htext, String.toList_ofList]
  exact ⟨hnl, htext⟩

section

variable (f : Span → Span) {marked : Bool}

theorem IdentKind.NamesAll.mapSpan {kind : IdentKind} {names : List (Ident kind)}
    (h : IdentKind.NamesAll names) : IdentKind.NamesAll (names.map (Ident.mapSpan f)) := by
  refine ⟨mt List.map_eq_nil_iff.1 h.1, fun name hname ↦ ?_⟩
  obtain ⟨name, hmem, rfl⟩ := List.mem_map.1 hname
  exact h.2 name hmem

theorem Member.Produced.mapSpan {m : Member} (h : m.Produced marked) :
    (m.mapSpan f).Produced marked := by
  cases m with
  | field node => exact ⟨h.name, h.type, h.defaultValue, h.sqlRow, h.sqlType, h.maxLen⟩
  | derive clause => exact IdentKind.NamesAll.mapSpan f h
  | primary clause => exact IdentKind.NamesAll.mapSpan f h
  | foreign clause => exact ⟨h.1, h.2.mapSpan f⟩
  | unique clause => exact ⟨h.1, h.2.1, h.2.2.mapSpan f⟩
  | blank line => exact h
  | comment line => exact h

theorem Entity.Produced.mapSpan {e : Entity} (h : e.Produced marked) :
    (e.mapSpan f).Produced marked := by
  refine ⟨h.name, h.sqlTableName, fun m hm ↦ ?_⟩
  obtain ⟨m, hmem, rfl⟩ := List.mem_map.1 hm
  exact (h.members m hmem).mapSpan f

theorem Item.Produced.mapSpan {item : Item} (h : item.Produced marked) :
    (item.mapSpan f).Produced marked := by
  cases item with
  | entity e => exact Entity.Produced.mapSpan f h
  | blank line => exact h
  | comment line => exact h

theorem Item.mapSpan_kind (item : Item) : (item.mapSpan f).kind = item.kind := by
  cases item <;> rfl

theorem EntitiesLast.mapSpan {items : List Item} (h : EntitiesLast items) :
    EntitiesLast (items.map (Item.mapSpan f)) := by
  refine (List.isChain_map _).2 (h.imp fun a b hab ↦ ?_)
  rwa [Item.mapSpan_kind, Item.mapSpan_kind]

end

end EntityModels
