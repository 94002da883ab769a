import Mathlib.Data.List.Forall2
import EntityModels.Proofs.Text.Relocation
import EntityModels.Proofs.Tree.Respan

namespace EntityModels

/-- Both are the same, or clauses of one kind in one place: they agree up to their list of names,
and the list of the second one begins with that of the first. -/
inductive Member.GrowsTo : Member → Member → Prop
  | same (m : Member) : GrowsTo m m
  | derive {a b : Derive} (classNames : a.classNames <+: b.classNames)
      (start : a.span.start = b.span.start) : GrowsTo (.derive a) (.derive b)
  | primary {a b : Primary} (fieldNames : a.fieldNames <+: b.fieldNames)
      (start : a.span.start = b.span.start) : GrowsTo (.primary a) (.primary b)
  | foreign {a b : Foreign} (target : a.target = b.target)
      (fieldNames : a.fieldNames <+: b.fieldNames) (start : a.span.start = b.span.start) :
      GrowsTo (.foreign a) (.foreign b)
  | unique {a b : Unique} (name : a.name = b.name) (fieldNames : a.fieldNames <+: b.fieldNames)
      (start : a.span.start = b.span.start) : GrowsTo (.unique a) (.unique b)

structure Entity.GrowsTo (e e' : Entity) : Prop where
  name : e.name = e'.name
  derivesJson : e.derivesJson = e'.derivesJson
  sqlTableName : e.sqlTableName = e'.sqlTableName
  members : List.Forall₂ Member.GrowsTo e.members e'.members
  span : e.span = e'.span

inductive Item.GrowsTo : Item → Item → Prop
  | entity {e e' : Entity} (h : e.GrowsTo e') : GrowsTo (.entity e) (.entity e')
  | blank (line : BlankLine) : GrowsTo (.blank line) (.blank line)
  | comment (line : CommentLine) : GrowsTo (.comment line) (.comment line)

/-- The documents have the same items and members, one by one, but for the ends of clauses. -/
structure Document.GrowsTo (d d' : Document) : Prop where
  items : List.Forall₂ Item.GrowsTo d.items d'.items
  span : d.span = d'.span

theorem Entity.GrowsTo.refl (e : Entity) : e.GrowsTo e :=
  ⟨rfl, rfl, rfl, List.forall₂_same.2 fun m _ ↦ .same m, rfl⟩

theorem Item.GrowsTo.refl (item : Item) : item.GrowsTo item := by
  cases item with
  | entity e => exact .entity (.refl e)
  | blank line => exact .blank line
  | comment line => exact .comment line

theorem Member.GrowsTo.within {m n : Member} (h : m.GrowsTo n) (base : Location) :
    (m.mapSpan (Span.within base)).GrowsTo (n.mapSpan (Span.within base)) := by
  cases h with
  | same => exact .same _
  | derive hnames hstart => exact .derive (hnames.map _) (congrArg base.within hstart)
  | primary hnames hstart => exact .primary (hnames.map _) (congrArg base.within hstart)
  | foreign htarget hnames hstart =>
    exact .foreign (congrArg (Ident.mapSpan _) htarget) (hnames.map _) (congrArg base.within hstart)
  | unique hname hnames hstart =>
    exact .unique (congrArg (Ident.mapSpan _) hname) (hnames.map _) (congrArg base.within hstart)

end EntityModels
