import EntityModels.Proofs.Text.Extent
import EntityModels.Tree.Visit

namespace EntityModels

/-- The spans lie one behind the other between two locations. -/
def InOrder : Location → List Span → Location → Prop
  | a, [], b => a ≤ b
  | a, span :: spans, b => a ≤ span.start ∧ span.start ≤ span.stop ∧ InOrder span.stop spans b

namespace InOrder

variable {a a' b b' c : Location} {spans more : List Span}

theorem le (h : InOrder a spans b) : a ≤ b := by
  induction spans generalizing a with
  | nil => exact h
  | cons span spans ih =>
    obtain ⟨hstart, hspan, hrest⟩ := h
    exact Location.le_trans hstart (Location.le_trans hspan (ih hrest))

theorem of_le (h : a ≤ a') (k : InOrder a' spans b) : InOrder a spans b := by
  cases spans with
  | nil => exact Location.le_trans h k
  | cons span spans => exact ⟨Location.le_trans h k.1, k.2⟩

theorem append (h : InOrder a spans b) (k : InOrder b more c) : InOrder a (spans ++ more) c := by
  induction spans generalizing a with
  | nil => exact k.of_le h
  | cons span spans ih => exact ⟨h.1, h.2.1, ih h.2.2⟩

end InOrder

structure Member.Nested (m : Member) : Prop where
  parts : InOrder m.span.start (m.parts.map Visit.span) m.span.stop
  type : ∀ f ∈ m.field?, InOrder f.type.span.start [f.type.typeName.span] f.type.span.stop

structure Entity.Nested (e : Entity) : Prop where
  parts : InOrder e.span.start (e.name.span :: e.members.map Member.span) e.span.stop
  members : ∀ m ∈ e.members, m.Nested

def Item.Nested : Item → Prop
  | entity e => e.Nested
  | blank line => line.span.start ≤ line.span.stop
  | comment line => line.span.start ≤ line.span.stop

structure Document.Nested (d : Document) : Prop where
  parts : InOrder d.span.start (d.items.map Item.span) d.span.stop
  items : ∀ item ∈ d.items, item.Nested

/-- A walk that begins its nodes one after the other, between two locations. -/
structure Ordered (a : Location) (visits : List Visit) (b : Location) : Prop where
  within : ∀ v ∈ visits, a ≤ v.span.start ∧ v.span.start ≤ b
  ascends : (visits.map fun v ↦ v.span.start).Pairwise (· ≤ ·)

namespace Ordered

variable {a b : Location} {visits : List Visit}

theorem nil (a b : Location) : Ordered a [] b := ⟨List.forall_mem_nil _, .nil⟩

theorem cons (kind : NodeKind) {span : Span} (h : Ordered span.start visits b)
    (hb : span.start ≤ b) : Ordered span.start (⟨kind, span⟩ :: visits) b := by
  refine ⟨List.forall_mem_cons.2 ⟨⟨Location.le_refl _, hb⟩, h.within⟩, ?_⟩
  refine List.pairwise_cons.2 ⟨fun l hl ↦ ?_, h.ascends⟩
  obtain ⟨w, hw, rfl⟩ := List.mem_map.1 hl
  exact (h.within w hw).1

theorem append {c : Location} {more : List Visit} (h : Ordered a visits b) (k : Ordered b more c)
    (hab : a ≤ b) (hbc : b ≤ c) : Ordered a (visits ++ more) c := by
  constructor
  · refine List.forall_mem_append.2 ⟨fun v hv ↦ ?_, fun v hv ↦ ?_⟩
    · exact ⟨(h.within v hv).1, Location.le_trans (h.within v hv).2 hbc⟩
    · exact ⟨Location.le_trans hab (k.within v hv).1, (k.within v hv).2⟩
  · rw [List.map_append]
    refine List.pairwise_append.2 ⟨h.ascends, k.ascends, fun l hl l' hl' ↦ ?_⟩
    obtain ⟨v, hv, rfl⟩ := List.mem_map.1 hl
    obtain ⟨w, hw, rfl⟩ := List.mem_map.1 hl'
    exact Location.le_trans (h.within v hv).2 (k.within w hw).1

theorem of_le {a' : Location} (h : a' ≤ a) (k : Ordered a visits b) : Ordered a' visits b :=
  ⟨fun v hv ↦ ⟨Location.le_trans h (k.within v hv).1, (k.within v hv).2⟩, k.ascends⟩

theorem flatMap {α : Type} {nodes : List α} {span : α → Span} {walk : α → List Visit}
    (h : InOrder a (nodes.map span) b)
    (hwalk : ∀ node ∈ nodes, (span node).start ≤ (span node).stop →
      Ordered (span node).start (walk node) (span node).stop) :
    Ordered a (nodes.flatMap walk) b := by
  induction nodes generalizing a with
  | nil => exact .nil a b
  | cons node nodes ih =>
    obtain ⟨hstart, hspan, hrest⟩ := h
    have htail := ih hrest fun n hn ↦ hwalk n (List.mem_cons_of_mem node hn)
    exact ((hwalk node List.mem_cons_self hspan).append htail hspan hrest.le).of_le hstart

end Ordered

theorem Member.Nested.ordered {m : Member} (h : m.Nested) :
    Ordered m.span.start m.visits m.span.stop := by
  have hparts : Ordered m.span.start (m.parts.flatMap fun v ↦ [v]) m.span.stop :=
    .flatMap h.parts fun v _ hv ↦ (Ordered.nil _ _).cons v.kind hv
  rw [List.flatMap_singleton'] at hparts
  exact hparts.cons m.nodeKind h.parts.le

theorem Entity.Nested.ordered {e : Entity} (h : e.Nested) :
    Ordered e.span.start e.visits e.span.stop := by
  obtain ⟨hstart, hname, hrest⟩ := h.parts
  have hmembers : Ordered e.name.span.stop (e.members.flatMap Member.visits) e.span.stop :=
    .flatMap hrest fun m hm _ ↦ (h.members m hm).ordered
  have hwalk : Ordered e.name.span.start (e.name.visit :: e.members.flatMap Member.visits)
      e.span.stop := (hmembers.of_le hname).cons _ (Location.le_trans hname hrest.le)
  exact (hwalk.of_le hstart).cons .entity h.parts.le

theorem Item.Nested.ordered {item : Item} (h : item.Nested) :
    Ordered item.span.start item.visits item.span.stop := by
  cases item with
  | entity e => exact Entity.Nested.ordered h
  | blank line => exact (Ordered.nil _ _).cons .blankLine h
  | comment line => exact (Ordered.nil _ _).cons .commentLine h

theorem Document.Nested.ordered {d : Document} (h : d.Nested) :
    Ordered d.span.start d.visits d.span.stop := by
  have hitems : Ordered d.span.start (d.items.flatMap Item.visits) d.span.stop :=
    .flatMap h.parts fun item hi _ ↦ (h.items item hi).ordered
  exact hitems.cons .document h.parts.le

def Member.visit (m : Member) : Visit := ⟨m.nodeKind, m.span⟩

def Item.visit (item : Item) : Visit := ⟨item.nodeKind, item.span⟩

def Member.clauseName? : Member → Option TypeName
  | foreign clause => some clause.target
  | unique clause => some clause.name
  | _ => none

def Member.listed : Member → List Visit
  | derive clause => clause.classNames.map Ident.visit
  | primary clause => clause.fieldNames.map Ident.visit
  | foreign clause => clause.fieldNames.map Ident.visit
  | unique clause => clause.fieldNames.map Ident.visit
  | _ => []

def Document.members (d : Document) : List Member := d.entities.flatMap Entity.members

/-- All nodes, sorted by what they are in the tree. -/
def Document.nodes (d : Document) : List Visit :=
  ⟨.document, d.span⟩ ::
    (d.items.map Item.visit ++ d.entities.map (fun e ↦ e.name.visit) ++
      d.members.map Member.visit ++
      (d.members.filterMap Member.field?).map (fun f ↦ f.name.visit) ++
      (d.members.filterMap Member.field?).map (fun f ↦ ⟨.fieldType, f.type.span⟩) ++
      (d.members.filterMap Member.clauseName?).map Ident.visit ++ d.members.flatMap Member.listed)

theorem Member.visits_perm (ms : List Member) : (ms.flatMap visits).Perm
    (ms.map visit ++ (ms.filterMap field?).map (fun f ↦ f.name.visit) ++
      (ms.filterMap field?).map (fun f ↦ ⟨.fieldType, f.type.span⟩) ++
      (ms.filterMap clauseName?).map Ident.visit ++ ms.flatMap listed) := by
  rw [List.perm_iff_count]
  intro v
  induction ms with
  | nil => rfl
  | cons m ms ih =>
    cases m <;>
      simp [visits, parts, visit, listed, field?, clauseName?, List.filterMap_cons,
        List.count_cons] at ih ⊢ <;>
        omega

theorem Item.visits_perm (items : List Item) : (items.flatMap visits).Perm
    (items.map visit ++ (items.filterMap entity?).map (fun e ↦ e.name.visit) ++
      ((items.filterMap entity?).flatMap Entity.members).flatMap Member.visits) := by
  rw [List.perm_iff_count]
  intro v
  induction items with
  | nil => rfl
  | cons item items ih =>
    cases item <;>
      simp [visits, Entity.visits, visit, nodeKind, span, entity?, List.filterMap_cons,
        List.count_cons] at ih ⊢ <;>
        omega

/-- A walk meets every node once, and nothing else. -/
theorem Document.visits_perm_nodes (d : Document) : d.visits.Perm d.nodes := by
  have hmembers := (Member.visits_perm d.members).append_left
    (d.items.map Item.visit ++ d.entities.map fun e ↦ e.name.visit)
  refine .cons _ (((Item.visits_perm d.items).trans hmembers).trans (.of_eq ?_))
  simp only [List.append_assoc]

structure Label where
  span : Span
  text : String
  deriving DecidableEq, Repr

def Ident.label {kind : IdentKind} (name : Ident kind) : Label := ⟨name.span, name.text⟩

def Member.labels : Member → List Label
  | field f => [f.name.label, f.type.typeName.label]
  | derive clause => clause.classNames.map Ident.label
  | primary clause => clause.fieldNames.map Ident.label
  | foreign clause => clause.target.label :: clause.fieldNames.map Ident.label
  | unique clause => clause.name.label :: clause.fieldNames.map Ident.label
  | blank line => [⟨line.span, line.text⟩]
  | comment line => [⟨line.span, line.text⟩]

def Entity.labels (e : Entity) : List Label := e.name.label :: e.members.flatMap Member.labels

def Item.labels : Item → List Label
  | entity e => e.labels
  | blank line => [⟨line.span, line.text⟩]
  | comment line => [⟨line.span, line.text⟩]

def Document.labels (d : Document) : List Label := d.items.flatMap Item.labels

end EntityModels
