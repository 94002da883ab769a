import EntityModels.Proofs.Grammar.MarkedNames
import EntityModels.Proofs.Reading.BlankEnd
import EntityModels.Proofs.Reading.Blocks
import EntityModels.Proofs.Reading.Coverage
import EntityModels.Proofs.Reading.FatalFields

namespace EntityModels

theorem Entity.GrowsTo.extend {e e' : Entity} (h : e.GrowsTo e') {m n : Member} (hm : m.GrowsTo n)
    (stop : Location) : (e.extend m stop).GrowsTo (e'.extend n stop) where
  name := h.name
  derivesJson := h.derivesJson
  sqlTableName := h.sqlTableName
  members := List.rel_append h.members (.cons hm .nil)
  span := by rw [Entity.extend, Entity.extend, h.span]

namespace Stage

/-- Both stages have the same items, one by one, but for the ends of clauses. -/
structure GrowsTo (s t : Stage) : Prop where
  complete : List.Forall₂ Item.GrowsTo s.complete t.complete
  opened : Option.Rel Entity.GrowsTo s.opened t.opened

namespace GrowsTo

variable {s t : Stage}

theorem nil : GrowsTo {} {} := ⟨.nil, .none⟩

theorem opened_cases (h : s.GrowsTo t) : (s.opened = none ∧ t.opened = none) ∨
    ∃ e e', s.opened = some e ∧ t.opened = some e' ∧ e.GrowsTo e' := by
  have hopened := h.opened
  generalize s.opened = opened, t.opened = opened' at hopened ⊢
  cases hopened with
  | none => exact .inl ⟨rfl, rfl⟩
  | some he => exact .inr ⟨_, _, rfl, rfl, he⟩

theorem items (h : s.GrowsTo t) : List.Forall₂ Item.GrowsTo s.items t.items := by
  rcases h.opened_cases with ⟨ho, ho'⟩ | ⟨e, e', ho, ho', he⟩
  · rw [Stage.items, Stage.items, ho, ho']
    exact List.rel_append h.complete .nil
  · rw [Stage.items, Stage.items, ho, ho']
    exact List.rel_append h.complete (.cons (.entity he) .nil)

theorem push (h : s.GrowsTo t) (item : Item) : (s.push item).GrowsTo (t.push item) :=
  ⟨List.rel_append h.items (.cons (.refl item) .nil), .none⟩

theorem add (h : s.GrowsTo t) (item : Item) : (s.add item).GrowsTo (t.add item) := by
  cases item with
  | entity e => exact ⟨h.items, .some (.refl e)⟩
  | blank line => exact h.push _
  | comment line => exact h.push _

end GrowsTo

end Stage

section

variable {options : Options} {line : List Char} {rest : List (List Char)}

/-- What is left of a line that is no member: an item among those that follow an entity is a header,
which is not indented. -/
theorem Member.mayStart_of_item {t : ParserState} {item : Item}
    (h : (choice options).tried (.ofText line) = .ok none t) (hi : Item.alone line = some item) :
    mayStart line = false := by
  obtain ⟨kind, -, hv⟩ := List.exists_of_findSome?_eq_some hi
  have hkind : kind = .entity := by
    by_contra hne
    rw [trivia_of_tried_none h hne] at hv
    cases hv
  subst hkind
  obtain ⟨d, hd⟩ := Reader.ok_of_value? hv
  obtain ⟨head, d', hhead, -⟩ := bind_ok hd
  have hstart : line.head?.any isTypeStart := Entity.head_start hhead
  cases line with
  | nil => cases hstart
  | cons x tail => exact mayStart_of_typeStart hstart tail

theorem Member.readAlone_of_blank (h : Blank line) : readAlone (parser options) line = none := by
  rw [Option.eq_none_iff_forall_ne_some]
  intro m hm
  obtain ⟨t, ht⟩ := tried_of_readAlone hm
  have hblank := h.lacksEnd.member_tried (s := .ofText line) options fun g hg ↦ by cases hg
  cases ht.symm.trans hblank

namespace Stage

variable {s s' t : Stage} {base : Location}

theorem member?_of_blank (h : Blank line) (place : Span → Span) (s : Stage) :
    s.member? options place line = none := by
  cases ho : s.opened with
  | none => exact member?_of_closed ho place
  | some e =>
    rw [member?_of_opened ho, Member.readAlone_of_blank h]
    rfl

theorem step_of_no_member (hl : Linewise (line :: rest)) {place : Span → Span}
    (hm : s.member? options place line = none) (hstep : s.step options place line = some s') :
    (s.opened.isSome → ∀ kind : ItemKind, kind ≠ .entity →
      kind.lineReader.value? (.ofText line) = none) ∧
    ((∃ item, Item.alone line = some item ∧ s' = s.add (item.mapSpan place) ∧
      (s.opened.isSome → Member.mayStart line = false)) ∨
    (Item.alone line = none ∧ s.trailing? options place line = some s' ∧ Blank line)) := by
  have hcases : (s.opened.isSome → ∀ kind : ItemKind, kind ≠ .entity →
      kind.lineReader.value? (.ofText line) = none) ∧
      ∀ item, Item.alone line = some item → s.opened.isSome → Member.mayStart line = false := by
    cases ho : s.opened with
    | none => exact ⟨fun h ↦ (by cases h), fun _ _ h ↦ (by cases h)⟩
    | some e =>
      have hnone := hm
      rw [member?_of_opened ho, Option.map_eq_none_iff] at hnone
      -- tried as a member the line fails for good, is one after all, or leaves it to the items
      cases hr : (Member.choice options).tried (.ofText line) with
      | error err u =>
        rw [step_of_field hl (Member.field_of_tried_error hr) hm] at hstep
        cases hstep
      | ok found u =>
        cases found with
        | some m =>
          rw [Member.readAlone_of_tried hr] at hnone
          cases hnone
        | none =>
          exact ⟨fun _ _ ↦ Member.trivia_of_tried_none hr,
            fun _ hi _ ↦ Member.mayStart_of_item hr hi⟩
  obtain ⟨htrivia, hstart⟩ := hcases
  refine ⟨htrivia, ?_⟩
  rw [step_of_item hl hm htrivia] at hstep
  cases ha : Item.alone line with
  | some item =>
    rw [ha] at hstep
    cases hstep
    exact .inl ⟨item, rfl, rfl, hstart item ha⟩
  | none =>
    rw [ha] at hstep
    have htrailing : s.trailing? options place line = some s' := hstep
    obtain ⟨-, hne, hall, -⟩ := trailing?_eq_some_iff.1 htrailing
    exact .inr ⟨rfl, htrailing, hne, hall⟩

theorem member?_marked (h : s.GrowsTo t)
    (hm : s.member? options.unmarked (Span.within base) line = some s') :
    ∃ t', t.member? options.marked (Span.within base) line = some t' ∧ s'.GrowsTo t' := by
  obtain ⟨e, m, ho, hr, rfl⟩ := member?_eq_some hm
  obtain ⟨n, hn, hgrows⟩ := Member.readAlone_marked hr
  rcases h.opened_cases with ⟨hnone, -⟩ | ⟨e₁, e', ho₁, ho', he⟩
  · rw [ho] at hnone
    cases hnone
  · cases ho.symm.trans ho₁
    rw [member?_of_opened ho', hn]
    exact ⟨_, rfl, h.complete, .some (he.extend (hgrows.within base) _)⟩

theorem member?_marked_none (hl : Linewise (line :: rest)) (h : s.GrowsTo t) {place : Span → Span}
    (hm : s.member? options.unmarked place line = none)
    (hstep : s.step options.unmarked place line = some s') :
    t.member? options.marked place line = none := by
  rcases (step_of_no_member hl hm hstep).2 with ⟨item, -, -, hstart⟩ | ⟨-, -, hblank⟩
  · rcases h.opened_cases with ⟨-, ho'⟩ | ⟨e, e', ho, -, -⟩
    · exact member?_of_closed ho' place
    · exact member?_of_mayStart (hstart (by rw [ho]; rfl)) place t
  · exact member?_of_blank hblank place t

/-- With every line that the machine takes without markers it goes the same way with them. -/
theorem step_marked (hl : Linewise (line :: rest)) (h : s.GrowsTo t)
    (hstep : s.step options.unmarked (Span.within base) line = some s') :
    ∃ t', t.step options.marked (Span.within base) line = some t' ∧ s'.GrowsTo t' := by
  cases hm : s.member? options.unmarked (Span.within base) line with
  | some s'' =>
    rw [step_of_member hm] at hstep
    cases hstep
    obtain ⟨t', ht, hgrows⟩ := member?_marked h hm
    exact ⟨t', step_of_member ht, hgrows⟩
  | none =>
    have hnone := member?_marked_none hl h hm hstep
    obtain ⟨htrivia, hadded⟩ := step_of_no_member hl hm hstep
    have hopened : s.opened.isSome = t.opened.isSome := by
      rcases h.opened_cases with ⟨ho, ho'⟩ | ⟨e, e', ho, ho', -⟩
      · rw [ho, ho']
      · rw [ho, ho']
        rfl
    rw [hopened] at htrivia
    rw [step_of_item hl hnone htrivia]
    rcases hadded with ⟨item, ha, rfl, -⟩ | ⟨ha, htrailing, -⟩
    · rw [ha]
      exact ⟨_, rfl, h.add _⟩
    · rw [ha]
      obtain ⟨hblank, hne, hall, rfl⟩ := trailing?_eq_some_iff.1 htrailing
      exact ⟨_, trailing?_eq_some_iff.2 ⟨hblank, hne, hall, rfl⟩, h.push _⟩

theorem run_marked {ls : List (List Char)} {p : Position} (hls : Linewise ls) (h : s.GrowsTo t)
    (hrun : run options.unmarked inPlace p ls s = some s') :
    ∃ t', run options.marked inPlace p ls t = some t' ∧ s'.GrowsTo t' := by
  induction ls generalizing p s t with
  | nil =>
    cases hrun
    exact ⟨t, rfl, h⟩
  | cons line rest ih =>
    obtain ⟨s₁, hstep, hrun⟩ := run_cons_eq_some_iff.1 hrun
    obtain ⟨t₁, ht₁, h₁⟩ := step_marked hls h hstep
    obtain ⟨t', ht', h'⟩ := ih hls.2 h₁ hrun
    exact ⟨t', run_cons_eq_some_iff.2 ⟨t₁, ht₁, ht'⟩, h'⟩

end Stage

end

theorem Document.parse_marked {options : Options} {text : String} {d : Document}
    (h : parse options.unmarked text = .ok d) :
    ∃ g, parse options.marked text = .ok g ∧ d.GrowsTo g := by
  obtain ⟨s, hrun, rfl⟩ := parse_eq_ok_iff.1 h
  obtain ⟨t, ht, hgrows⟩ := Stage.run_marked (lines_linewise _) .nil hrun
  exact ⟨_, parse_eq_ok_iff.2 ⟨t, ht, rfl⟩, hgrows.items, rfl⟩

end EntityModels
