import EntityModels.Proofs.Grammar.Commitment
import EntityModels.Proofs.Grammar.Trivia
import EntityModels.Proofs.Parsing.Placed
import EntityModels.Proofs.Parsing.Returns

namespace EntityModels

variable {c d : Cursor}

namespace Reader

variable {marked : Bool} {kind : IdentKind} {expected : String}

theorem ident_placed {name : Ident kind} (h : ident kind expected c = .ok name d) :
    Placed c d [name.span] [name.label] := by
  obtain ⟨hrest, hd, -⟩ := written_of_ident h
  have hspan : name.span = c.position.spanTo d.position := by
    obtain ⟨-, rfl, rfl⟩ := ident_ok.1 h
    rfl
  rw [Ident.label, hspan]
  exact .text hrest hd

theorem clauseIdent_placed {name : Ident kind}
    (h : clauseIdent marked kind expected c = .ok name d) :
    Placed c d [name.span] [name.label] := by
  obtain ⟨u, c₁, hmarker, hname⟩ := bind_ok h
  exact (ident_placed hname).behind ((strayMarker_forward marked).leads hmarker)

theorem listedIdent_placed {name : Ident kind}
    (h : listedIdent marked kind expected c = .ok name d) :
    Placed c d [name.span] [name.label] := by
  obtain ⟨u, c₁, hspace, hname⟩ := bind_ok h
  exact (clauseIdent_placed hname).behind ((expectSpace_forward _).leads hspace)

theorem ok_of_orNone {α : Type} {r : Reader α} {a : α} (h : orNone r c = .ok (some a) d) :
    r c = .ok a d := by
  unfold orNone at h
  split at h
  · next hr =>
    cases h
    exact hr
  · cases h

theorem names_placed {given : List (Ident kind)} (h : names marked kind expected c = .ok given d) :
    Placed c d (given.map Ident.span) (given.map Ident.label) := by
  obtain ⟨first, c₁, hfirst, hmore⟩ := bind_ok h
  obtain ⟨more, c₂, hcollect, hgiven⟩ := bind_ok hmore
  cases hgiven
  have hplaced : Placed c₁ d (more.map Ident.span) (more.flatMap fun name ↦ [name.label]) :=
    collect_placed (fun _ _ _ hs ↦ listedIdent_placed (ok_of_orNone hs)) hcollect
  rw [← List.map_eq_flatMap] at hplaced
  exact (listedIdent_placed hfirst).append hplaced

end Reader

theorem FieldType.placed {type : FieldType} (h : reader c = .ok type d) :
    Placed c d [type.span] [type.typeName.label] ∧
      InOrder type.span.start [type.typeName.span] type.span.stop := by
  obtain ⟨start, c₀, h₀, hopen⟩ := bind_ok h
  obtain ⟨isList, c₁, h₁, hmarker⟩ := bind_ok hopen
  obtain ⟨marker, c₂, h₂, hname⟩ := bind_ok hmarker
  obtain ⟨name, c₃, h₃, hclose⟩ := bind_ok hname
  obtain ⟨u, c₄, h₄, hmaybe⟩ := bind_ok hclose
  obtain ⟨isMaybe, c₅, h₅, hstop⟩ := bind_ok hmaybe
  obtain ⟨stop, c₆, h₆, hnode⟩ := bind_ok hstop
  cases h₀
  cases h₆
  cases hnode
  have hopened : c.LeadsTo c₂ := ((Forward.literal _).leads h₁).trans
    (Reader.marker_forward.leads h₂)
  have hclosed : c₃.LeadsTo d := ((closeBracket_forward _).leads h₄).trans
    (maybeSuffix_forward.leads h₅)
  have hinner := ((Reader.ident_placed (Reader.committedIf_ok h₃)).behind hopened).before hclosed
  exact ⟨hinner.wrap, hinner.inOrder⟩

theorem Field.placed {f : Field} (h : reader c = .ok f d) :
    Placed c d [f.span] [f.name.label, f.type.typeName.label] ∧
      InOrder f.span.start [f.name.span, f.type.span] f.span.stop ∧
      InOrder f.type.span.start [f.type.typeName.span] f.type.span.stop := by
  obtain ⟨u₁, c₁, h₁, hstart⟩ := bind_ok h
  obtain ⟨start, c₂, h₂, hname⟩ := bind_ok hstart
  obtain ⟨name, c₃, h₃, hspace⟩ := bind_ok hname
  obtain ⟨u₂, c₄, h₄, htype⟩ := bind_ok hspace
  obtain ⟨type, c₅, h₅, hflags⟩ := bind_ok htype
  obtain ⟨flags, c₆, h₆, hsettings⟩ := bind_ok hflags
  obtain ⟨settings, c₇, h₇, hstop⟩ := bind_ok hsettings
  obtain ⟨stop, c₈, h₈, hfinish⟩ := bind_ok hstop
  obtain ⟨u₃, c₉, h₉, hnode⟩ := bind_ok hfinish
  cases h₂
  cases h₈
  cases hnode
  obtain ⟨htyped, hnested⟩ := FieldType.placed h₅
  have hmodifiers : c₅.LeadsTo c₇ :=
    ((Reader.modifiers_forward Flag.reader_forward _).leads h₆).trans
      ((Reader.modifiers_forward Setting.reader_forward _).leads h₇)
  have hinner := ((Reader.ident_placed h₃).append
    (htyped.behind ((Reader.expectSpace_forward _).leads h₄))).before hmodifiers
  exact ⟨(hinner.wrap.behind ((Reader.expectSpace_forward _).leads h₁)).before
    (Reader.finishLine_forward.leads h₉), hinner.inOrder, hnested⟩

namespace Reader

variable {α : Type} {kind : IdentKind} {a : α} {marked : Bool} {expected : String}

/-- How clauses end: with names, of which the span of the clause has the last. -/
theorem namesThenEnd_ok {node : List (Ident kind) → Position → α}
    (h : namesThenEnd marked kind expected node c = .ok a d) :
    ∃ given c₁, a = node given c₁.position ∧
      Placed c c₁ (given.map Ident.span) (given.map Ident.label) ∧ c₁.LeadsTo d := by
  obtain ⟨given, c₁, hnames, hstop⟩ := bind_ok h
  obtain ⟨stop, c₂, hposition, hfinish⟩ := bind_ok hstop
  obtain ⟨u, c₃, hline, hnode⟩ := bind_ok hfinish
  cases hposition
  cases hnode
  exact ⟨given, c₁, rfl, names_placed hnames, finishLine_forward.leads hline⟩

end Reader

variable {marked : Bool}

theorem Derive.placed {clause : Derive} (h : reader marked c = .ok clause d) :
    Placed c d [clause.span] (clause.classNames.map Ident.label) ∧
      InOrder clause.span.start (clause.classNames.map Ident.span) clause.span.stop := by
  obtain ⟨u, c₁, h₁, hstart⟩ := bind_ok h
  obtain ⟨start, c₂, h₂, hword⟩ := bind_ok hstart
  obtain ⟨w, c₃, h₃, hnames⟩ := bind_ok hword
  obtain ⟨given, c₄, rfl, hplaced, hline⟩ := Reader.namesThenEnd_ok hnames
  cases h₂
  have hinner := hplaced.behind ((Reader.keyword_forward _).leads h₃)
  exact ⟨(hinner.wrap.behind ((Reader.expectSpace_forward _).leads h₁)).before hline,
    hinner.inOrder⟩

theorem Primary.placed {clause : Primary} (h : reader marked c = .ok clause d) :
    Placed c d [clause.span] (clause.fieldNames.map Ident.label) ∧
      InOrder clause.span.start (clause.fieldNames.map Ident.span) clause.span.stop := by
  obtain ⟨u, c₁, h₁, hstart⟩ := bind_ok h
  obtain ⟨start, c₂, h₂, hword⟩ := bind_ok hstart
  obtain ⟨w, c₃, h₃, hnames⟩ := bind_ok hword
  obtain ⟨given, c₄, rfl, hplaced, hline⟩ := Reader.namesThenEnd_ok hnames
  cases h₂
  have hinner := hplaced.behind ((Reader.keyword_forward _).leads h₃)
  exact ⟨(hinner.wrap.behind ((Reader.expectSpace_forward _).leads h₁)).before hline,
    hinner.inOrder⟩

theorem Foreign.placed {clause : Foreign} (h : reader marked c = .ok clause d) :
    Placed c d [clause.span] (clause.target.label :: clause.fieldNames.map Ident.label) ∧
      InOrder clause.span.start (clause.target.span :: clause.fieldNames.map Ident.span)
        clause.span.stop := by
  obtain ⟨u, c₁, h₁, hstart⟩ := bind_ok h
  obtain ⟨start, c₂, h₂, hword⟩ := bind_ok hstart
  obtain ⟨w, c₃, h₃, hspace⟩ := bind_ok hword
  obtain ⟨v, c₄, h₄, htarget⟩ := bind_ok hspace
  obtain ⟨target, c₅, h₅, hnames⟩ := bind_ok htarget
  obtain ⟨given, c₆, rfl, hplaced, hline⟩ := Reader.namesThenEnd_ok hnames
  cases h₂
  have hopened : c₁.LeadsTo c₄ := ((Reader.keyword_forward _).leads h₃).trans
    ((Reader.expectSpace_forward _).leads h₄)
  have hinner := ((Reader.clauseIdent_placed h₅).behind hopened).append hplaced
  exact ⟨(hinner.wrap.behind ((Reader.expectSpace_forward _).leads h₁)).before hline,
    hinner.inOrder⟩

theorem Unique.placed {clause : Unique} (h : reader marked c = .ok clause d) :
    Placed c d [clause.span] (clause.name.label :: clause.fieldNames.map Ident.label) ∧
      InOrder clause.span.start (clause.name.span :: clause.fieldNames.map Ident.span)
        clause.span.stop := by
  obtain ⟨u, c₁, h₁, hstart⟩ := bind_ok h
  obtain ⟨start, c₂, h₂, hname⟩ := bind_ok hstart
  obtain ⟨name, c₃, h₃, hnames⟩ := bind_ok hname
  obtain ⟨given, c₄, rfl, hplaced, hline⟩ := Reader.namesThenEnd_ok hnames
  cases h₂
  have hinner := (Reader.clauseIdent_placed h₃).append hplaced
  exact ⟨(hinner.wrap.behind ((Reader.expectSpace_forward _).leads h₁)).before hline,
    hinner.inOrder⟩

theorem Placed.line (c : Cursor) : Placed c c.nextLine [c.position.spanTo c.nextLine.position]
    [⟨c.position.spanTo c.nextLine.position, String.ofList (firstLine c.rest)⟩] := by
  have hrest : c.rest = (String.ofList (firstLine c.rest)).toList ++ afterLine c.rest := by
    rw [String.toList_ofList, firstLine_afterLine]
  refine .text hrest ?_
  rw [String.toList_ofList]
  rfl

theorem BlankLine.placed {line : BlankLine} (h : reader c = .ok line d) :
    Placed c d [line.span] [⟨line.span, line.text⟩] := by
  obtain ⟨rfl, rfl⟩ := eq_of_ok h
  exact .line c

theorem CommentLine.placed {line : CommentLine} (h : reader c = .ok line d) :
    Placed c d [line.span] [⟨line.span, line.text⟩] := by
  obtain ⟨rfl, rfl⟩ := eq_of_ok h
  exact .line c

theorem Placed.start_le_stop {span : Span} {labels : List Label} (h : Placed c d [span] labels) :
    span.start ≤ span.stop := h.inOrder.2.1

theorem MemberKind.placed {options : Options} {kind : MemberKind} {m : Member}
    (h : kind.reader options c = .ok m d) : Placed c d [m.span] m.labels ∧ m.Nested := by
  have hnone {m : Member} (hm : m.field? = none) :
      ∀ f ∈ m.field?, InOrder f.type.span.start [f.type.typeName.span] f.type.span.stop := by
    rintro f hf
    rw [hm] at hf
    cases hf
  cases kind with
  | field =>
    obtain ⟨node, d', hr, hm⟩ := bind_ok h
    cases hm
    obtain ⟨hplaced, hparts, htype⟩ := Field.placed hr
    refine ⟨hplaced, hparts, ?_⟩
    rintro f ⟨⟩
    exact htype
  | derive =>
    obtain ⟨node, d', hr, hm⟩ := bind_ok h
    cases hm
    obtain ⟨hplaced, hparts⟩ := Derive.placed hr
    refine ⟨hplaced, ?_, hnone rfl⟩
    rw [Member.parts, List.map_map]
    exact hparts
  | primary =>
    obtain ⟨node, d', hr, hm⟩ := bind_ok h
    cases hm
    obtain ⟨hplaced, hparts⟩ := Primary.placed hr
    refine ⟨hplaced, ?_, hnone rfl⟩
    rw [Member.parts, List.map_map]
    exact hparts
  | foreign =>
    obtain ⟨node, d', hr, hm⟩ := bind_ok h
    cases hm
    obtain ⟨hplaced, hparts⟩ := Foreign.placed hr
    refine ⟨hplaced, ?_, hnone rfl⟩
    rw [Member.parts, List.map_cons, List.map_map]
    exact hparts
  | unique =>
    obtain ⟨node, d', hr, hm⟩ := bind_ok h
    cases hm
    obtain ⟨hplaced, hparts⟩ := Unique.placed hr
    refine ⟨hplaced, ?_, hnone rfl⟩
    rw [Member.parts, List.map_cons, List.map_map]
    exact hparts
  | blank =>
    obtain ⟨node, d', hr, hm⟩ := bind_ok h
    cases hm
    have hplaced := BlankLine.placed hr
    exact ⟨hplaced, hplaced.start_le_stop, hnone rfl⟩
  | comment =>
    obtain ⟨node, d', hr, hm⟩ := bind_ok h
    cases hm
    have hplaced := CommentLine.placed hr
    exact ⟨hplaced, hplaced.start_le_stop, hnone rfl⟩

section

variable {options : Options} {s t : ParserState}

theorem Member.placed {m : Member} (h : parser options s = .ok m t) :
    Placed s.cursor t.cursor [m.span] m.labels ∧ m.Nested := by
  obtain ⟨choice, hchoice, s', hs, -, hread⟩ := Choice.firstOr_ok h
  obtain ⟨kind, -, rfl⟩ := List.mem_map.1 hchoice
  rw [← hs]
  exact MemberKind.placed (Parser.ofReader_ok hread)

theorem Entity.header_placed {head : Header} (h : header c = .ok head d) :
    Placed c d [head.name.span] [head.name.label] := by
  obtain ⟨name, c₁, hname, hjson⟩ := bind_ok h
  obtain ⟨json, c₂, h₂, hsql⟩ := bind_ok hjson
  obtain ⟨table, c₃, h₃, hfinish⟩ := bind_ok hsql
  obtain ⟨u, c₄, h₄, hnode⟩ := bind_ok hfinish
  cases hnode
  exact (((Reader.ident_placed hname).before (jsonFlag_forward.leads h₂)).before
    (sqlTable_forward.leads h₃)).before (Reader.finishLine_forward.leads h₄)

theorem Entity.placed {e : Entity} (h : parser options s = .ok e t) :
    Placed s.cursor t.cursor [e.span] e.labels ∧ e.Nested := by
  obtain ⟨start, s₁, h₁, hheader⟩ := bind_ok h
  obtain ⟨header, s₂, h₂, hmembers⟩ := bind_ok hheader
  obtain ⟨members, s₃, h₃, hstop⟩ := bind_ok hmembers
  obtain ⟨stop, s₄, h₄, hnode⟩ := bind_ok hstop
  cases h₁
  cases h₄
  cases hnode
  have hmember {s t : ParserState} {m : Member}
      (hs : (Member.choice options).tried s = .ok (some m) t) :
      Placed s.cursor t.cursor [m.span] m.labels ∧ m.Nested :=
    Member.placed (Choice.tried_some hs).2
  have hplaced := collect_placed (fun _ _ _ hs ↦ (hmember hs).1) h₃
  have hinner := (header_placed (Parser.ofReader_ok h₂)).append hplaced
  exact ⟨hinner.wrap, hinner.inOrder, forall_of_collect (fun _ _ _ hs ↦ (hmember hs).2) h₃⟩

theorem Item.placed {item : Item} (h : parser options s = .ok item t) :
    Placed s.cursor t.cursor [item.span] item.labels ∧ item.Nested := by
  obtain ⟨choice, hchoice, s', hs, -, hread⟩ := Choice.firstOr_ok h
  obtain ⟨kind, -, rfl⟩ := List.mem_map.1 hchoice
  rw [← hs]
  cases kind with
  | entity =>
    obtain ⟨e, t', he, hitem⟩ := bind_ok hread
    cases hitem
    exact Entity.placed he
  | blank =>
    obtain ⟨line, t', hline, hitem⟩ := bind_ok hread
    cases hitem
    have hplaced := BlankLine.placed (Parser.ofReader_ok hline)
    exact ⟨hplaced, hplaced.start_le_stop⟩
  | comment =>
    obtain ⟨line, t', hline, hitem⟩ := bind_ok hread
    cases hitem
    have hplaced := CommentLine.placed (Parser.ofReader_ok hline)
    exact ⟨hplaced, hplaced.start_le_stop⟩

theorem Item.required_placed {expected : String} {item : Item}
    (h : required options expected s = .ok item t) :
    Placed s.cursor t.cursor [item.span] item.labels ∧ item.Nested := by
  obtain ⟨found, s₁, hattempt, hitem⟩ := bind_ok h
  cases found with
  | some found =>
    cases hitem
    exact Item.placed (Parser.attempt_some hattempt)
  | none => cases hitem

end

end EntityModels
