import EntityModels.Grammar.Production
import EntityModels.Proofs.Grammar.TypeSyntax
import EntityModels.Proofs.Parsing.Lookahead

namespace EntityModels

section

variable {c d : Cursor} {marked : Bool}

theorem Opens.mayStart {word : String} {rest : List Char} (h : Opens word c rest) :
    indentedWord word c.rest := by
  rw [indentedWord, afterIndentation_eq, if_pos h.1, Option.any_some, List.isPrefixOf_iff_prefix]
  exact ⟨rest, h.2.1.symm⟩

theorem Derive.mayStart_of_ok {clause : Derive} (h : reader marked c = .ok clause d) :
    mayStart c.rest := by
  obtain ⟨rest, hopens⟩ := opens_of_ok h
  exact hopens.mayStart

theorem Primary.mayStart_of_ok {clause : Primary} (h : reader marked c = .ok clause d) :
    mayStart c.rest := by
  obtain ⟨rest, hopens⟩ := opens_of_ok h
  exact hopens.mayStart

theorem Foreign.mayStart_of_ok {clause : Foreign} (h : reader marked c = .ok clause d) :
    mayStart c.rest := by
  obtain ⟨rest, hopens, -⟩ := opens_of_ok h
  exact hopens.mayStart

theorem Unique.mayStart_of_ok {clause : Unique} (h : reader marked c = .ok clause d) :
    mayStart c.rest := by
  obtain ⟨hspace, name, d', -, -, hname, -⟩ := opens_of_ok h
  rw [mayStart, indentedChar, afterIndentation_eq, if_pos hspace]
  exact Reader.lead_of_clauseIdent hname

theorem FieldType.mayStart_of_ok {type : FieldType} (h : reader c = .ok type d) :
    mayStart c.rest := by
  obtain ⟨isList, strictness, name, rest, htext, hname, -⟩ := grammatical_of_ok h
  rw [mayStart, htext]
  cases isList with
  | true => rfl
  | false =>
    cases strictness with
    | explicitStrict | lazy => rfl
    | strict =>
      obtain ⟨x, hx, hstart⟩ := (Option.any_eq_true _ _).1 (hname.head_any rest)
      have hstart' : isTypeStart x := hstart
      simp [Strictness.render, hx, hstart']

namespace MemberKind

variable {options : Options}

theorem mayStart_of_ok {kind : MemberKind} {m : Member} (h : kind.reader options c = .ok m d) :
    kind.mayStart c.rest := by
  cases kind with
  | field =>
    obtain ⟨node, d', hr, -⟩ := bind_ok h
    exact (Field.named_of_ok hr).mayStart
  | derive =>
    obtain ⟨node, d', hr, -⟩ := bind_ok h
    exact Derive.mayStart_of_ok hr
  | primary =>
    obtain ⟨node, d', hr, -⟩ := bind_ok h
    exact Primary.mayStart_of_ok hr
  | foreign =>
    obtain ⟨node, d', hr, -⟩ := bind_ok h
    exact Foreign.mayStart_of_ok hr
  | unique =>
    obtain ⟨node, d', hr, -⟩ := bind_ok h
    exact Unique.mayStart_of_ok hr
  | blank =>
    obtain ⟨node, d', hr, -⟩ := bind_ok h
    exact BlankLine.mayStart_of_next (BlankLine.reader_ok hr).1
  | comment =>
    obtain ⟨node, d', hr, -⟩ := bind_ok h
    exact CommentLine.mayStart_of_ok hr

/-- A field fails for good only behind its name. -/
theorem mayStart_of_fatal {kind : MemberKind} {e : Failure}
    (h : kind.reader options c = .error e d) (he : e.fatal = true) : kind.mayStart c.rest := by
  by_cases hk : kind = field
  · subst hk
    exact (Field.named_of_fatal (bind_pure_error h) he).mayStart
  · rw [reader_mild options hk c e d h] at he
    cases he

theorem choice_sound (options : Options) (kind : MemberKind) : (kind.choice options).Sound :=
  Choice.sound_of_passes (fun _ _ _ h ↦ mayStart_of_ok (Parser.ofReader_ok h))
    fun _ _ _ h ↦ mayStart_of_fatal (Parser.ofReader_error h)

end MemberKind

end

section

variable {options : Options} {s t : ParserState}

theorem Member.mayStart_of_ok {m : Member} (h : parser options s = .ok m t) :
    mayStart s.cursor.rest := by
  obtain ⟨choice, hchoice, s', -, hm, -⟩ := Choice.firstOr_ok h
  obtain ⟨kind, hkind, rfl⟩ := List.mem_map.1 hchoice
  exact List.any_eq_true.2 ⟨kind, hkind, hm⟩

theorem Member.choice_sound (options : Options) : (choice options).Sound := by
  intro s hs
  refine ⟨_, s, Choice.firstOr_of_none_mayStart fun alternative h ↦ ?_, rfl⟩
  obtain ⟨kind, hkind, rfl⟩ := List.mem_map.1 h
  exact Bool.eq_false_iff.2 (List.any_eq_false.1 hs kind hkind)

theorem Entity.mayStart_of_ok {e : Entity} (h : parser options s = .ok e t) :
    mayStart s.cursor.rest := by
  rw [parser_eq] at h
  obtain ⟨head, s', hhead, -⟩ := bind_ok h
  exact head_start (Parser.ofReader_ok hhead)

theorem Item.mayStart_of_ok {item : Item} (h : parser options s = .ok item t) :
    mayStart s.cursor.rest := by
  obtain ⟨choice, hchoice, s', -, hm, -⟩ := Choice.firstOr_ok h
  obtain ⟨kind, hkind, rfl⟩ := List.mem_map.1 hchoice
  exact List.any_eq_true.2 ⟨kind, hkind, hm⟩

theorem ItemKind.mayStart_of_ok {kind : ItemKind} {item : Item}
    (h : kind.parser options s = .ok item t) : kind.mayStart s.cursor.rest := by
  cases kind with
  | entity =>
    obtain ⟨e, s', he, -⟩ := bind_ok h
    exact Entity.mayStart_of_ok he
  | blank =>
    obtain ⟨line, s', hline, -⟩ := bind_ok h
    exact BlankLine.mayStart_of_next (BlankLine.reader_ok (Parser.ofReader_ok hline)).1
  | comment =>
    obtain ⟨line, s', hline, -⟩ := bind_ok h
    exact CommentLine.mayStart_of_ok (Parser.ofReader_ok hline)

theorem ItemKind.mayStart_of_fatal {kind : ItemKind} {e : Failure}
    (h : kind.parser options s = .error e t) (he : e.fatal = true) :
    kind.mayStart s.cursor.rest := by
  cases kind with
  | entity =>
    have hentity := bind_pure_error h
    rw [Entity.parser_eq] at hentity
    obtain ⟨head, s', hhead, -⟩ := Mild.bind_fatal Entity.head_mild.ofReader hentity he
    exact Entity.head_start (Parser.ofReader_ok hhead)
  | blank =>
    rw [BlankLine.reader_mild.ofReader s e t (bind_pure_error h)] at he
    cases he
  | comment =>
    rw [CommentLine.reader_mild.ofReader s e t (bind_pure_error h)] at he
    cases he

theorem ItemKind.choice_sound (options : Options) (kind : ItemKind) :
    (kind.choice options).Sound :=
  Choice.sound_of_passes (fun _ _ _ ↦ mayStart_of_ok) fun _ _ _ ↦ mayStart_of_fatal

theorem Production.mayStart_of_ok {p : Production} {node : p.Node}
    (h : p.parser options s = .ok node t) : p.mayStart s.cursor.rest := by
  cases p with
  | blankLine => exact BlankLine.mayStart_of_next (BlankLine.reader_ok (Parser.ofReader_ok h)).1
  | commentLine => exact CommentLine.mayStart_of_ok (Parser.ofReader_ok h)
  | fieldType => exact FieldType.mayStart_of_ok (Parser.ofReader_ok h)
  | field => exact (Field.named_of_ok (Parser.ofReader_ok h)).mayStart
  | derive => exact Derive.mayStart_of_ok (Parser.ofReader_ok h)
  | primary => exact Primary.mayStart_of_ok (Parser.ofReader_ok h)
  | foreign => exact Foreign.mayStart_of_ok (Parser.ofReader_ok h)
  | unique => exact Unique.mayStart_of_ok (Parser.ofReader_ok h)
  | member => exact Member.mayStart_of_ok h
  | entity => exact Entity.mayStart_of_ok h
  | item => exact Item.mayStart_of_ok h

end

namespace Member

/-- A member of one of the kinds, each of which is tried wherever it stands. -/
def untested (options : Options) : Parser Member :=
  Choice.firstOr "entity member" (MemberKind.all.map fun kind ↦ (kind.choice options).untested)

theorem untested_forward (options : Options) : Forward (untested options) :=
  Choice.firstOr_forward _ _

theorem parser_same_untested (options : Options) : (parser options).Same (untested options) :=
  Choice.firstOr_same (fun kind _ ↦
    Choice.tried_untested_same (kind.choice_sound options) (.ofReader _)) _

end Member

namespace Entity

def untested (options : Options) : Parser Entity :=
  parserWith ⟨fun _ ↦ true, Member.untested options, Member.untested_forward options⟩

theorem untested_forward (options : Options) : Forward (untested options) := parserWith_forward _

theorem parser_same_untested (options : Options) : (parser options).Same (untested options) := by
  refine (Parser.Same.ofReader _).bind fun start ↦ (Parser.Same.ofReader _).bind fun header ↦ ?_
  refine (collect_same _ _ ?_).bind fun members ↦ (Parser.Same.ofReader _).bind fun stop ↦ .pure _
  exact Choice.tried_same (Member.choice_sound options) (fun _ _ ↦ rfl)
    (Member.parser_same_untested options)

end Entity

namespace ItemKind

def untested (options : Options) : ItemKind → Parser Item
  | entity => return .entity (← Entity.untested options)
  | kind => kind.parser options

theorem untested_forward (options : Options) (kind : ItemKind) :
    Forward (kind.untested options) := by
  cases kind with
  | entity => exact (Entity.untested_forward options).bind fun _ ↦ .pure _
  | blank => exact parser_forward options blank
  | comment => exact parser_forward options comment

theorem parser_same_untested (options : Options) (kind : ItemKind) :
    (kind.parser options).Same (kind.untested options) := by
  cases kind with
  | entity => exact (Entity.parser_same_untested options).bind fun _ ↦ .pure _
  | blank => exact (Parser.Same.ofReader _).bind fun _ ↦ .pure _
  | comment => exact (Parser.Same.ofReader _).bind fun _ ↦ .pure _

end ItemKind

namespace Item

def untested (options : Options) : Parser Item :=
  Choice.firstOr expected (ItemKind.all.map fun kind ↦
    ⟨fun _ ↦ true, kind.untested options, kind.untested_forward options⟩)

theorem parser_same_untested (options : Options) : (parser options).Same (untested options) :=
  Choice.firstOr_same (fun kind _ ↦ Choice.tried_same (kind.choice_sound options) (fun _ _ ↦ rfl)
    (kind.parser_same_untested options)) _

end Item

/-- What is read passes the test of its production. Members, entities and items come to the same, at
the same place, if none of their alternatives has to pass one. -/
theorem Production.tests_sound_and_invisible (options : Options) :
    (∀ (p : Production) (s t : ParserState) (node : p.Node),
      p.parser options s = .ok node t → p.mayStart s.cursor.rest) ∧
    (Member.parser options).Same (Member.untested options) ∧
    (Entity.parser options).Same (Entity.untested options) ∧
    (Item.parser options).Same (Item.untested options) :=
  ⟨fun _ _ _ _ ↦ mayStart_of_ok, Member.parser_same_untested options,
    Entity.parser_same_untested options, Item.parser_same_untested options⟩

theorem Production.tests_of_constraint : ∃ (m : Member) (t : ParserState),
    Production.member.parser { markedNames := true } (.ofText "  !B c\n".toList) = .ok m t ∧
      Production.member.mayStart "  !B c\n".toList ∧
        (Member.untested { markedNames := true }).visible (.ofText "  !B c\n".toList) =
          .ok m t.cursor := by
  obtain ⟨hsound, hmember, -⟩ := tests_sound_and_invisible { markedNames := true }
  have hread : (readAlone (Member.parser { markedNames := true }) "  !B c\n".toList).isSome := by
    decide +kernel
  unfold readAlone at hread
  split at hread
  · next m t hm =>
    refine ⟨m, t, hm, hsound .member (.ofText _) t m hm, ?_⟩
    rw [← hmember (.ofText _) (.ofText _) rfl, Parser.visible, hm]
  · cases hread

end EntityModels
