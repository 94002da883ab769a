import EntityModels.Proofs.Grammar.BadFields
import EntityModels.Proofs.Grammar.Reordering
import EntityModels.Proofs.Reading.Refusal

namespace EntityModels

def Cursor.behind (pre post : List Char) : Cursor := ⟨post, Position.start.after pre⟩

theorem Item.lineParser_mild : Mild lineParser := by
  refine Choice.firstOr_mild (fun choice h ↦ ?_) expected
  obtain ⟨kind, -, rfl⟩ := List.mem_map.1 h
  exact kind.lineReader_mild.ofReader

theorem Field.error_iff_alone {line : List Char} {rest : List (List Char)}
    (h : Linewise (line :: rest)) (p : Position) (e : Failure) :
    (∃ c, reader ⟨(line :: rest).flatten, p⟩ = .error e c) ↔
      ∃ e' c, reader (.ofText line) = .error e' c ∧ e = e'.within p := by
  let place : Place := ⟨p, rest.flatten, none⟩
  have hplace : reader ⟨(line :: rest).flatten, p⟩ =
      place.outcome (mapSpan place.move) (reader (.ofText line)) :=
    reader_endsLine.within (.ofText line) (h.fits _ _)
  rw [hplace]
  cases reader (.ofText line) with
  | ok f d => simp [Place.outcome]
  | error e' d =>
    constructor
    · rintro ⟨c, hc⟩
      cases hc
      exact ⟨e', d, rfl, rfl⟩
    · rintro ⟨_, _, hr, rfl⟩
      cases hr
      exact ⟨_, rfl⟩

theorem Member.fatal_iff {options : Options} {s : ParserState} {e : Failure} (he : e.fatal) :
    (∃ t, parser options s = .error e t) ↔ ∃ d, Field.reader s.cursor = .error e d := by
  rw [← Parser.outcome_eq_error_iff, parser, parserOf_outcome]
  constructor
  · intro h
    cases hfound : MemberKind.all.findSome? (MemberKind.settled options s.cursor) with
    | none =>
      rw [hfound] at h
      cases h
      cases he
    | some found =>
      rw [hfound] at h
      cases h
      obtain ⟨kind, -, hk⟩ := List.exists_of_findSome?_eq_some hfound
      exact (MemberKind.settled_error_iff.1 hk).2.2
  · intro h
    have hfield : MemberKind.field.settled options s.cursor = some (.error e) :=
      MemberKind.settled_error_iff.2 ⟨rfl, he, h⟩
    rw [MemberKind.all, List.findSome?_cons, hfield]
    rfl

theorem Parser.orTakes_error {α : Type} {p : Parser (Option α)} {q : Parser Bool}
    {s t : ParserState} {e : Failure} (h : p.orTakes q s = .error e t) :
    p s = .error e t ∨ ∃ u, p s = .ok none u ∧ q u = .error e t := by
  rcases bind_error h with hp | ⟨found, u, hp, hq⟩
  · exact .inl hp
  · cases found with
    | some a => cases hq
    | none => exact .inr ⟨u, hp, hq⟩

namespace Document

variable {options : Options} {line : List Char} {e : Failure} {s t : ParserState}

theorem takesItem_no_error : takesItem options s ≠ .error e t := by
  intro h
  rcases Parser.orTakes_error h with hgate | ⟨u, -, hitem⟩
  · exact gate_no_error options hgate
  · rcases Parser.orTakes_error hitem with hline | ⟨v, -, hpure⟩
    · obtain ⟨found, v, hv⟩ := Item.lineParser_mild.attempt u
      cases hline.symm.trans hv
    · cases hpure

/-- What fails for good on a line is a field, and a field needs an entity to belong to. -/
theorem field_of_refusal {opened : Bool} (h : refusal options opened line = some e)
    (he : e.fatal) : opened = true ∧ ∃ c, Field.reader (.ofText line) = .error e c := by
  unfold refusal at h
  split at h
  · next ht =>
    cases h
    cases opened with
    | false => exact absurd ht takesItem_no_error
    | true =>
      rcases Parser.orTakes_error ht with hmember | ⟨u, -, hitem⟩
      · exact ⟨rfl, (Member.fatal_iff he).1 ⟨_, (Choice.tried_error hmember).1⟩⟩
      · exact absurd hitem takesItem_no_error
  · cases h
  · next ht =>
    cases h
    rw [(conclude_along ht).2] at he
    cases he

theorem refusal_of_field {c : Cursor} (h : Field.reader (.ofText line) = .error e c)
    (he : e.fatal) : refusal options true line = some e := by
  obtain ⟨t, ht⟩ : ∃ t, Member.parser options (.ofText line) = .error e t :=
    (Member.fatal_iff he).2 ⟨c, h⟩
  have hstart : (Member.choice options).mayStart line :=
    List.any_eq_true.2 ⟨.field, List.mem_cons_self, (Field.named_of_fatal h he).mayStart⟩
  have htried : (Member.choice options).tried (.ofText line) = .error e t := by
    have hparser : (Member.choice options).parser (.ofText line) = .error e t := ht
    rw [Choice.tried_eq_attempt hstart, Parser.attempt, hparser]
    exact if_pos he
  have htakes : takes options true (.ofText line) = .error e t := by
    rw [takes, if_pos rfl, Parser.orTakes, bind_apply, htried]
  rw [refusal, htakes]

end Document

namespace Stage

variable {options : Options} {line : List Char} {rest : List (List Char)} {s s' : Stage}
  {place : Span → Span}

/-- Before the first entity there is none that could be open. -/
def Bare (s : Stage) : Prop := s.opened = none → s.items.filterMap Item.entity? = []

theorem push_bare {item : Item} (ho : s.opened = none) (hi : item.entity? = none) (hs : s.Bare) :
    (s.push item).Bare := by
  intro _
  rw [push_items, List.filterMap_append, hs ho]
  simp [hi]

theorem step_bare (hline : Terminated line) (h : s.step options place line = some s')
    (hs : s.Bare) : s'.Bare := by
  rcases step_inversion h with ⟨e, m, -, -, rfl⟩ | ⟨e, -, rfl⟩ | ⟨ho, l, -, rfl⟩ |
    ⟨ho, l, -, rfl⟩ | ⟨-, -, hblank, -⟩
  · intro ho
    cases ho
  · intro ho
    cases ho
  · exact push_bare ho rfl hs
  · exact push_bare ho rfl hs
  · -- the blank end of a text has no line feed
    exact absurd hline.newline_mem (newline_of_blank hblank)

theorem run_bare {place : Position → Span → Span} {p : Position} {ls : List (List Char)}
    (hls : ∀ line ∈ ls, Terminated line) (h : run options place p ls s = some s') (hs : s.Bare) :
    s'.Bare := by
  induction ls generalizing p s with
  | nil =>
    cases h
    exact hs
  | cons line rest ih =>
    obtain ⟨s'', hstep, hrun⟩ := run_cons_eq_some_iff.1 h
    exact ih (fun l hl ↦ hls l (.tail line hl)) hrun
      (step_bare (hls line List.mem_cons_self) hstep hs)

end Stage

theorem Stage.entities_of_opened {s : Stage} (h : s.opened.isSome) :
    s.items.filterMap Item.entity? ≠ [] := by
  obtain ⟨e, ho⟩ := Option.isSome_iff_exists.1 h
  rw [items, ho, List.filterMap_append]
  simp [Item.entity?]

namespace Document

variable {options : Options} {e : Failure}

theorem field_of_fatal_error {text : String} (h : parse options text = .error e) (he : e.fatal) :
    ∃ pre post : String, text = pre ++ post ∧ Ended pre.toList ∧
      e.location.line = pre.toList.count '\n' + 1 ∧
      (∃ d, parse options pre = .ok d ∧ d.entities ≠ []) ∧
      (∃ c, Field.reader (.behind pre.toList post.toList) = .error e c) ∧
      ∀ (kind : MemberKind) (m : Member) (c : Cursor), kind ≠ .field →
        kind.reader options (.behind pre.toList post.toList) ≠ .ok m c := by
  obtain ⟨done, line, rest, s, e', hls, hdone, hrun, hr, rfl, hnumber⟩ :=
    exists_of_parse_eq_error h
  obtain ⟨hopened, c, hc⟩ := field_of_refusal hr he
  have hlines : Linewise (line :: rest) :=
    (hls ▸ lines_linewise text.toList).right_of_append
  obtain ⟨d, hd⟩ := (Field.error_iff_alone hlines (Position.start.after done.flatten) _).2
    ⟨e', c, hc, rfl⟩
  have hcount : done.flatten.count '\n' = done.length := by
    have hline := Stage.after_lines_line hdone .start
    rw [Position.after_line] at hline
    exact Nat.add_left_cancel hline
  have htext : text = String.ofList done.flatten ++ String.ofList (line :: rest).flatten := by
    rw [← String.ofList_append, ← List.flatten_append, ← hls, lines_flatten, String.ofList_toList]
  refine ⟨_, _, htext, ?_⟩
  rw [String.toList_ofList, String.toList_ofList]
  refine ⟨.of_terminated hdone, ?_, ⟨_, (parse_lines_iff hdone).2 ⟨s, hrun, rfl⟩,
    Stage.entities_of_opened hopened⟩, ⟨d, hd⟩, fun kind m c hne hk ↦ ?_⟩
  · rw [hnumber, hcount]
  · exact hne (MemberKind.eq_field_of_named (Field.named_of_fatal hd he) hk)

/-- Behind a document with an entity a field that fails for good decides the whole text. -/
theorem fatal_error_of_field {pre post : String} {d : Document} {c : Cursor}
    (hpre : Ended pre.toList) (hd : parse options pre = .ok d) (hentities : d.entities ≠ [])
    (hc : Field.reader (.behind pre.toList post.toList) = .error e c) (he : e.fatal) :
    parse options (pre ++ post) = .error e := by
  obtain ⟨s, hs, rfl⟩ := parse_eq_ok_iff.1 hd
  have hopened : s.opened.isSome := by
    by_contra ho
    exact hentities (Stage.run_bare hpre.terminated hs (fun _ ↦ rfl) (by simpa using ho))
  have hboth : lines (pre ++ post).toList = lines pre.toList ++ lines post.toList := by
    rw [String.toList_append, hpre.lines_append]
  cases hpost : lines post.toList with
  | nil =>
    have hnil := lines_flatten post.toList
    rw [hpost] at hnil
    have hnamed := (Field.named_of_fatal hc he).1
    rw [← hnil] at hnamed
    cases hnamed
  | cons line rest =>
    have hlines : Linewise (line :: rest) := hpost ▸ lines_linewise post.toList
    have hflatten : (line :: rest).flatten = post.toList := hpost ▸ lines_flatten post.toList
    rw [← hflatten] at hc
    obtain ⟨e', c', hc', rfl⟩ := (Field.error_iff_alone hlines _ e).1 ⟨c, hc⟩
    rw [hpost] at hboth
    refine parse_eq_error_iff.2 (Stage.refused_iff.2 ⟨_, line, rest, s, e', hboth, hs, ?_, ?_⟩)
    · rw [hopened]
      exact refusal_of_field hc' he
    · rw [lines_flatten]

/-- Fatal failures come from fields only, and pass unchanged through everything around the field.
What makes a field fail for good is a type that was begun and is none, or a length that is no
number; nothing else could be read in place of such a field. -/
theorem fatal_errors_of_fields (options : Options) :
    (∀ (text : String) (e : Failure), parse options text = .error e → e.fatal →
      ∃ pre post : String, text = pre ++ post ∧ Ended pre.toList ∧
        e.location.line = pre.toList.count '\n' + 1 ∧
        (∃ d, parse options pre = .ok d ∧ d.entities ≠ []) ∧
        (∃ c, Field.reader (.behind pre.toList post.toList) = .error e c) ∧
        ∀ (kind : MemberKind) (m : Member) (c : Cursor), kind ≠ .field →
          kind.reader options (.behind pre.toList post.toList) ≠ .ok m c) ∧
    (∀ (pre post : String) (d : Document) (e : Failure) (c : Cursor), Ended pre.toList →
      parse options pre = .ok d → d.entities ≠ [] →
        Field.reader (.behind pre.toList post.toList) = .error e c → e.fatal →
          parse options (pre ++ post) = .error e) ∧
    ∀ c : Cursor, (∃ e d, Field.reader c = .error e d ∧ e.fatal) ↔
      ∃ d, Field.ReachesType c d ∧
        ((FieldType.Commits d.rest ∧ ¬FieldType.Grammatical d.rest) ∨
          ∃ type c₁ flags c₂, FieldType.reader d = .ok type c₁ ∧ Flag.group c₁ = .ok flags c₂ ∧
            Setting.MeetsBadLength Setting.all c₂.rest) :=
  ⟨fun _ _ h he ↦ field_of_fatal_error h he,
    fun _ _ _ _ _ hpre hd hentities hc he ↦ fatal_error_of_field hpre hd hentities hc he,
    Field.fatal_iff⟩

theorem fatal_error_of_open_bracket : ∃ e : Failure, e.fatal = true ∧ e.location = ⟨2, 9⟩ ∧
    parse default "A\n  b [Int\n  c Int\n" = .error e ∧
    (∃ pre post : String, "A\n  b [Int\n  c Int\n" = pre ++ post ∧
      pre.toList.count '\n' = 1 ∧ ∃ c, Field.reader (.behind pre.toList post.toList) = .error e c) ∧
    ∃ d, Field.ReachesType (.behind "A\n".toList "  b [Int\n  c Int\n".toList) d := by
  let e : Failure := ⟨.structuralMismatch, "`]`", "end of line", ⟨2, 9, 10⟩, true⟩
  let header : Entity := ⟨⟨"A", ⟨1, 1⟩, ⟨1, 2⟩⟩, false, none, [], ⟨1, 1⟩, ⟨2, 1⟩⟩
  obtain ⟨hfrom, hback, hcauses⟩ := fatal_errors_of_fields default
  have hfield : ∃ c, Field.reader (.behind "A\n".toList "  b [Int\n  c Int\n".toList) =
      .error e c := by
    have hfailure : (match Field.reader (.behind "A\n".toList "  b [Int\n  c Int\n".toList) with
        | .error e' _ => some e'
        | .ok _ _ => none) = some e := by decide +kernel
    split at hfailure
    · next c hc =>
      cases hfailure
      exact ⟨c, hc⟩
    · cases hfailure
  obtain ⟨c, hc⟩ := hfield
  have hfirst : parse default "A\n" = .ok ⟨[.entity header], wholeSpan "A\n".toList⟩ :=
    parse_eq_ok_iff.2 ⟨⟨[], some header⟩, by decide +kernel, rfl⟩
  have hparse : parse default "A\n  b [Int\n  c Int\n" = .error e :=
    hback "A\n" "  b [Int\n  c Int\n" _ e c (.inr (by decide)) hfirst (by decide) hc rfl
  obtain ⟨pre, post, htext, -, hline, -, hread, -⟩ := hfrom _ e hparse rfl
  obtain ⟨d, hd, -⟩ := (hcauses _).1 ⟨e, c, hc, rfl⟩
  exact ⟨e, rfl, rfl, hparse, ⟨pre, post, htext, Nat.succ.inj hline.symm, hread⟩, d, hd⟩

end Document

end EntityModels
