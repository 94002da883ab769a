import EntityModels.Proofs.Reading.Refusal

namespace EntityModels

/-- Nothing but horizontal space, and some of it. -/
def Blank (text : List Char) : Prop := text ≠ [] ∧ text.all isHorizontalSpace

namespace Options

def strictEnd (options : Options) : Options := { options with trailingBlank := false }

def laxEnd (options : Options) : Options := { options with trailingBlank := true }

end Options

theorem Blank.eq_nil {line : List Char} {rest : List (List Char)} (h : Blank line)
    (hl : Linewise (line :: rest)) : rest = [] := by
  rcases hl.1 with ht | ⟨hnil, -⟩
  · exact absurd ht.newline_mem (Stage.newline_of_blank h.2)
  · exact hnil

section

variable {text : List Char} {c : Cursor}

theorem Blank.dropWhile (h : Blank text) : text.dropWhile isHorizontalSpace = [] :=
  (takeWhile_of_all (List.all_eq_true.1 h.2)).2

theorem Cursor.skip_of_blank (h : Blank c.rest) :
    c.skip isHorizontalSpace = ⟨[], c.position.after c.rest⟩ := by
  obtain ⟨htake, hdrop⟩ := takeWhile_of_all (List.all_eq_true.1 h.2)
  rw [skip, htake, hdrop, past]

theorem afterIndentation_of_blank (h : Blank text) : afterIndentation text = some [] := by
  obtain ⟨x, text, rfl⟩ := List.exists_cons_of_ne_nil h.1
  have hdrop := h.dropWhile
  have hx := List.all_eq_true.1 h.2 x List.mem_cons_self
  rw [List.dropWhile_cons_of_pos hx] at hdrop
  rw [afterIndentation, if_pos hx, hdrop]

theorem BlankLine.mayStart_of_blank (h : Blank text) : mayStart text := by
  simp [mayStart, h.dropWhile, h.1]

theorem CommentLine.mayStart_of_blank (h : Blank text) : mayStart text = false := by
  simp [mayStart, h.dropWhile, Keyword.comment]

theorem MemberKind.mayStart_of_blank (h : Blank text) {kind : MemberKind} (hk : kind ≠ blank) :
    kind.mayStart text = false := by
  have hindent := afterIndentation_of_blank h
  have hword {x : Char} {word : String} (hw : word.toList.head? = some x) :
      indentedWord word text = false := by
    obtain ⟨tail, ht⟩ := List.head?_eq_some_iff.1 hw
    simp [indentedWord, hindent, ht]
  cases kind with
  | field => simp [mayStart, Field.mayStart, indentedChar, hindent]
  | derive => exact hword (x := 'd') rfl
  | primary => exact hword (x := 'P') rfl
  | foreign => exact hword (x := 'F') rfl
  | unique => simp [mayStart, Unique.mayStart, indentedChar, hindent]
  | blank => exact absurd rfl hk
  | comment => exact CommentLine.mayStart_of_blank h

theorem ItemKind.mayStart_of_blank (h : Blank text) {kind : ItemKind} (hk : kind ≠ blank) :
    kind.mayStart text = false := by
  cases kind with
  | entity =>
    obtain ⟨x, text, rfl⟩ := List.exists_cons_of_ne_nil h.1
    have hx := List.all_eq_true.1 h.2 x List.mem_cons_self
    refine Bool.eq_false_iff.2 fun ht ↦ ?_
    rw [isHorizontalSpace_of_isTypeStart ht] at hx
    cases hx
  | blank => exact absurd rfl hk
  | comment => exact CommentLine.mayStart_of_blank h

theorem Cursor.unended_offset (h : c.rest ≠ []) : c.position.offset < c.unended.offset := by
  obtain ⟨x, rest, hr⟩ := List.exists_cons_of_ne_nil h
  have := x.utf8Size_pos
  change _ < (c.position.after c.rest).offset
  rw [Position.after_offset, hr, byteLength_cons]
  omega

theorem BlankLine.reader_of_blank (h : Blank c.rest) :
    reader c = .error c.unended ⟨[], c.position.after c.rest⟩ := by
  simp [reader_apply, Cursor.skip_of_blank h, Cursor.next?, Cursor.unended]

end

/-- The line can be trivia of one kind only, and for that kind its line feed is missing. -/
structure LacksEnd (line : List Char) (member : MemberKind) (item : ItemKind) : Prop where
  ne_nil : line ≠ []
  member_starts : member.mayStart line
  member_only : ∀ kind, kind ≠ member → kind.mayStart line = false
  member_fails : ∀ options c, c.rest = line → ∃ d, member.reader options c = .error c.unended d
  item_starts : item.mayStart line
  item_only : ∀ kind, kind ≠ item → kind.mayStart line = false
  item_fails : ∀ c, c.rest = line → ∃ d, item.lineReader c = .error c.unended d

theorem Blank.lacksEnd {line : List Char} (h : Blank line) : LacksEnd line .blank .blank where
  ne_nil := h.1
  member_starts := BlankLine.mayStart_of_blank h
  member_only _ := MemberKind.mayStart_of_blank h
  member_fails options c hc := ⟨_, by
    rw [MemberKind.reader, bind_apply, BlankLine.reader_of_blank (hc ▸ h)]⟩
  item_starts := BlankLine.mayStart_of_blank h
  item_only _ := ItemKind.mayStart_of_blank h
  item_fails c hc := ⟨_, by
    rw [ItemKind.lineReader, bind_apply, BlankLine.reader_of_blank (hc ▸ h)]⟩

theorem Failure.farthest_of_lt {e f : Failure} (h : f.offset < e.offset) :
    e.farthest f = e ∧ f.farthest e = e := by
  refine ⟨if_neg fun hf ↦ ?_, if_pos (.inl h)⟩
  rcases hf with hf | ⟨hf, -⟩ <;> omega

theorem ParserState.record_record {s : ParserState} {e f : Failure}
    (hs : ∀ g ∈ s.farthest, g = e) (h : f.offset < e.offset) :
    (s.record e).record f = { s with farthest := some e } := by
  have hkeep := (Failure.farthest_of_lt h).1
  cases hn : s.farthest with
  | none => simp [record, hn, hkeep]
  | some g =>
    obtain rfl := hs g hn
    simp [record, hn, Failure.farthest_self, hkeep]

section

variable {s : ParserState}

/-- Where only one alternative can be tried, it is the failure of that one which is noted. -/
theorem Choice.attempt_of_only {α K : Type} {choice : K → Choice α} {kinds : List K} {k : K}
    {r : Reader α} {e : Failure} {d : Cursor} (hk : k ∈ kinds) (hnodup : kinds.Nodup)
    (hother : ∀ l ∈ kinds, l ≠ k → (choice l).mayStart s.cursor.rest = false)
    (hstart : (choice k).mayStart s.cursor.rest) (hparser : (choice k).parser = (r : Parser α))
    (hr : r s.cursor = .error e d) (he : e.fatal = false) (hs : ∀ g ∈ s.farthest, g = e)
    (hlt : s.cursor.position.offset < e.offset) (expected : String) :
    (firstOr expected (kinds.map choice)).attempt s = .ok none { s with farthest := some e } := by
  have hp : (choice k).parser s = .error e { s with cursor := d } := by
    rw [hparser]
    exact Parser.ofReader_of_error hr
  have htried : (choice k).tried s = .ok none (s.record e) := by
    have hattempt := Parser.attempt_of_error hp he
    rw [tried_eq_attempt hstart, hattempt]
  have hchoice : firstOr expected (kinds.map choice) s =
      .error (s.cursor.mismatch expected) (s.record e) := by
    rw [firstOr, bind_apply, first_of_only hk hnodup hother htried]
    rfl
  exact (Parser.attempt_of_error hchoice rfl).trans
    (congrArg _ (ParserState.record_record (f := s.cursor.mismatch expected) hs hlt))

theorem LacksEnd.member_tried {member : MemberKind} {item : ItemKind} (options : Options)
    (h : LacksEnd s.cursor.rest member item) (hs : ∀ g ∈ s.farthest, g = s.cursor.unended) :
    (Member.choice options).tried s = .ok none { s with farthest := some s.cursor.unended } := by
  have hstart : (Member.choice options).mayStart s.cursor.rest :=
    List.any_eq_true.2 ⟨member, by cases member <;> decide, h.member_starts⟩
  obtain ⟨d, hr⟩ := h.member_fails options s.cursor rfl
  rw [Choice.tried_eq_attempt hstart]
  exact Choice.attempt_of_only (k := member) (by cases member <;> decide) (by decide)
    (fun kind _ ↦ h.member_only kind) h.member_starts rfl hr rfl hs (Cursor.unended_offset h.ne_nil)
    _

theorem LacksEnd.item_attempt {member : MemberKind} {item : ItemKind}
    (h : LacksEnd s.cursor.rest member item) (hs : ∀ g ∈ s.farthest, g = s.cursor.unended) :
    Item.lineParser.attempt s = .ok none { s with farthest := some s.cursor.unended } := by
  obtain ⟨d, hr⟩ := h.item_fails s.cursor rfl
  exact Choice.attempt_of_only (k := item) (by cases item <;> decide) (by decide)
    (fun kind _ ↦ h.item_only kind) h.item_starts rfl hr rfl hs (Cursor.unended_offset h.ne_nil) _

end

namespace Document

variable {options : Options} {line : List Char}

theorem gate_of_open {s : ParserState} (h : s.cursor.rest ≠ [])
    (hend : ¬(options.trailingBlank ∧ s.cursor.rest.all isHorizontalSpace)) :
    gate options s = .ok none s := by
  rw [gate_apply, if_neg h, if_neg hend]

theorem gate_strict {s : ParserState} (h : s.cursor.rest ≠ []) :
    gate options.strictEnd s = .ok none s :=
  gate_of_open h fun hs ↦ by cases hs.1

theorem gate_lax {s : ParserState} (h : ¬Blank s.cursor.rest) :
    gate options.laxEnd s = gate options.strictEnd s := by
  have hlax : ¬(s.cursor.rest ≠ [] ∧ s.cursor.rest.all isHorizontalSpace) := h
  by_cases hne : s.cursor.rest = []
  · rw [gate_apply, gate_apply, if_pos hne, if_pos hne]
  · rw [gate_strict hne, gate_apply, if_neg hne, if_neg fun hs ↦ hlax ⟨hne, hs.2⟩]

theorem takes_lax (h : ¬Blank line) (opened : Bool) :
    takes options.laxEnd opened (.ofText line) = takes options.strictEnd opened (.ofText line) := by
  have hitem {s : ParserState} (hs : s.cursor = .ofText line) :
      takesItem options.laxEnd s = takesItem options.strictEnd s := by
    have hgate : gate options.laxEnd s = gate options.strictEnd s := gate_lax (by rw [hs]; exact h)
    simp only [takesItem, Parser.orTakes, bind_apply, hgate]
  cases opened with
  | false => exact hitem rfl
  | true =>
    have hchoice : Member.choice options.laxEnd = Member.choice options.strictEnd := rfl
    simp only [takes, if_true, hchoice, Parser.orTakes, bind_apply]
    cases ht : (Member.choice options.strictEnd).tried (.ofText line) with
    | error e t => rfl
    | ok found t =>
      cases found with
      | some m => rfl
      | none => exact hitem (Choice.tried_none ht)

/-- A line without its line feed is refused at the end of the text, if it is not the blank end that
the options allow. -/
theorem refusal_of_lacksEnd {member : MemberKind} {item : ItemKind} (h : LacksEnd line member item)
    (hend : ¬(options.trailingBlank ∧ line.all isHorizontalSpace)) (opened : Bool) :
    refusal options opened line = some (Cursor.ofText line).unended := by
  let e := (Cursor.ofText line).unended
  let noted : ParserState := { ParserState.ofText line with farthest := some e }
  have hitem (s : ParserState) (hs : s.cursor = .ofText line) (hn : ∀ g ∈ s.farthest, g = e) :
      takesItem options s = .ok false noted := by
    obtain ⟨c, farthest⟩ := s
    obtain rfl : c = .ofText line := hs
    have hgate := gate_of_open (s := ⟨.ofText line, farthest⟩) h.ne_nil hend
    rw [takesItem, Parser.orTakes_of_none hgate, Parser.orTakes_of_none (h.item_attempt hn)]
    rfl
  have htakes : takes options opened (.ofText line) = .ok false noted := by
    cases opened with
    | false => exact hitem _ rfl fun g hg ↦ by cases hg
    | true =>
      have hnone : (Member.choice options).tried (.ofText line) = .ok none noted :=
        h.member_tried (s := .ofText line) _ fun g hg ↦ by cases hg
      rw [takes, if_pos rfl, Parser.orTakes_of_none hnone]
      exact hitem noted rfl fun g hg ↦ by cases hg; rfl
  have hlt : ((Cursor.ofText line).mismatch Item.expected).offset < e.offset :=
    Cursor.unended_offset (c := .ofText line) h.ne_nil
  rw [refusal, htakes]
  exact congrArg some (Failure.farthest_of_lt hlt).2

theorem refusal_of_blank (h : Blank line) (opened : Bool) :
    refusal options.strictEnd opened line = some (Cursor.ofText line).unended :=
  refusal_of_lacksEnd h.lacksEnd (fun hend ↦ by cases hend.1) opened

end Document

namespace Stage

variable {options : Options} {line : List Char} {ls : List (List Char)} {s s' : Stage}
  {p : Position} {e : Failure}

theorem trailing?_of_not_blank (h : ¬Blank line) (place : Span → Span) (s : Stage) :
    s.trailing? options place line = none :=
  if_neg fun hb ↦ h hb.2

theorem trailing?_strictEnd (place : Span → Span) (line : List Char) (s : Stage) :
    s.trailing? options.strictEnd place line = none :=
  if_neg fun hb ↦ by cases hb.1

theorem step_lax (options : Options) (place : Span → Span) (line : List Char) (s : Stage) :
    s.step options.laxEnd place line =
      (s.step options.strictEnd place line <|> s.trailing? options.laxEnd place line) := by
  have hmember : s.member? options.laxEnd place line = s.member? options.strictEnd place line := rfl
  have hheader : s.header? options.laxEnd place line = s.header? options.strictEnd place line := rfl
  rw [step, step, hmember, hheader, trailing?_strictEnd]
  cases s.member? options.strictEnd place line with
  | some s' => rfl
  | none =>
    cases s.header? options.strictEnd place line with
    | some s' => rfl
    | none => cases s.trivia? place line <;> rfl

theorem step_lax_of_not_blank (h : ¬Blank line) (place : Span → Span) (s : Stage) :
    s.step options.laxEnd place line = s.step options.strictEnd place line := by
  rw [step_lax, trailing?_of_not_blank h]
  cases s.step options.strictEnd place line <;> rfl

/-- What the machine reads without the option it reads with it, and with it nothing more than a
blank end behind the rest. -/
theorem run_lax (hls : Linewise ls) (h : run options.laxEnd inPlace p ls s = some s') :
    run options.strictEnd inPlace p ls s = some s' ∨ ∃ done w s'', ls = done ++ [w] ∧ Blank w ∧
      run options.strictEnd inPlace p done s = some s'' ∧
        s' = s''.push (.blank ⟨String.ofList w, inPlace (p.after done.flatten) (wholeSpan w)⟩) := by
  induction ls generalizing p s with
  | nil => exact .inl h
  | cons line rest ih =>
    obtain ⟨s₁, hstep, hrun⟩ := run_cons_eq_some_iff.1 h
    rw [step_lax] at hstep
    rcases (Option.orElse_eq_some _ _ _).1 hstep with hstrict | ⟨-, htrailing⟩
    · have hcons (ls : List (List Char)) : run options.strictEnd inPlace p (line :: ls) s =
          run options.strictEnd inPlace (p.after line) ls s₁ := by
        rw [run_cons, hstrict]
        rfl
      rcases ih hls.2 hrun with hall | ⟨done, w, s'', rfl, hw, hdone, hs'⟩
      · exact .inl ((hcons rest).trans hall)
      · refine .inr ⟨line :: done, w, s'', rfl, hw, (hcons done).trans hdone, ?_⟩
        rw [List.flatten_cons, Position.after_append]
        exact hs'
    · obtain ⟨-, hne, hall, rfl⟩ := trailing?_eq_some_iff.1 htrailing
      obtain rfl := Blank.eq_nil ⟨hne, hall⟩ hls
      cases hrun
      exact .inr ⟨[], line, s, rfl, ⟨hne, hall⟩, rfl, rfl⟩

theorem run_lax_of_strict (h : run options.strictEnd inPlace p ls s = some s') :
    run options.laxEnd inPlace p ls s = some s' := by
  induction ls generalizing p s with
  | nil => exact h
  | cons line rest ih =>
    obtain ⟨s₁, hstep, hrun⟩ := run_cons_eq_some_iff.1 h
    rw [run_cons, step_lax, hstep]
    exact ih hrun

theorem not_blank_of_refusal {rest : List (List Char)} (hls : Linewise (line :: rest))
    (h : Document.refusal options.laxEnd s.opened.isSome line = some e) : ¬Blank line := by
  intro hb
  have htrailing : s.trailing? options.laxEnd (inPlace .start) line =
      some (s.push (.blank ⟨String.ofList line, inPlace .start (wholeSpan line)⟩)) :=
    if_pos ⟨rfl, hb⟩
  have hsome := @refusal_isSome options.laxEnd line rest hls s .start
  rw [h, step_lax, htrailing] at hsome
  cases hstep : s.step options.strictEnd (inPlace .start) line <;> simp [hstep] at hsome

/-- What is refused with the option is refused without it, and with the same failure. -/
theorem Refused.of_lax (hls : Linewise ls) (h : Refused options.laxEnd p ls s e) :
    Refused options.strictEnd p ls s e := by
  induction h with
  | @here p line rest s e hr =>
    have hblank : ¬Blank line := not_blank_of_refusal hls hr
    refine .here ?_
    rw [Document.refusal, ← Document.takes_lax hblank]
    exact hr
  | @later p line rest s s' e hs hr ih =>
    have hblank : ¬Blank line := by
      intro hb
      obtain rfl := hb.eq_nil hls
      cases hr
    exact .later ((step_lax_of_not_blank hblank _ s).symm.trans hs) (ih hls.2)

end Stage

namespace Document

variable {options : Options} {text : String}

theorem parse_lax_of_strict {d : Document} (h : parse options.strictEnd text = .ok d) :
    parse options.laxEnd text = .ok d := by
  obtain ⟨s, hrun, rfl⟩ := parse_eq_ok_iff.1 h
  exact parse_eq_ok_iff.2 ⟨s, Stage.run_lax_of_strict hrun, rfl⟩

theorem parse_strict_of_lax {e : Failure} (h : parse options.laxEnd text = .error e) :
    parse options.strictEnd text = .error e :=
  parse_eq_error_iff.2 ((parse_eq_error_iff.1 h).of_lax (lines_linewise _))

/-- Whether a text may end in a blank stretch matters only for a text that does. What is read
without the option is read with it, and what is refused with it is refused without it, for the same
reason. In between there are only documents with horizontal space behind them: with the option this
is one more blank line, without it the text is refused at its end. -/
theorem parse_blankEnd (options : Options) (text : String) :
    (∀ d, parse options.strictEnd text = .ok d → parse options.laxEnd text = .ok d) ∧
    (∀ e, parse options.laxEnd text = .error e → parse options.strictEnd text = .error e) ∧
    ∀ d, parse options.laxEnd text = .ok d → parse options.strictEnd text ≠ .ok d →
      ∃ t w items span, text.toList = t ++ w ∧ Ended t ∧ Blank w ∧
        d.items = items ++ [.blank ⟨String.ofList w, span⟩] ∧
        (∃ d', parse options.strictEnd (String.ofList t) = .ok d' ∧ d'.items = items) ∧
        ∃ e, parse options.strictEnd text = .error e ∧ e.cause = .unterminatedLine ∧
          e.fatal = false ∧ e.position = Position.start.after text.toList := by
  refine ⟨fun d ↦ parse_lax_of_strict, fun e ↦ parse_strict_of_lax, fun d hlax hstrict ↦ ?_⟩
  have hls := lines_linewise text.toList
  obtain ⟨s, hrun, rfl⟩ := parse_eq_ok_iff.1 hlax
  rcases Stage.run_lax hls hrun with hall | ⟨done, w, s', hdone, hw, hrun', rfl⟩
  · exact absurd (parse_eq_ok_iff.2 ⟨s, hall, rfl⟩) hstrict
  have hterminated := (hdone ▸ hls).of_append.2 (by simp)
  have htext : text.toList = done.flatten ++ w := by
    rw [← lines_flatten text.toList, hdone]
    simp
  have hrefused : Stage.Refused options.strictEnd .start (lines text.toList) {}
      ((Cursor.ofText w).unended.within (Position.start.after done.flatten)) :=
    Stage.refused_iff.2 ⟨done, w, [], s', _, hdone, hrun', refusal_of_blank hw _, rfl⟩
  refine ⟨done.flatten, w, s'.items, _, htext, .of_terminated hterminated, hw, s'.push_items _,
    ⟨_, (parse_lines_iff hterminated).2 ⟨s', hrun', rfl⟩, rfl⟩, _, parse_eq_error_iff.2 hrefused,
    rfl, rfl, ?_⟩
  rw [htext, Position.after_append, Position.after_eq_within _ w]
  rfl

/-- The text `"\n"` is read whatever the option, `"a"` is refused, and in `"\n  "` the option tells
whether the two spaces are a line. -/
theorem blank_blankEnd :
    parse (default : Options).laxEnd "\n" =
        .ok ⟨[.blank ⟨"\n", ⟨⟨1, 1⟩, ⟨2, 1⟩⟩⟩], ⟨⟨1, 1⟩, ⟨2, 1⟩⟩⟩ ∧
      (∃ e, parse (default : Options).laxEnd "a" = .error e ∧
        parse (default : Options).strictEnd "a" = .error e) ∧
      parse (default : Options).laxEnd "\n  " = .ok ⟨[.blank ⟨"\n", ⟨⟨1, 1⟩, ⟨2, 1⟩⟩⟩,
        .blank ⟨"  ", ⟨⟨2, 1⟩, ⟨2, 3⟩⟩⟩], ⟨⟨1, 1⟩, ⟨2, 3⟩⟩⟩ ∧
      ∃ e, parse (default : Options).strictEnd "\n  " = .error e ∧ e.cause = .unterminatedLine ∧
        e.position = Position.start.after "\n  ".toList := by
  have hread : parse (default : Options).strictEnd "\n" =
      .ok ⟨[.blank ⟨"\n", ⟨⟨1, 1⟩, ⟨2, 1⟩⟩⟩], ⟨⟨1, 1⟩, ⟨2, 1⟩⟩⟩ :=
    parse_eq_ok_iff.2 ⟨⟨[.blank ⟨"\n", ⟨⟨1, 1⟩, ⟨2, 1⟩⟩⟩], none⟩, by decide, rfl⟩
  have hlax : parse (default : Options).laxEnd "\n  " = .ok ⟨[.blank ⟨"\n", ⟨⟨1, 1⟩, ⟨2, 1⟩⟩⟩,
      .blank ⟨"  ", ⟨⟨2, 1⟩, ⟨2, 3⟩⟩⟩], ⟨⟨1, 1⟩, ⟨2, 3⟩⟩⟩ :=
    parse_eq_ok_iff.2 ⟨⟨[.blank ⟨"\n", ⟨⟨1, 1⟩, ⟨2, 1⟩⟩⟩, .blank ⟨"  ", ⟨⟨2, 1⟩, ⟨2, 3⟩⟩⟩], none⟩,
      by decide, rfl⟩
  have hrefused {options : Options} {text : String}
      (h : Stage.run options Stage.inPlace .start (lines text.toList) {} = none) (d : Document) :
      parse options text ≠ .ok d := by
    intro hd
    obtain ⟨s, hrun, -⟩ := parse_eq_ok_iff.1 hd
    rw [h] at hrun
    cases hrun
  obtain ⟨-, -, hend⟩ := parse_blankEnd default "\n  "
  obtain ⟨_, _, _, _, -, -, -, -, -, e, he, hcause, -, hposition⟩ :=
    hend _ hlax (hrefused (by decide) _)
  refine ⟨(parse_blankEnd default "\n").1 _ hread, ?_, hlax, e, he, hcause, hposition⟩
  cases ha : parse (default : Options).laxEnd "a" with
  | ok d => exact absurd ha (hrefused (by decide) d)
  | error e => exact ⟨e, rfl, (parse_blankEnd default "a").2.1 e ha⟩

end Document

end EntityModels
