import Mathlib.Data.List.TakeWhile
import EntityModels.Proofs.Parsing.Triple
import EntityModels.Proofs.Reading.MissingMarker

namespace EntityModels

namespace Parser.Triple

variable {α : Type} {Q : Failure → Prop} {pre : Cursor → Prop}

theorem orTakes {p : Parser (Option α)} {q : Parser Bool}
    (hp : Triple Q pre p (OrStays pre fun _ _ ↦ True))
    (hq : Triple Q pre q fun found c ↦ found = false → pre c) :
    Triple Q pre (p.orTakes q) fun found c ↦ found = false → pre c := by
  refine hp.bind fun found ↦ ?_
  cases found with
  | some a => exact .pure fun _ _ hfound ↦ by cases hfound
  | none => exact hq

end Parser.Triple

namespace Document

variable {Q : Failure → Prop} {pre : Cursor → Prop} {options : Options}

theorem gate_triple :
    Parser.Triple Q pre (gate options) (Parser.OrStays pre fun _ _ ↦ True) := by
  refine ⟨fun s found t h hs hn ↦ ?_, fun s e t h ↦ absurd h (gate_no_error options)⟩
  rw [gate_apply] at h
  split at h
  · cases h
    exact ⟨trivial, hn⟩
  · split at h
    · cases h
      exact ⟨trivial, hn⟩
    · cases h
      exact ⟨hs, hn⟩

/-- What holds of the failures of the kinds that a line may be holds of all that is noted of it. -/
theorem takes_triple (hm : ∀ c expected, pre c → Q (Cursor.mismatch c expected))
    (hmember : ∀ (kind : MemberKind) c e d, pre c → kind.mayStart c.rest →
      kind.reader options c = .error e d → Q e)
    (hitem : ∀ (kind : ItemKind) c e d, pre c → kind.mayStart c.rest →
      kind.lineReader c = .error e d → Q e) (opened : Bool) :
    Parser.Triple Q pre (takes options opened) fun found c ↦ found = false → pre c := by
  have hitems : Parser.Triple Q pre Item.lineParser fun _ _ ↦ True := by
    refine Choice.firstOr_triple (fun choice hc ↦ ?_) fun c hc ↦ hm c _ hc
    obtain ⟨kind, -, rfl⟩ := List.mem_map.1 hc
    exact .ofReader (fun _ _ _ _ _ ↦ trivial) fun c e d hr hc ↦ hitem kind c e d hc.1 hc.2 hr
  have hmembers : Parser.Triple Q pre (Member.choice options).parser fun _ _ ↦ True := by
    refine Choice.firstOr_triple (fun choice hc ↦ ?_) fun c hc ↦ hm c _ hc
    obtain ⟨kind, -, rfl⟩ := List.mem_map.1 hc
    exact .ofReader (fun _ _ _ _ _ ↦ trivial) fun c e d hr hc ↦ hmember kind c e d hc.1 hc.2 hr
  have htakes : Parser.Triple Q pre (takesItem options) fun found c ↦ found = false → pre c :=
    gate_triple.orTakes (hitems.attempt.orTakes (.pure fun _ hc _ ↦ hc))
  cases opened with
  | false => exact htakes
  | true =>
    have htried := Choice.tried_triple (hmembers.mono (fun _ hc ↦ And.left hc) fun _ _ h ↦ h)
    exact htried.orTakes htakes

/-- A line is refused with a failure of one of the kinds that it may be, or because there should be
something else where it begins. -/
theorem refusal_cases {opened : Bool} {line : List Char} {e : Failure}
    (h : refusal options opened line = some e) :
    (∃ expected, e = (Cursor.ofText line).mismatch expected) ∨
    (∃ kind : MemberKind, kind.mayStart line ∧
      ∃ d, kind.reader options (.ofText line) = .error e d) ∨
    ∃ kind : ItemKind, kind.mayStart line ∧ ∃ d, kind.lineReader (.ofText line) = .error e d := by
  let Q (e : Failure) : Prop := (∃ expected, e = (Cursor.ofText line).mismatch expected) ∨
    (∃ kind : MemberKind, kind.mayStart line ∧
      ∃ d, kind.reader options (.ofText line) = .error e d) ∨
    ∃ kind : ItemKind, kind.mayStart line ∧ ∃ d, kind.lineReader (.ofText line) = .error e d
  have htakes : Parser.Triple Q (· = .ofText line) (takes options opened)
      fun found c ↦ found = false → c = .ofText line := by
    refine takes_triple (fun c expected hc ↦ ?_) (fun kind c e d hc hs hr ↦ ?_)
      (fun kind c e d hc hs hr ↦ ?_) opened
    · exact .inl ⟨expected, hc ▸ rfl⟩
    · subst hc
      exact .inr (.inl ⟨kind, hs, d, hr⟩)
    · subst hc
      exact .inr (.inr ⟨kind, hs, d, hr⟩)
  have hstart : ParserState.Notes Q (.ofText line) := fun f hf ↦ by cases hf
  unfold refusal at h
  split at h
  · next e' t ht =>
    cases h
    exact (htakes.error _ _ _ ht rfl hstart).1
  · cases h
  · next t ht =>
    cases h
    obtain ⟨hc, hn⟩ := htakes.ok _ _ _ ht rfl hstart
    refine (hn.conclude ?_).1
    exact .inl ⟨_, congrArg (Cursor.mismatch · _) (hc rfl)⟩

end Document

def OpenComment (line : List Char) : Prop :=
  ∃ blanks body, (∀ c ∈ blanks, isHorizontalSpace c) ∧ '\n' ∉ body ∧
    line = blanks ++ (Keyword.comment.toList ++ body)

section

variable {line : List Char} {c d : Cursor} {e : Failure}

theorem openComment_iff : OpenComment line ↔ CommentLine.mayStart line ∧ '\n' ∉ line := by
  constructor
  · rintro ⟨blanks, body, hblanks, hbody, rfl⟩
    have hdash : Unspaced (Keyword.comment.toList ++ body) := .of_head (x := '-') (by decide) _
    have hstart : CommentLine.mayStart (blanks ++ (Keyword.comment.toList ++ body)) := by
      refine (CommentLine.mayStart_iff (c := .ofText _)).2 ⟨body, ?_⟩
      exact (takeWhile_append_stop hblanks hdash).2
    refine ⟨hstart, ?_⟩
    have hnl := Stage.newline_of_blank (List.all_eq_true.2 hblanks)
    simp [hnl, hbody, Keyword.comment]
  · rintro ⟨hstart, hnl⟩
    obtain ⟨body, hbody⟩ := (CommentLine.mayStart_iff (c := .ofText line)).1 hstart
    have hcut : line = line.takeWhile isHorizontalSpace ++ (Keyword.comment.toList ++ body) := by
      rw [← hbody]
      exact List.takeWhile_append_dropWhile.symm
    refine ⟨_, body, fun c hc ↦ List.mem_takeWhile_imp hc, fun hb ↦ hnl ?_, hcut⟩
    rw [hcut]
    simp [hb]

theorem OpenComment.unterminated (h : OpenComment line) : Unterminated line := by
  obtain ⟨hstart, hnl⟩ := openComment_iff.1 h
  refine ⟨?_, hnl⟩
  rintro rfl
  revert hstart
  decide

theorem Blank.unterminated (h : Blank line) : Unterminated line :=
  ⟨h.1, Stage.newline_of_blank h.2⟩

theorem MemberKind.mayStart_of_comment (h : CommentLine.mayStart line) {kind : MemberKind}
    (hk : kind ≠ comment) : kind.mayStart line = false := by
  have hhead : (line.dropWhile isHorizontalSpace).head? = some '-' :=
    CommentLine.next?_of_mayStart (c := .ofText line) h
  by_cases hb : kind = blank
  · subst hb
    obtain ⟨tail, htail⟩ := List.head?_eq_some_iff.1 hhead
    simp [mayStart, BlankLine.mayStart, htail]
  · refine mayStart_eq_false (x := '-') (fun body hbody ↦ ?_) (by decide) (by decide) (by decide)
      (by decide) hb hk
    have hindent := (afterIndentation_eq (.ofText line)).symm.trans hbody
    split at hindent
    · cases hindent
      exact hhead
    · cases hindent

theorem ItemKind.mayStart_of_comment (h : CommentLine.mayStart line) {kind : ItemKind}
    (hk : kind ≠ comment) : kind.mayStart line = false := by
  cases kind with
  | entity =>
    refine Bool.eq_false_iff.2 fun ht ↦ ?_
    have hspace := Cursor.unindented_of_typeStart (c := .ofText line) ht
    have hhead := CommentLine.next?_of_mayStart (c := .ofText line) h
    rw [Cursor.next?_skip hspace] at hhead
    have htype : (Cursor.ofText line).next?.any isTypeStart := ht
    rw [hhead] at htype
    revert htype
    decide
  | blank => exact @MemberKind.mayStart_of_comment line h .blank (by decide)
  | comment => exact absurd rfl hk

theorem OpenComment.lacksEnd (h : OpenComment line) : LacksEnd line .comment .comment := by
  obtain ⟨hstart, hnl⟩ := openComment_iff.1 h
  have hfails (c : Cursor) (hc : c.rest = line) :
      CommentLine.reader c = .error c.unended ⟨[], c.position.after c.rest⟩ := by
    subst hc
    rw [CommentLine.reader_apply hstart, if_neg hnl]
  exact {
    ne_nil := h.unterminated.1
    member_starts := hstart
    member_only := fun _ ↦ MemberKind.mayStart_of_comment hstart
    member_fails := fun options c hc ↦ ⟨_, by rw [MemberKind.reader, bind_apply, hfails c hc]⟩
    item_starts := hstart
    item_only := fun _ ↦ ItemKind.mayStart_of_comment hstart
    item_fails := fun c hc ↦ ⟨_, by rw [ItemKind.lineReader, bind_apply, hfails c hc]⟩ }

theorem BlankLine.blank_of_error (hs : mayStart c.rest) (h : reader c = .error e d) :
    Blank c.rest := by
  rw [reader_apply] at h
  split at h
  · cases h
  · next hn =>
    have hhead : (c.rest.dropWhile isHorizontalSpace).head? ≠ some '\n' := hn
    simp only [mayStart, Bool.or_eq_true, beq_iff_eq, hhead, false_or, Bool.and_eq_true,
      List.isEmpty_iff, Bool.not_eq_true', List.isEmpty_eq_false_iff] at hs
    exact ⟨hs.2, List.all_eq_true.2 (List.dropWhile_eq_nil_iff.1 hs.1)⟩

theorem CommentLine.open_of_error (hs : mayStart c.rest) (h : reader c = .error e d) :
    OpenComment c.rest := by
  rw [reader_apply hs] at h
  split at h
  · cases h
  · next hn => exact openComment_iff.2 ⟨hs, hn⟩

theorem MemberKind.unterminated_of_error {options : Options} {kind : MemberKind}
    (hs : kind.mayStart c.rest) (h : kind.reader options c = .error e d)
    (he : e.cause = .unterminatedLine) : Blank c.rest ∨ OpenComment c.rest := by
  have hcause : e.cause ∈ kind.causes := kind.reader_causes options c e d h
  rw [he] at hcause
  cases kind with
  | field | derive | primary | foreign | unique =>
    simp only [causes, List.mem_cons, reduceCtorEq, List.not_mem_nil, or_self] at hcause
  | blank => exact .inl (BlankLine.blank_of_error hs (bind_pure_error h))
  | comment => exact .inr (CommentLine.open_of_error hs (bind_pure_error h))

theorem ItemKind.unterminated_of_error {kind : ItemKind} (hs : kind.mayStart c.rest)
    (h : kind.lineReader c = .error e d) (he : e.cause = .unterminatedLine) :
    Blank c.rest ∨ OpenComment c.rest := by
  cases kind with
  | entity =>
    have hhead : FailsWith (·.cause = .structuralMismatch) Entity.head :=
      Entity.head_fails fun _ _ ↦ rfl
    exact absurd (he.symm.trans (hhead c e d (bind_pure_error h))) (by decide)
  | blank => exact .inl (BlankLine.blank_of_error hs (bind_pure_error h))
  | comment => exact .inr (CommentLine.open_of_error hs (bind_pure_error h))

end

namespace Document

variable {options : Options} {opened : Bool} {line : List Char} {e : Failure}

theorem unterminated_of_refusal (h : refusal options opened line = some e)
    (he : e.cause = .unterminatedLine) : Blank line ∨ OpenComment line := by
  rcases refusal_cases h with ⟨expected, rfl⟩ | ⟨kind, hs, d, hr⟩ | ⟨kind, hs, d, hr⟩
  · cases he
  · exact kind.unterminated_of_error hs hr he
  · exact kind.unterminated_of_error hs hr he

theorem refusal_ofLine (h : refusal options opened line = some e) : e.OfLine := by
  rcases refusal_cases h with ⟨expected, rfl⟩ | ⟨kind, hs, d, hr⟩ | ⟨kind, hs, d, hr⟩
  · exact Cursor.mismatch_ofLine _ _
  · exact kind.reader_ofLine options _ _ _ hr
  · exact kind.lineReader_ofLine _ _ _ hr

/-- The line misses its line feed, and this is no blank end that the options allow. -/
def Dangling (options : Options) (line : List Char) : Prop :=
  OpenComment line ∨ Blank line ∧ options.trailingBlank = false

theorem Dangling.unterminated (h : Dangling options line) : Unterminated line :=
  h.elim OpenComment.unterminated fun hb ↦ hb.1.unterminated

theorem Dangling.refusal (h : Dangling options line) (opened : Bool) :
    Document.refusal options opened line = some (Cursor.ofText line).unended := by
  rcases h with hc | ⟨hb, ho⟩
  · refine refusal_of_lacksEnd hc.lacksEnd ?_ opened
    rintro ⟨-, hall⟩
    have hhead := CommentLine.next?_of_mayStart (c := .ofText line) (openComment_iff.1 hc).1
    have hdrop := Blank.dropWhile ⟨hc.unterminated.1, hall⟩
    have hnone : (Cursor.ofText line |>.skip isHorizontalSpace).next? = none :=
      congrArg List.head? hdrop
    rw [hnone] at hhead
    cases hhead
  · exact refusal_of_lacksEnd hb.lacksEnd (by simp [ho]) opened

theorem dangling_of_refusal {rest : List (List Char)} (hls : Linewise (line :: rest)) {s : Stage}
    (h : refusal options s.opened.isSome line = some e) (he : e.cause = .unterminatedLine) :
    Dangling options line := by
  rcases unterminated_of_refusal h he with hb | hc
  · refine .inr ⟨hb, Bool.eq_false_iff.2 fun ho ↦ ?_⟩
    have hoptions : options = options.laxEnd := by rw [Options.laxEnd, ← ho]
    rw [hoptions] at h
    exact Stage.not_blank_of_refusal hls h hb
  · exact .inl hc

variable {done : List Char} {text : String}

/-- Where everything else is read, the missing line feed is reported, at the end of the text. -/
theorem parse_of_dangling (htext : text.toList = done ++ line) (hdone : Ended done)
    (hline : Dangling options line) (hok : ∃ d, parse options (String.ofList done) = .ok d) :
    ∃ e, parse options text = .error e ∧ e.cause = .unterminatedLine := by
  obtain ⟨d, hd⟩ := hok
  rw [← lines_flatten done] at hd
  obtain ⟨s, hrun, -⟩ := (parse_lines_iff hdone.terminated).1 hd
  obtain ⟨hne, hnl⟩ := hline.unterminated
  have hlines : lines text.toList = lines done ++ [line] := by
    rw [htext, hdone.lines_append, lines_of_notMem hne hnl]
  refine ⟨(Cursor.ofText line).unended.within (Position.start.after (lines done).flatten), ?_, rfl⟩
  have hrefusal := hline.refusal s.opened.isSome
  exact parse_eq_error_iff.2
    (Stage.refused_iff.2 ⟨lines done, line, [], s, _, hlines, hrun, hrefusal, rfl⟩)

theorem dangling_of_parse (h : parse options text = .error e) (he : e.cause = .unterminatedLine) :
    ∃ done line, text.toList = done ++ line ∧ Ended done ∧ Dangling options line ∧
      (∃ d, parse options (String.ofList done) = .ok d) ∧
        e.position = Position.start.after text.toList := by
  obtain ⟨done, line, rest, s, e', hlines, hterminated, hrun, hr, rfl, -⟩ :=
    exists_of_parse_eq_error h
  have hls := lines_linewise text.toList
  rw [hlines] at hls
  have hrest := hls.right_of_append
  have hdangling : Dangling options line := dangling_of_refusal hrest hr he
  have hflat : rest.flatten = [] := hrest.newline_mem.resolve_left hdangling.unterminated.2
  have htext : text.toList = done.flatten ++ line := by
    rw [← lines_flatten text.toList, hlines, List.flatten_append, List.flatten_cons, hflat,
      List.append_nil]
  obtain rfl : (Cursor.ofText line).unended = e' :=
    Option.some.inj ((hdangling.refusal s.opened.isSome).symm.trans hr)
  refine ⟨done.flatten, line, htext, .of_terminated hterminated, hdangling,
    ⟨_, (parse_lines_iff hterminated).2 ⟨s, hrun, rfl⟩⟩, ?_⟩
  rw [htext, Position.after_append, Position.after_eq_within _ line]
  rfl

theorem parse_ofLine (h : parse options text = .error e) : e.OfLine := by
  obtain ⟨done, line, rest, s, e', -, -, -, hr, rfl, -⟩ := exists_of_parse_eq_error h
  have hline : e'.OfLine := refusal_ofLine hr
  exact hline

/-- A document is refused for a missing line feed if and only if its last line has none, is a
comment or a blank end that the options do not allow, and everything in front of it is a document.
The failure stands at the end of the text. What is left of any other line can be passed over with
or without a line feed, and no document misses a marker. -/
theorem unterminated_exact (options : Options) (text : String) :
    ((∃ e, parse options text = .error e ∧ e.cause = .unterminatedLine) ↔
      ∃ done line, text.toList = done ++ line ∧ Ended done ∧ Unterminated line ∧
        (∃ d, parse options (String.ofList done) = .ok d) ∧
        ((∃ blanks body, (∀ c ∈ blanks, isHorizontalSpace c) ∧
          line = blanks ++ (Keyword.comment.toList ++ body)) ∨
          Blank line ∧ options.trailingBlank = false)) ∧
    (∀ e, parse options text = .error e → e.cause ≠ .markerNotFound ∧
      (e.cause = .unterminatedLine → e.position = Position.start.after text.toList)) ∧
    ∀ c, Reader.finishLine c = .ok () c.nextLine := by
  refine ⟨⟨?_, ?_⟩, fun e h ↦ ⟨parse_ofLine h, fun he ↦ ?_⟩, Reader.finishLine_apply⟩
  · rintro ⟨e, h, he⟩
    obtain ⟨done, line, htext, hdone, hline, hok, -⟩ := dangling_of_parse h he
    refine ⟨done, line, htext, hdone, hline.unterminated, hok, hline.imp_left ?_⟩
    rintro ⟨blanks, body, hblanks, -, hcut⟩
    exact ⟨blanks, body, hblanks, hcut⟩
  · rintro ⟨done, line, htext, hdone, ⟨-, hnl⟩, hok, hline⟩
    refine parse_of_dangling htext hdone (hline.imp_left ?_) hok
    rintro ⟨blanks, body, hblanks, rfl⟩
    exact ⟨blanks, body, hblanks, fun hb ↦ hnl (by simp [hb]), rfl⟩
  · obtain ⟨-, -, -, -, -, -, hposition⟩ := dangling_of_parse h he
    exact hposition

theorem unterminated_comment : ∃ e, parse default "A\n  -- more" = .error e ∧
    e.cause = .unterminatedLine ∧ e.position = Position.start.after "A\n  -- more".toList := by
  let header : Stage := ⟨[], some ⟨⟨"A", ⟨1, 1⟩, ⟨1, 2⟩⟩, false, none, [], ⟨1, 1⟩, ⟨2, 1⟩⟩⟩
  have hok : ∃ d, parse default (String.ofList "A\n".toList) = .ok d :=
    ⟨_, parse_eq_ok_iff.2 ⟨header, by decide +kernel, rfl⟩⟩
  obtain ⟨hiff, hposition, -⟩ := unterminated_exact default "A\n  -- more"
  have hline : Unterminated "  -- more".toList := ⟨List.cons_ne_nil _ _, by decide⟩
  obtain ⟨e, he, hcause⟩ := hiff.2 ⟨"A\n".toList, "  -- more".toList, rfl, .inr rfl, hline, hok,
    .inl ⟨"  ".toList, " more".toList, List.all_eq_true.1 (by decide), rfl⟩⟩
  exact ⟨e, he, hcause, (hposition e he).2 hcause⟩

end Document

end EntityModels
