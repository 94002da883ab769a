import EntityModels.Proofs.Grammar.Mildness
import EntityModels.Proofs.Grammar.Trivia
import EntityModels.Proofs.Reading.Loop
import EntityModels.Proofs.Unicode.Classes

namespace EntityModels

theorem readAlone_ofReader {α : Type} (r : Reader α) (text : List Char) :
    readAlone (r : Parser α) text = r.value? (.ofText text) := by
  have hlift : (r : Parser α) = Parser.ofReader r := rfl
  rw [readAlone, hlift, Parser.ofReader, Reader.value?]
  cases hr : r (.ofText text) with
  | ok a c =>
    have : r (ParserState.ofText text).cursor = .ok a c := hr
    rw [this]
  | error e c =>
    have : r (ParserState.ofText text).cursor = .error e c := hr
    rw [this]

theorem Entity.head_fails {Q : Failure → Prop} (hm : ∀ c expected, Q (Cursor.mismatch c expected)) :
    FailsWith Q head :=
  FailsWith.position.bind fun _ ↦ (header_fails hm).bind fun _ ↦ FailsWith.position.bind fun _ ↦
    .pure _

theorem Entity.head_mild : Mild head := head_fails Cursor.mismatch_fatal

section

variable {c d : Cursor}

theorem Entity.head_start {e : Entity} (h : head c = .ok e d) : c.next?.any isTypeStart := by
  obtain ⟨start, c₁, h₁, h⟩ := bind_ok h
  obtain ⟨header, c₂, h₂, -⟩ := bind_ok h
  obtain ⟨name, c₃, h₃, -⟩ := bind_ok h₂
  cases h₁
  rw [Reader.ident_apply] at h₃
  simp only at h₃
  split at h₃
  · next hc =>
    simp only [Bool.and_eq_true] at hc
    exact hc.1.1
  · cases h₃

theorem Cursor.next?_skip (h : c.next?.any isHorizontalSpace = false) :
    (c.skip isHorizontalSpace).next? = c.next? := by
  obtain ⟨rest, p⟩ := c
  cases rest with
  | nil => rfl
  | cons x rest =>
    have hx : isHorizontalSpace x = false := h
    simp [next?, skip, past, hx]

theorem Cursor.unindented_of_typeStart (h : c.next?.any isTypeStart) :
    c.next?.any isHorizontalSpace = false := by
  cases hn : c.next? with
  | none => rfl
  | some x =>
    rw [hn] at h
    exact isHorizontalSpace_of_isTypeStart h

theorem Field.mayStart_iff : mayStart c.rest ↔
    c.next?.any isHorizontalSpace ∧ (c.skip isHorizontalSpace).next?.any isFieldStart := by
  rw [mayStart, indentedChar, afterIndentation_eq]
  split
  · next h => exact ⟨fun k ↦ ⟨h, k⟩, And.right⟩
  · next h => simp [h]

theorem CommentLine.next?_of_mayStart (h : mayStart c.rest) :
    (c.skip isHorizontalSpace).next? = some '-' := by
  obtain ⟨rest, hrest⟩ := mayStart_iff.1 h
  rw [Cursor.next?, hrest]
  rfl

theorem ItemKind.start_of_ok {kind : ItemKind} {item : Item} (h : kind.lineReader c = .ok item d) :
    kind.mayStart c.rest ∧ (c.next?.any isTypeStart ∨
      (c.skip isHorizontalSpace).next? = some '\n' ∨
        (c.skip isHorizontalSpace).next? = some '-') := by
  cases kind with
  | entity =>
    obtain ⟨e, d', he, -⟩ := bind_ok h
    exact ⟨Entity.head_start he, .inl (Entity.head_start he)⟩
  | blank =>
    obtain ⟨line, d', hl, -⟩ := bind_ok h
    have hn := (BlankLine.reader_ok hl).1
    exact ⟨BlankLine.mayStart_of_next hn, .inr (.inl hn)⟩
  | comment =>
    obtain ⟨line, d', hl, -⟩ := bind_ok h
    have hm := CommentLine.mayStart_of_ok hl
    exact ⟨hm, .inr (.inr (CommentLine.next?_of_mayStart hm))⟩

/-- What begins with horizontal space and goes on in another way is no item. -/
theorem ItemKind.value?_eq_none (hspace : c.next?.any isHorizontalSpace)
    (hn : (c.skip isHorizontalSpace).next? ≠ some '\n')
    (hd : (c.skip isHorizontalSpace).next? ≠ some '-') (kind : ItemKind) :
    kind.lineReader.value? c = none := by
  rw [Option.eq_none_iff_forall_ne_some]
  intro item hv
  obtain ⟨d, hr⟩ := Reader.ok_of_value? hv
  rcases (ItemKind.start_of_ok hr).2 with ht | hn' | hd'
  · rw [Cursor.unindented_of_typeStart ht] at hspace
    cases hspace
  · exact hn hn'
  · exact hd hd'

theorem ItemKind.value?_of_field (h : Field.mayStart c.rest) (kind : ItemKind) :
    kind.lineReader.value? c = none := by
  obtain ⟨hspace, hstart⟩ := Field.mayStart_iff.1 h
  refine value?_eq_none hspace (fun hn ↦ ?_) (fun hd ↦ ?_) kind
  · rw [hn] at hstart
    revert hstart
    decide
  · rw [hd] at hstart
    revert hstart
    decide

theorem Field.not_blank (h : mayStart c.rest) : c.rest.all isHorizontalSpace = false := by
  rw [Bool.eq_false_iff]
  intro hall
  have hdrop := (takeWhile_of_all (List.all_eq_true.1 hall)).2
  have hstart := (mayStart_iff.1 h).2
  rw [Cursor.next?, Cursor.skip, Cursor.past, hdrop] at hstart
  cases hstart

theorem ItemKind.value?_of_blank (hne : c.rest ≠ []) (hall : c.rest.all isHorizontalSpace)
    (kind : ItemKind) : kind.lineReader.value? c = none := by
  have hdrop := (takeWhile_of_all (List.all_eq_true.1 hall)).2
  have hnext : (c.skip isHorizontalSpace).next? = none := by
    change (c.rest.dropWhile isHorizontalSpace).head? = none
    rw [hdrop]
    rfl
  obtain ⟨x, rest, hr⟩ := List.exists_cons_of_ne_nil hne
  have hspace : c.next?.any isHorizontalSpace := by
    rw [Cursor.next?, hr]
    exact List.all_eq_true.1 hall x (by rw [hr]; exact List.mem_cons_self)
  exact value?_eq_none hspace (by simp [hnext]) (by simp [hnext]) kind

end

section

variable {options : Options} {line : List Char} {rest : List (List Char)} {σ : ParserState}

theorem ParserState.eq_within {tail : List Char} (h : σ.cursor.rest = line ++ tail) :
    σ = (ofText line).within ⟨σ.cursor.position, tail, σ.farthest⟩ := by
  obtain ⟨⟨text, p⟩, noted⟩ := σ
  obtain rfl : text = line ++ tail := h
  rw [ofText_within]

theorem Linewise.fits (h : Linewise (line :: rest)) (base : Position) (noted : Option Failure) :
    (Cursor.ofText line).Fits ⟨base, rest.flatten, noted⟩ :=
  ⟨Position.genuine_start, h.newline_mem⟩

/-- Where the nodes of a line are that begins at the cursor. -/
def ParserState.move (σ : ParserState) : Span → Span := Span.within σ.cursor.position.location

theorem ParserState.move_eq {σ τ : ParserState} (h : σ.cursor = τ.cursor) : σ.move = τ.move := by
  rw [move, move, h]

/-- What is found at a line is what is found in the line alone, in its place. -/
theorem Linewise.found_eq {α : Type} {p : Parser (Option α)} {f : (Span → Span) → α → α}
    (hp : ∀ place : Place, Agrees place (·.Fits place) endsOrStays (Option.map (f place.move)) p p)
    (h : Linewise (line :: rest)) (hσ : σ.cursor.rest = (line :: rest).flatten) :
    match p (.ofText line) with
    | .ok found _ => ∃ t, p σ = .ok (found.map (f σ.move)) t
    | .error e _ => ∃ t, p σ = .error (e.within σ.cursor.position) t := by
  let place : Place := ⟨σ.cursor.position, rest.flatten, σ.farthest⟩
  have hw : p (ParserState.within place (.ofText line)) =
      place.outcome (Option.map (f place.move)) (p (.ofText line)) :=
    (hp place).within (.ofText line) (h.fits _ _)
  rw [← ParserState.eq_within hσ] at hw
  rw [hw]
  cases p (.ofText line) with
  | ok found t => exact ⟨_, rfl⟩
  | error e t => exact ⟨_, rfl⟩

theorem ParserState.move_wholeSpan (σ : ParserState) (line : List Char) :
    (σ.move (wholeSpan line)).stop = (σ.cursor.position.after line).location := by
  rw [Position.after_eq_within]
  rfl

theorem Entity.readAlone_eq_head (h : Linewise (line :: rest)) :
    readAlone (parser options) line = head.value? (.ofText line) := by
  rw [← readAlone_ofReader, readAlone, readAlone, parser_eq, bind_apply]
  cases hh : (head : Parser Entity) (.ofText line) with
  | error e t => rfl
  | ok e t =>
    have hr : head (Cursor.ofText line) = .ok e t.cursor := Parser.ofReader_ok hh
    have hnext : t.cursor = (Cursor.ofText line).nextLine :=
      (@head_endsLine .alone).leads _ _ _ hr
    rw [h.alone.nextLine_eq (c := .ofText line) (by simp [Cursor.ofText])] at hnext
    have hm : (Member.choice options).mayStart t.cursor.rest = false := by
      rw [hnext]
      rfl
    simp only [body_of_none (Choice.tried_eq_none hm) (head_stop hr)]

namespace Member

theorem readAlone_of_tried {m : Member} {t : ParserState}
    (h : (choice options).tried (.ofText line) = .ok (some m) t) :
    readAlone (parser options) line = some m := by
  have hp : parser options (.ofText line) = .ok m t := (Choice.tried_some h).2
  rw [readAlone, hp]

theorem mayStart_of_typeStart {x : Char} (h : isTypeStart x) (tail : List Char) :
    mayStart (x :: tail) = false := by
  have hdash : x ≠ '-' := by
    rintro rfl
    exact absurd h (by decide)
  exact mayStart_eq_false (isWhiteSpace_of_isIdentChar (isIdentChar_of_isTypeStart h)) hdash tail

theorem tried_of_readAlone {m : Member} (h : readAlone (parser options) line = some m) :
    ∃ t, (choice options).tried (.ofText line) = .ok (some m) t := by
  unfold readAlone at h
  split at h
  · next a t hp =>
    cases h
    obtain ⟨other, ho, s', -, hm, -⟩ := Choice.firstOr_ok hp
    obtain ⟨kind, hk, rfl⟩ := List.mem_map.1 ho
    have hstart : (choice options).mayStart (ParserState.ofText line).cursor.rest :=
      List.any_eq_true.2 ⟨kind, hk, hm⟩
    refine ⟨t, ?_⟩
    rw [Choice.tried_eq_attempt hstart]
    have hp' : (choice options).parser (.ofText line) = .ok m t := hp
    rw [Parser.attempt, hp']
  · cases h

theorem field_of_tried_error {e : Failure} {t : ParserState}
    (h : (choice options).tried (.ofText line) = .error e t) : Field.mayStart line := by
  obtain ⟨hp, hf⟩ := Choice.tried_error h
  change Choice.firstOr _ _ _ = _ at hp
  rw [Choice.firstOr, bind_apply] at hp
  cases hr : Choice.first (MemberKind.all.map (MemberKind.choice options)) (.ofText line) with
  | error e' u =>
    rw [hr] at hp
    cases hp
    obtain ⟨-, other, ho, s', hs, hm, he⟩ := Choice.first_error hr
    obtain ⟨kind, -, rfl⟩ := List.mem_map.1 ho
    by_cases hk : kind = .field
    · subst hk
      exact hm
    · have hmild := (kind.reader_mild options hk).ofReader s' e t he
      rw [hmild] at hf
      cases hf
  | ok found u =>
    rw [hr] at hp
    cases found with
    | some m => cases hp
    | none =>
      cases hp
      cases hf

/-- What is a blank line or a comment is a member. -/
theorem trivia_of_tried_none {t : ParserState}
    (h : (choice options).tried (.ofText line) = .ok none t) {kind : ItemKind}
    (hk : kind ≠ .entity) : kind.lineReader.value? (.ofText line) = none := by
  rw [Option.eq_none_iff_forall_ne_some]
  intro item hv
  obtain ⟨d, hr⟩ := Reader.ok_of_value? hv
  -- as a member the line passes the same test and is read by the same reader
  obtain ⟨member, hstart, m, hm⟩ : ∃ member : MemberKind, member.mayStart line ∧
      ∃ m, (member.reader options).value? (.ofText line) = some m := by
    have hstart := (ItemKind.start_of_ok hr).1
    cases kind with
    | entity => exact absurd rfl hk
    | blank =>
      obtain ⟨l, d', hl, -⟩ := bind_ok hr
      refine ⟨.blank, hstart, .blank l, ?_⟩
      rw [MemberKind.reader, Reader.value?, bind_apply, hl]
      rfl
    | comment =>
      obtain ⟨l, d', hl, -⟩ := bind_ok hr
      refine ⟨.comment, hstart, .comment l, ?_⟩
      rw [MemberKind.reader, Reader.value?, bind_apply, hl]
      rfl
  have hmember : member ∈ MemberKind.all := by cases member <;> decide
  have hany : (choice options).mayStart (ParserState.ofText line).cursor.rest :=
    List.any_eq_true.2 ⟨member, hmember, hstart⟩
  rw [Choice.tried_eq_attempt hany] at h
  obtain ⟨-, e, u, hp, hf⟩ := Parser.attempt_none h
  change Choice.firstOr _ _ _ = _ at hp
  rw [Choice.firstOr, bind_apply] at hp
  cases hr : Choice.first (MemberKind.all.map (MemberKind.choice options)) (.ofText line) with
  | error e' v =>
    rw [hr] at hp
    cases hp
    rw [(Choice.first_error hr).1] at hf
    cases hf
  | ok found v =>
    have hvalue := Choice.first_value (fun _ ↦ rfl) hr
    rw [hr] at hp
    cases found with
    | some m => cases hp
    | none =>
      have hnone := List.findSome?_eq_none_iff.1 hvalue.symm member hmember
      have hpass : (member.choice options).mayStart (ParserState.ofText line).cursor.rest := hstart
      rw [if_pos hpass] at hnone
      have hm' : (member.reader options).value? (ParserState.ofText line).cursor = some m := hm
      rw [hm'] at hnone
      cases hnone

end Member

end

end EntityModels
