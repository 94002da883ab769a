import EntityModels.Proofs.Reading.Alone
import EntityModels.Proofs.Reading.Boundaries

namespace EntityModels

namespace Stage

variable {options : Options} {b : Boundary} {line : List Char} {rest : List (List Char)}
  {σ : ParserState} {s s' : Stage}

theorem member?_of_opened {e : Entity} (h : s.opened = some e) (place : Span → Span) :
    s.member? options place line = (readAlone (Member.parser options) line).map fun m ↦
      { s with opened := some (e.extend (m.mapSpan place) (place (wholeSpan line)).stop) } := by
  rw [member?, h]
  cases readAlone (Member.parser options) line <;> rfl

theorem member?_of_closed (h : s.opened = none) (place : Span → Span) :
    s.member? options place line = none := by
  rw [member?, h]
  rfl

theorem member?_of_mayStart (h : Member.mayStart line = false) (place : Span → Span) (s : Stage) :
    s.member? options place line = none := by
  cases ho : s.opened with
  | none => exact member?_of_closed ho place
  | some e =>
    rw [member?_of_opened ho, Option.map_eq_none_iff, Option.eq_none_iff_forall_ne_some]
    intro m hm
    obtain ⟨t, ht⟩ := Member.tried_of_readAlone hm
    have hstart : Member.mayStart line = true := (Choice.tried_some ht).1
    rw [h] at hstart
    cases hstart

theorem readMember_of_some (h : Linewise (line :: rest))
    (hσ : σ.cursor.rest = (line :: rest).flatten) (hm : s.member? options σ.move line = some s') :
    ∃ t, s.readMember options σ = .ok (some s') t ∧
      t.cursor = ⟨rest.flatten, σ.cursor.position.after line⟩ := by
  obtain ⟨e, m, ho, hr, rfl⟩ := member?_eq_some hm
  obtain ⟨t₀, ht₀⟩ := Member.tried_of_readAlone hr
  have hfound := h.found_eq (fun place ↦ (Member.choice_endsLine options).tried) hσ
  rw [ht₀] at hfound
  obtain ⟨t, ht⟩ := hfound
  rw [Option.map_some] at ht
  have hnext := (Member.choice_next ht).trans (h.nextLine_eq hσ)
  refine ⟨t, ?_, hnext⟩
  rw [readMember_of_opened ho, ht, σ.move_wholeSpan]
  simp only [hnext]

/-- A line that is no member for the machine is none for the loop. It may have been meant as a
field; else no blank line and no comment is left over from an entity. -/
theorem readMember_of_none (h : Linewise (line :: rest))
    (hσ : σ.cursor.rest = (line :: rest).flatten) (hm : s.member? options σ.move line = none) :
    (∃ e t, s.readMember options σ = .error e t ∧ Field.mayStart line ∧ s.opened.isSome) ∨
      ∃ t, s.readMember options σ = .ok none t ∧ t.cursor = σ.cursor ∧
        (s.opened.isSome → ∀ kind : ItemKind, kind ≠ .entity →
          kind.lineReader.value? (.ofText line) = none) := by
  cases ho : s.opened with
  | none =>
    refine .inr ⟨σ, readMember_of_closed ho σ, rfl, fun hs ↦ ?_⟩
    cases hs
  | some e =>
    rw [member?_of_opened ho, Option.map_eq_none_iff] at hm
    have hfound := h.found_eq (fun place ↦ (Member.choice_endsLine options).tried) hσ
    rw [readMember_of_opened ho]
    cases hr : (Member.choice options).tried (.ofText line) with
    | error err t₀ =>
      rw [hr] at hfound
      obtain ⟨t, ht⟩ := hfound
      rw [ht]
      exact .inl ⟨_, t, rfl, Member.field_of_tried_error hr, rfl⟩
    | ok found t₀ =>
      cases found with
      | some m =>
        rw [Member.readAlone_of_tried hr] at hm
        cases hm
      | none =>
        rw [hr] at hfound
        obtain ⟨t, ht⟩ := hfound
        rw [Option.map_none] at ht
        rw [ht]
        exact .inr ⟨t, rfl, Choice.tried_none ht, fun _ _ ↦ Member.trivia_of_tried_none hr⟩

end Stage

def Item.alone (line : List Char) : Option Item :=
  ItemKind.all.findSome? fun kind ↦ kind.lineReader.value? (.ofText line)

theorem ItemKind.lineReader_mild (kind : ItemKind) : Mild kind.lineReader := by
  cases kind with
  | entity => exact Entity.head_mild.bind fun _ ↦ .pure _
  | blank => exact BlankLine.reader_mild.bind fun _ ↦ .pure _
  | comment => exact CommentLine.reader_mild.bind fun _ ↦ .pure _

theorem Item.attempt_alone (line : List Char) :
    ∃ t, lineParser.attempt (.ofText line) = .ok (alone line) t := by
  have hmild : ∀ choice ∈ ItemKind.all.map ItemKind.lineChoice, Mild choice.parser := by
    intro choice hc
    obtain ⟨kind, -, rfl⟩ := List.mem_map.1 hc
    exact kind.lineReader_mild.ofReader
  obtain ⟨found, t, ht⟩ := Choice.first_total hmild (.ofText line)
  have hfound : found = alone line := by
    rw [Choice.first_value (fun _ ↦ rfl) ht, alone]
    congr 1
    funext kind
    split
    · rfl
    · next hm =>
      symm
      rw [Option.eq_none_iff_forall_ne_some]
      intro item hv
      obtain ⟨d, hr⟩ := Reader.ok_of_value? hv
      exact hm (ItemKind.start_of_ok hr).1
  rw [← hfound, Parser.attempt, lineParser, Choice.firstOr, bind_apply, ht]
  cases found with
  | some item => exact ⟨_, rfl⟩
  | none => exact ⟨_, rfl⟩

namespace Stage

variable {options : Options} {b : Boundary} {line : List Char} {rest : List (List Char)}
  {σ : ParserState} {s s' : Stage}

theorem attempt_item (h : Linewise (line :: rest)) (hσ : σ.cursor.rest = (line :: rest).flatten) :
    ∃ t, Item.lineParser.attempt σ = .ok ((Item.alone line).map (Item.mapSpan σ.move)) t ∧
      (Item.alone line ≠ none → t.cursor = ⟨rest.flatten, σ.cursor.position.after line⟩) := by
  obtain ⟨t₀, ht₀⟩ := Item.attempt_alone line
  have hfound := h.found_eq (fun place ↦ Item.lineParser_endsLine.attempt) hσ
  rw [ht₀] at hfound
  obtain ⟨t, ht⟩ := hfound
  refine ⟨t, ht, fun hne ↦ ?_⟩
  obtain ⟨item, hi⟩ := Option.ne_none_iff_exists'.1 hne
  rw [hi, Option.map_some] at ht
  rw [Item.lineParser_next (Parser.attempt_some ht), h.nextLine_eq hσ]

/-- What an item adds to a stage is what the machine adds for its line. -/
theorem item?_eq (h : Linewise (line :: rest)) (place : Span → Span)
    (htrivia : s.opened.isSome → ∀ kind : ItemKind, kind ≠ .entity →
      kind.lineReader.value? (.ofText line) = none) :
    (Item.alone line).map (fun item ↦ s.add (item.mapSpan place)) =
      (s.header? options place line <|> s.trivia? place line) := by
  have hentity : ItemKind.entity.lineReader.value? (.ofText line) =
      (readAlone (Entity.parser options) line).map Item.entity := by
    rw [Entity.readAlone_eq_head h, Reader.value?, Reader.value?, ItemKind.lineReader, bind_apply]
    cases Entity.head (.ofText line) <;> rfl
  have hblank : ItemKind.blank.lineReader.value? (.ofText line) =
      (readAlone BlankLine.reader line).map Item.blank := by
    rw [readAlone_ofReader, Reader.value?, Reader.value?, ItemKind.lineReader, bind_apply]
    cases BlankLine.reader (.ofText line) <;> rfl
  have hcomment : ItemKind.comment.lineReader.value? (.ofText line) =
      (readAlone CommentLine.reader line).map Item.comment := by
    rw [readAlone_ofReader, Reader.value?, Reader.value?, ItemKind.lineReader, bind_apply]
    cases CommentLine.reader (.ofText line) <;> rfl
  have halone : Item.alone line = (ItemKind.entity.lineReader.value? (.ofText line) <|>
      ItemKind.blank.lineReader.value? (.ofText line) <|>
        ItemKind.comment.lineReader.value? (.ofText line)) := by
    rw [Item.alone, ItemKind.all, List.findSome?_cons, List.findSome?_cons, List.findSome?_cons]
    cases ItemKind.entity.lineReader.value? (.ofText line) with
    | some item => rfl
    | none =>
      cases ItemKind.blank.lineReader.value? (.ofText line) with
      | some item => rfl
      | none => cases ItemKind.comment.lineReader.value? (.ofText line) <;> rfl
  rw [halone, hentity, header?]
  cases readAlone (Entity.parser options) line with
  | some e => rfl
  | none =>
    cases ho : s.opened with
    | some e =>
      have hnone := htrivia (by rw [ho]; rfl)
      rw [hnone .blank (by decide), hnone .comment (by decide), trivia?, ho]
      rfl
    | none =>
      rw [hblank, hcomment, trivia?, ho]
      cases readAlone BlankLine.reader line with
      | some l => rfl
      | none => cases readAlone CommentLine.reader line <;> rfl

theorem step_of_member {place : Span → Span} (hm : s.member? options place line = some s') :
    s.step options place line = some s' := by
  rw [step, hm]
  rfl

theorem step_of_item (h : Linewise (line :: rest)) {place : Span → Span}
    (hm : s.member? options place line = none)
    (htrivia : s.opened.isSome → ∀ kind : ItemKind, kind ≠ .entity →
      kind.lineReader.value? (.ofText line) = none) :
    s.step options place line =
      ((Item.alone line).map (fun item ↦ s.add (item.mapSpan place)) <|>
        s.trailing? options place line) := by
  rw [item?_eq h place htrivia, step, hm]
  cases s.header? options place line <;> rfl

theorem step_of_field (h : Linewise (line :: rest)) (hf : Field.mayStart line)
    {place : Span → Span} (hm : s.member? options place line = none) :
    s.step options place line = none := by
  have hvalue : ∀ kind : ItemKind, kind.lineReader.value? (.ofText line) = none :=
    ItemKind.value?_of_field (c := .ofText line) hf
  have halone : Item.alone line = none := List.findSome?_eq_none_iff.2 fun kind _ ↦ hvalue kind
  have htrailing : s.trailing? options place line = none := by
    rw [trailing?, if_neg]
    rintro ⟨-, -, hall⟩
    have hnot : line.all isHorizontalSpace = false := Field.not_blank (c := .ofText line) hf
    rw [hall] at hnot
    cases hnot
  rw [step_of_item h hm fun _ kind _ ↦ hvalue kind, halone, htrailing]
  rfl

theorem readLine_of_member (b : Boundary) (h : Linewise (line :: rest))
    (hσ : σ.cursor.rest = (line :: rest).flatten)
    (hm : s.member? options σ.move line = some s') :
    ∃ t, s.readLine options b σ = .ok (some s') t ∧
      t.cursor = ⟨rest.flatten, σ.cursor.position.after line⟩ := by
  obtain ⟨t, ht, hnext⟩ := readMember_of_some h hσ hm
  refine ⟨t, ?_, hnext⟩
  rw [readLine, bind_apply, ht]
  rfl

/-- Without a member the loop is stuck with the machine, or goes on to the next item with it. -/
theorem readLine_of_item (b : Boundary) (h : Linewise (line :: rest))
    (hσ : σ.cursor.rest = (line :: rest).flatten) (hm : s.member? options σ.move line = none) :
    (∃ e t, s.readLine options b σ = .error e t ∧ s.step options σ.move line = none) ∨
      ∃ t, s.readLine options b σ = s.readItem b t ∧ t.cursor = σ.cursor ∧
        s.step options σ.move line =
          ((Item.alone line).map (fun item ↦ s.add (item.mapSpan σ.move)) <|>
            s.trailing? options σ.move line) := by
  rcases readMember_of_none h hσ hm with ⟨e, t, ht, hf, -⟩ | ⟨t, ht, hc, htrivia⟩
  · refine .inl ⟨e, t, ?_, step_of_field h hf hm⟩
    rw [readLine, bind_apply, ht]
  · refine .inr ⟨t, ?_, hc, step_of_item h hm htrivia⟩
    rw [readLine, bind_apply, ht]

theorem readItem_of_open (h : Linewise (line :: rest)) (hσ : σ.cursor.rest = (line :: rest).flatten)
    (hg : b.gate σ = .ok none σ) :
    match Item.alone line with
    | some item => ∃ t, s.readItem b σ = .ok (some (s.add (item.mapSpan σ.move))) t ∧
        t.cursor = ⟨rest.flatten, σ.cursor.position.after line⟩
    | none => ∃ e t, s.readItem b σ = .error e t := by
  obtain ⟨t, ht, hnext⟩ := attempt_item h hσ
  rw [readItem, bind_apply, hg]
  simp only [bind_apply, ht]
  cases ha : Item.alone line with
  | some item => exact ⟨t, rfl, hnext (by rw [ha]; simp)⟩
  | none => exact ⟨_, _, rfl⟩

end Stage

end EntityModels
