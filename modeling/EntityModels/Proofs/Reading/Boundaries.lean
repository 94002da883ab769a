import EntityModels.Proofs.Grammar.Trivia
import EntityModels.Proofs.Reading.Loop

namespace EntityModels

theorem collect_congr {σ α : Type} [HasCursor σ] {p q : EStateM Failure σ (Option α)} (h : p = q)
    (hp : Forward p) (hq : Forward q) : collect p hp = collect q hq := by
  subst h
  rfl

namespace Document

/-- A document may end in a blank line without a line feed, and ends where the text does. -/
def gate (options : Options) : Parser (Option (Option Item)) := do
  if (← Reader.next?).isNone then return some none
  else
    let line ← trailing options
    return line.map fun line ↦ some (.blank line)

theorem gate_apply (options : Options) (s : ParserState) : gate options s =
    if s.cursor.rest = [] then .ok (some none) s
    else if options.trailingBlank ∧ s.cursor.rest.all isHorizontalSpace then
      .ok (some (some (.blank ⟨String.ofList s.cursor.rest,
        s.cursor.position.spanTo (s.cursor.position.after s.cursor.rest)⟩)))
        { s with cursor := ⟨[], s.cursor.position.after s.cursor.rest⟩ }
    else .ok none s := by
  obtain ⟨⟨rest, p⟩, noted⟩ := s
  cases rest with
  | nil => rfl
  | cons x rest =>
    let c : Cursor := ⟨x :: rest, p⟩
    change ((trailing options : Parser (Option BlankLine)) >>= fun line ↦
      pure (line.map fun line ↦ some (Item.blank line))) ⟨c, noted⟩ = _
    have htrailing : (trailing options : Parser (Option BlankLine)) ⟨c, noted⟩ =
        if options.trailingBlank ∧ c.rest.all isHorizontalSpace then
          .ok (some ⟨String.ofList c.rest, c.position.spanTo (c.position.after c.rest)⟩)
            ⟨⟨[], c.position.after c.rest⟩, noted⟩
        else .ok none ⟨c, noted⟩ := by
      change Parser.ofReader (trailing options) ⟨c, noted⟩ = _
      rw [Parser.ofReader, trailing]
      cases options.trailingBlank with
      | false => rfl
      | true =>
        rw [if_pos rfl, BlankLine.trailing_apply]
        by_cases hall : c.rest.all isHorizontalSpace
        · rw [if_pos ⟨by simp [c], hall⟩, if_pos ⟨rfl, hall⟩]
        · rw [if_neg fun h ↦ hall h.2, if_neg fun h ↦ hall h.2]
    rw [bind_apply, htrailing]
    refine Eq.trans ?_ (if_neg (List.cons_ne_nil x rest)).symm
    by_cases h : options.trailingBlank ∧ c.rest.all isHorizontalSpace
    · rw [if_pos h]
      exact (if_pos h).symm
    · rw [if_neg h]
      exact (if_neg h).symm

theorem gate_forward (options : Options) : Forward (gate options) :=
  (Parser.ofReader_forward .next?).bind fun _ ↦ .ite (.pure _) <|
    (Parser.ofReader_forward (.ite BlankLine.trailing_forward (.pure _))).bind fun _ ↦ .pure _

def boundary (options : Options) : Boundary where
  gate := gate options
  expected := Item.expected
  forward := gate_forward options
  stays s t h := by
    rw [gate_apply] at h
    split at h
    · cases h
    · split at h
      · cases h
      · cases h
        rfl
  takes s item t h := by
    rw [gate_apply] at h
    split at h
    · cases h
    · split at h
      · next hall =>
        cases h
        refine ⟨rfl, ?_⟩
        have hn : '\n' ∉ s.cursor.rest := fun hm ↦ by
          have := List.all_eq_true.1 hall.2 _ hm
          rw [isHorizontalSpace_newline] at this
          cases this
        rw [Cursor.nextLine, (firstLine_of_notMem hn).1, (firstLine_of_notMem hn).2, Cursor.past]
      · cases h
  stops s r t hr h := by
    rw [gate_apply, if_pos hr] at h
    cases h
    rfl

theorem nextItem_eq (options : Options) :
    nextItem options = (boundary options).nextItem options := by
  funext s
  rw [Boundary.nextItem_apply, nextItem, bind_apply]
  simp only [boundary, gate, bind_apply]
  cases (Reader.next? : Parser (Option Char)) s with
  | error e t => rfl
  | ok next t =>
    cases next with
    | none => rfl
    | some x =>
      simp only [Option.isNone_some, Bool.false_eq_true, if_false, bind_apply]
      cases (trailing options : Parser (Option BlankLine)) t with
      | error e u => rfl
      | ok line u => cases line <;> rfl

theorem parser_eq (options : Options) : parser options = do
    let start ← Reader.position
    let items ← (boundary options).items options
    let stop ← Reader.position
    return ⟨items, start.spanTo stop⟩ := by
  rw [parser, Boundary.items, collect_congr (nextItem_eq options)]

end Document

namespace Block

/-- A block ends in front of its marker, and has to end. -/
def gate (options : Options) : Parser (Option (Option Item)) := do
  let closing := "`" ++ options.markers.closing ++ "`"
  if ← Reader.startsWith options.markers.closing then return some none
  else if (← Reader.next?).isNone then Parser.stuck (·.missingMarker closing)
  else return none

theorem gate_apply (options : Options) (s : ParserState) : gate options s =
    if options.markers.closing.toList.isPrefixOf s.cursor.rest then .ok (some none) s
    else if s.cursor.rest = [] then
      Parser.stuck (·.missingMarker ("`" ++ options.markers.closing ++ "`")) s
    else .ok none s := by
  obtain ⟨⟨rest, p⟩, noted⟩ := s
  change (if options.markers.closing.toList.isPrefixOf rest then pure (some none)
    else _ : Parser (Option (Option Item))) ⟨⟨rest, p⟩, noted⟩ = _
  split
  · rfl
  · cases rest with
    | nil => rfl
    | cons x rest => rfl

theorem gate_forward (options : Options) : Forward (gate options) :=
  (Parser.ofReader_forward (.startsWith _)).bind fun _ ↦ .ite (.pure _) <|
    (Parser.ofReader_forward .next?).bind fun _ ↦ .ite (Parser.stuck_forward _) (.pure _)

theorem gate_ok {options : Options} {s t : ParserState} {found : Option (Option Item)}
    (h : gate options s = .ok found t) : t = s ∧
      ((found = some none ∧ options.markers.closing.toList.isPrefixOf s.cursor.rest) ∨
        (found = none ∧ s.cursor.rest ≠ [])) := by
  rw [gate_apply] at h
  split at h
  · next hc =>
    cases h
    exact ⟨rfl, .inl ⟨rfl, hc⟩⟩
  · split at h
    · cases h
    · next hne =>
      cases h
      exact ⟨rfl, .inr ⟨rfl, hne⟩⟩

def boundary (options : Options) : Boundary where
  gate := gate options
  expected := Item.expected ++ " or " ++ ("`" ++ options.markers.closing ++ "`")
  forward := gate_forward options
  stays s t h := (gate_ok h).1
  takes s item t h := by
    rcases (gate_ok h).2 with ⟨hf, -⟩ | ⟨hf, -⟩ <;> cases hf
  stops s r t hr h := by
    rcases (gate_ok h).2 with ⟨hf, -⟩ | ⟨-, hne⟩
    · exact hf
    · exact absurd hr hne

theorem nextItem_eq (options : Options) :
    nextItem options = (boundary options).nextItem options := by
  funext s
  rw [Boundary.nextItem_apply, nextItem, bind_apply]
  simp only [boundary, gate, bind_apply]
  cases (Reader.startsWith options.markers.closing : Parser Bool) s with
  | error e t => rfl
  | ok closed t =>
    cases closed with
    | true => rfl
    | false =>
      simp only [Bool.false_eq_true, if_false, bind_apply]
      cases (Reader.next? : Parser (Option Char)) t with
      | error e u => rfl
      | ok next u => cases next <;> rfl

theorem parser_eq (options : Options) : parser options = do
    let start ← Reader.position
    let items ← (boundary options).items options
    let stop ← Reader.position
    return ⟨items, start.spanTo stop⟩ := by
  rw [parser, Boundary.items, collect_congr (nextItem_eq options)]

end Block

end EntityModels
