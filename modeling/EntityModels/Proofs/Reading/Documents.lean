import EntityModels.Proofs.Reading.Refinement

namespace EntityModels

namespace Stage

variable {options : Options} {line : List Char} {rest : List (List Char)} {σ : ParserState}
  {s : Stage}

theorem newline_of_blank (hall : line.all isHorizontalSpace) : '\n' ∉ line := by
  intro hm
  have hs := List.all_eq_true.1 hall _ hm
  rw [isHorizontalSpace_newline] at hs
  cases hs

theorem blank_flatten_iff (h : Linewise (line :: rest)) :
    (line :: rest).flatten.all isHorizontalSpace ↔ line.all isHorizontalSpace ∧
      rest.flatten = [] := by
  rw [List.flatten_cons]
  constructor
  · intro hall
    have hline : line.all isHorizontalSpace := by
      rw [List.all_append] at hall
      exact (Bool.and_eq_true_iff.1 hall).1
    exact ⟨hline, h.newline_mem.resolve_left (newline_of_blank hline)⟩
  · rintro ⟨hall, hrest⟩
    rw [hrest, List.append_nil]
    exact hall

theorem readItem_document (h : Linewise (line :: rest))
    (hσ : σ.cursor.rest = (line :: rest).flatten) :
    match (Item.alone line).map (fun item ↦ s.add (item.mapSpan σ.move)) <|>
      s.trailing? options σ.move line with
    | some s' => ∃ t, s.readItem (Document.boundary options) σ = .ok (some s') t ∧
        t.cursor = ⟨rest.flatten, σ.cursor.position.after line⟩
    | none => ∃ e t, s.readItem (Document.boundary options) σ = .error e t := by
  have hne : σ.cursor.rest ≠ [] := by
    rw [hσ, List.flatten_cons]
    exact fun he ↦ h.ne_nil (List.append_eq_nil_iff.1 he).1
  by_cases hblank : options.trailingBlank ∧ σ.cursor.rest.all isHorizontalSpace
  · -- here the gate takes the line, and no item is looked for
    obtain ⟨htrailing, hall⟩ := hblank
    rw [hσ] at hall
    obtain ⟨hline, hflat⟩ := (blank_flatten_iff h).1 hall
    have hrest : σ.cursor.rest = line := by
      rw [hσ, List.flatten_cons, hflat, List.append_nil]
    have halone : Item.alone line = none := List.findSome?_eq_none_iff.2 fun kind _ ↦
      ItemKind.value?_of_blank (c := .ofText line) h.ne_nil hline kind
    have hgate : (Document.boundary options).gate σ =
        .ok (some (some (.blank ⟨String.ofList line,
          σ.cursor.position.spanTo (σ.cursor.position.after line)⟩)))
          { σ with cursor := ⟨[], σ.cursor.position.after line⟩ } := by
      change Document.gate options σ = _
      rw [Document.gate_apply, if_neg hne, hrest, if_pos ⟨htrailing, hline⟩]
    have hspan : σ.move (wholeSpan line) =
        σ.cursor.position.spanTo (σ.cursor.position.after line) := by
      rw [Position.after_eq_within]
      exact (Position.spanTo_within _ _ _).symm
    rw [halone, trailing?, if_pos ⟨htrailing, h.ne_nil, hline⟩, hspan]
    refine ⟨{ σ with cursor := ⟨[], σ.cursor.position.after line⟩ }, ?_, ?_⟩
    · rw [readItem, bind_apply, hgate]
      rfl
    · rw [hflat]
  · have hgate : (Document.boundary options).gate σ = .ok none σ := by
      change Document.gate options σ = _
      rw [Document.gate_apply, if_neg hne, if_neg hblank]
    have htrailing : s.trailing? options σ.move line = none := by
      rw [trailing?, if_neg]
      rintro ⟨htrailing, -, hall⟩
      refine hblank ⟨htrailing, ?_⟩
      rw [hσ]
      exact (blank_flatten_iff h).2
        ⟨hall, h.newline_mem.resolve_left (newline_of_blank hall)⟩
    have hitem := readItem_of_open (s := s) h hσ hgate
    rw [htrailing]
    cases ha : Item.alone line with
    | some item =>
      rw [ha] at hitem
      exact hitem
    | none =>
      rw [ha] at hitem
      exact hitem

theorem readLine_document (h : Linewise (line :: rest))
    (hσ : σ.cursor.rest = (line :: rest).flatten) :
    match s.step options σ.move line with
    | some s' => ∃ t, s.readLine options (Document.boundary options) σ = .ok (some s') t ∧
        t.cursor = ⟨rest.flatten, σ.cursor.position.after line⟩
    | none => ∃ e t, s.readLine options (Document.boundary options) σ = .error e t := by
  cases hm : s.member? options σ.move line with
  | some s' =>
    rw [step_of_member hm]
    exact readLine_of_member _ h hσ hm
  | none =>
    rcases readLine_of_item (Document.boundary options) h hσ hm with ⟨e, t, ht, hstep⟩ |
      ⟨t, ht, hc, hstep⟩
    · rw [hstep]
      exact ⟨e, t, ht⟩
    · have hmove : t.move = σ.move := ParserState.move_eq hc
      have hitem := @readItem_document options line rest t s h (hc ▸ hσ)
      rw [hmove, hc] at hitem
      rw [hstep, ht]
      exact hitem

def inPlace (p : Position) : Span → Span := Span.within p.location

/-- On all lines of a document the loop runs as the machine does. -/
theorem readLines_document {ls : List (List Char)} (h : Linewise ls) (s : Stage)
    {σ : ParserState} (hσ : σ.cursor.rest = ls.flatten) :
    match run options inPlace σ.cursor.position ls s with
    | some s' => ∃ t, s.readLines options (Document.boundary options) ls σ = .ok s' t ∧
        t.cursor = ⟨[], σ.cursor.position.after ls.flatten⟩
    | none => ∃ e t, s.readLines options (Document.boundary options) ls σ = .error e t := by
  induction ls generalizing s σ with
  | nil =>
    have hgate : (Document.boundary options).gate σ = .ok (some none) σ := by
      change Document.gate options σ = _
      exact (Document.gate_apply options σ).trans (if_pos hσ)
    refine ⟨σ, ?_, ?_⟩
    · rw [readLines, bind_apply, hgate]
      rfl
    · obtain ⟨⟨text, p⟩, noted⟩ := σ
      obtain rfl : text = [] := hσ
      rfl
  | cons line rest ih =>
    have hline := @readLine_document options line rest σ s h hσ
    have hplace : σ.move = inPlace σ.cursor.position := rfl
    rw [hplace] at hline
    rw [run]
    cases hs : s.step options (inPlace σ.cursor.position) line with
    | none =>
      rw [hs] at hline
      obtain ⟨e, t, ht⟩ := hline
      refine ⟨e, t, ?_⟩
      rw [readLines, bind_apply, ht]
    | some s' =>
      rw [hs] at hline
      obtain ⟨t, ht, hc⟩ := hline
      have hread := @ih h.2 s' t (by rw [hc])
      have hstep : s.readLines options (Document.boundary options) (line :: rest) σ =
          s'.readLines options (Document.boundary options) rest t := by
        rw [readLines, bind_apply, ht]
      rw [hc] at hread
      rw [hstep, List.flatten_cons, Position.after_append]
      exact hread

end Stage

/-- What a document is read as is what the machine has after its lines. -/
theorem Document.parse_eq_run (options : Options) (text : String) :
    (parse options text).toOption =
      (Stage.run options Stage.inPlace .start (lines text.toList) {}).map fun s ↦
        ⟨s.items, wholeSpan text.toList⟩ := by
  have hls := lines_linewise text.toList
  have hσ : (ParserState.ofText text.toList).cursor.rest = (lines text.toList).flatten :=
    (lines_flatten text.toList).symm
  have hread := @Stage.readLines_document options _ hls {} _ hσ
  have hstart : (ParserState.ofText text.toList).cursor.position = .start := rfl
  have hitems := (boundary options).items_eq_readLines options hls hσ
  rw [map_apply] at hitems
  rw [parse, parser_eq, bind_apply, position_apply, hstart]
  simp only [bind_apply, hitems]
  rw [hstart] at hread
  cases hrun : Stage.run options Stage.inPlace .start (lines text.toList) {} with
  | some s =>
    rw [hrun] at hread
    obtain ⟨t, ht, hc⟩ := hread
    rw [ht]
    simp only [position_apply, pure_apply, hc, lines_flatten]
    rfl
  | none =>
    rw [hrun] at hread
    obtain ⟨e, t, ht⟩ := hread
    rw [ht]
    rfl

theorem Document.parse_eq_ok_iff {options : Options} {text : String} {d : Document} :
    parse options text = .ok d ↔
      ∃ s, Stage.run options Stage.inPlace .start (lines text.toList) {} = some s ∧
        d = ⟨s.items, wholeSpan text.toList⟩ := by
  have h := parse_eq_run options text
  constructor
  · intro hd
    rw [hd] at h
    obtain ⟨s, hs, he⟩ := Option.map_eq_some_iff.1 h.symm
    exact ⟨s, hs, he.symm⟩
  · rintro ⟨s, hs, rfl⟩
    rw [hs] at h
    cases hp : parse options text with
    | error e =>
      rw [hp] at h
      cases h
    | ok d =>
      rw [hp] at h
      cases h
      rfl

section

variable {options : Options} {line : List Char} {rest : List (List Char)} {s : Stage}

theorem readAlone_fixed {α : Type} {p : Parser α} {f : (Span → Span) → α → α}
    (hp : EndsLine .alone (f Place.alone.move) p p) {a : α} (h : readAlone p line = some a) :
    f (Span.within ⟨1, 1⟩) a = a := by
  have hfits : (Cursor.ofText line).Fits .alone := ⟨Position.genuine_start, .inr rfl⟩
  have hw : p (ParserState.within .alone (.ofText line)) =
      Place.alone.outcome (f Place.alone.move) (p (.ofText line)) := hp.within (.ofText line) hfits
  have halone : ParserState.within .alone (.ofText line) = .ofText line := by
    rw [ParserState.ofText_within]
    simp [Place.alone, ParserState.ofText, Cursor.ofText]
  rw [halone] at hw
  unfold readAlone at h
  split at h
  · next a' t hr =>
    cases h
    rw [hr] at hw
    exact (EStateM.Result.ok.inj hw).1.symm
  · cases h

theorem wholeSpan_fixed (text : List Char) :
    Span.within ⟨1, 1⟩ (wholeSpan text) = wholeSpan text := by
  have hafter := Position.after_eq_within .start text
  calc Span.within ⟨1, 1⟩ (wholeSpan text)
      = (Position.start.within .start).spanTo (Position.start.within (Position.start.after text)) :=
        (Position.spanTo_within .start .start _).symm
    _ = wholeSpan text := by rw [← hafter, Position.within_start, wholeSpan]

/-- At the beginning of a line, to be in place is to be as many lines further down. -/
theorem Stage.step_down (h : Linewise (line :: rest)) (n : Nat) :
    s.step options (Span.down n) line = s.step options (Span.within ⟨n + 1, 1⟩) line := by
  -- what is read of a line alone begins at the first line already, so it moves by lines only
  have hmove {α : Type} {f : (Span → Span) → α → α} {p : Parser α}
      (hp : EndsLine .alone (f Place.alone.move) p p)
      (hf : ∀ g g' a, f g' (f g a) = f (g' ∘ g) a) {a : α} (ha : readAlone p line = some a) :
      f (Span.down n) a = f (Span.within ⟨n + 1, 1⟩) a := by
    rw [Span.within_lineStart, ← hf, readAlone_fixed hp ha]
  have hwhole : Span.down n (wholeSpan line) = Span.within ⟨n + 1, 1⟩ (wholeSpan line) := by
    rw [Span.within_lineStart, Function.comp, wholeSpan_fixed]
  have hmember : s.member? options (Span.down n) line =
      s.member? options (Span.within ⟨n + 1, 1⟩) line := by
    cases ho : s.opened with
    | none => rw [member?_of_closed ho, member?_of_closed ho]
    | some e =>
      rw [member?_of_opened ho, member?_of_opened ho, hwhole]
      refine Option.map_congr fun m hm ↦ ?_
      rw [hmove (Member.parser_endsLine options) Member.mapSpan_mapSpan hm]
  have hheader : s.header? options (Span.down n) line =
      s.header? options (Span.within ⟨n + 1, 1⟩) line := by
    rw [header?, header?, Entity.readAlone_eq_head h, ← readAlone_ofReader]
    cases he : readAlone (Entity.head : Parser Entity) line with
    | none => rfl
    | some e =>
      have hmoved := hmove Entity.head_endsLine.ofReader Entity.mapSpan_mapSpan he
      simp only [Option.bind_eq_bind, Option.bind_some, hmoved]
  have htrivia : s.trivia? (Span.down n) line = s.trivia? (Span.within ⟨n + 1, 1⟩) line := by
    rw [trivia?, trivia?]
    split
    · rfl
    · congr 1
      · refine Option.map_congr fun l hl ↦ ?_
        rw [hmove BlankLine.reader_endsLine.ofReader (fun _ _ _ ↦ rfl) hl]
      · funext
        refine Option.map_congr fun l hl ↦ ?_
        rw [hmove CommentLine.reader_endsLine.ofReader (fun _ _ _ ↦ rfl) hl]
  have htrailing : s.trailing? options (Span.down n) line =
      s.trailing? options (Span.within ⟨n + 1, 1⟩) line := by
    rw [trailing?, trailing?, hwhole]
  rw [step, step, hmember, hheader, htrivia, htrailing]

end

def Stage.onLine (p : Position) : Span → Span := Span.down (p.line - 1)

theorem Stage.run_onLine (options : Options) {ls : List (List Char)} (h : Linewise ls)
    {p : Position} (hline : 1 ≤ p.line) (hcolumn : p.column = 1) (s : Stage) :
    run options onLine p ls s = run options inPlace p ls s := by
  induction ls generalizing p s with
  | nil => rfl
  | cons line rest ih =>
    have hlocation : p.location = ⟨p.line - 1 + 1, 1⟩ := by
      rw [Position.location, hcolumn, Nat.sub_add_cancel hline]
    have hstep : s.step options (onLine p) line = s.step options (inPlace p) line := by
      rw [inPlace, hlocation]
      exact step_down h _
    rw [run, run, hstep]
    cases s.step options (inPlace p) line with
    | none => rfl
    | some s' =>
      have hafter : 1 ≤ (p.after line).line := by
        rw [Position.after_line]
        omega
      rcases h.1 with ⟨body, -, rfl⟩ | ⟨rfl, -⟩
      · exact ih h.2 hafter (Position.after_newline_column p body) s'
      · rfl

/-- Documents are read by the machine: a text is accepted if the machine is never stuck on its
lines, and its items are those that the machine has then, with the places of each line as many lines
further down as there are lines before it. -/
theorem Document.parse_eq_machine (options : Options) (text : String) :
    (parse options text).toOption =
      (Stage.run options Stage.onLine .start (lines text.toList) {}).map fun s ↦
        ⟨s.items, wholeSpan text.toList⟩ := by
  rw [Stage.run_onLine options (lines_linewise text.toList) (by decide) rfl]
  exact parse_eq_run options text

end EntityModels
