import EntityModels.Proofs.Grammar.Failures
import EntityModels.Proofs.Reading.BlankEnd
import EntityModels.Proofs.Reading.Blocks

/-!
When a marker is missing. A block is refused for this reason if it is never opened, or if everything
behind its opening marker is a document, in which the closing marker is never met. Whatever was
noted on the way, this is reported: the end of the text is as far as a failure can get, and nothing
that was given up is fatal.
-/

namespace EntityModels

/-- The failure is one of a line, and not one of a missing marker. -/
def Failure.OfLine (e : Failure) : Prop := e.cause ≠ .markerNotFound

theorem Cursor.mismatch_ofLine (c : Cursor) (expected : String) : (c.mismatch expected).OfLine :=
  Cause.noConfusion

theorem Cursor.unterminated_ofLine (c : Cursor) : c.unterminated.OfLine := Cause.noConfusion

theorem MemberKind.reader_ofLine (options : Options) (kind : MemberKind) :
    FailsWith Failure.OfLine (kind.reader options) := by
  intro c e d h hcause
  have hmem : e.cause ∈ kind.causes := kind.reader_causes options c e d h
  rw [hcause] at hmem
  cases kind <;> revert hmem <;> decide

theorem ItemKind.lineReader_ofLine (kind : ItemKind) :
    FailsWith Failure.OfLine kind.lineReader := by
  have hm := Cursor.mismatch_ofLine
  have hu := Cursor.unterminated_ofLine
  cases kind with
  | entity => exact (Entity.head_fails hm).bind fun _ ↦ .pure _
  | blank => exact (BlankLine.reader_fails hu).bind fun _ ↦ .pure _
  | comment => exact (CommentLine.reader_fails hm hu).bind fun _ ↦ .pure _

theorem Member.tried_ofLine (options : Options) :
    (choice options).tried.NotesOnly Failure.OfLine := by
  refine Choice.tried_notesOnly (Choice.firstOr_notesOnly (fun choice hc ↦ ?_)
    (Cursor.mismatch_ofLine · _))
  obtain ⟨kind, -, rfl⟩ := List.mem_map.1 hc
  exact .ofReader (kind.reader_ofLine options)

theorem Item.lineParser_ofLine : lineParser.NotesOnly Failure.OfLine := by
  refine Choice.firstOr_notesOnly (fun choice hc ↦ ?_) (Cursor.mismatch_ofLine · _)
  obtain ⟨kind, -, rfl⟩ := List.mem_map.1 hc
  exact .ofReader kind.lineReader_ofLine

namespace Stage

variable {options : Options} {b : Boundary} {line : List Char} {rest : List (List Char)}
  {σ t : ParserState} {s s' : Stage}

def openItem (expected : String) (s : Stage) : Parser (Option Stage) := do
  match ← Item.lineParser.attempt with
  | some item => return some (s.add item)
  | none => Parser.stuck (·.mismatch expected)

def openLine (options : Options) (expected : String) (s : Stage) : Parser (Option Stage) := do
  match ← s.readMember options with
  | some s => return some s
  | none => s.openItem expected

theorem readMember_none (h : s.readMember options σ = .ok none t) : t.cursor = σ.cursor := by
  cases ho : s.opened with
  | none =>
    rw [readMember_of_closed ho] at h
    cases h
    rfl
  | some e =>
    rw [readMember_of_opened ho] at h
    cases hm : (Member.choice options).tried σ with
    | error err u => simp [hm] at h
    | ok found u =>
      rw [hm] at h
      cases found with
      | some m => cases h
      | none =>
        cases h
        exact Choice.tried_none hm

theorem readLine_of_open (hgate : ∀ t, t.cursor = σ.cursor → b.gate t = .ok none t) (s : Stage) :
    s.readLine options b σ = s.openLine options b.expected σ := by
  rw [readLine, openLine, bind_apply, bind_apply]
  cases hm : s.readMember options σ with
  | error e t => rfl
  | ok found t =>
    cases found with
    | some s' => rfl
    | none => exact bind_of_ok (hgate t (readMember_none hm)) _

theorem openLine_ofLine (options : Options) (expected : String) (s : Stage) :
    (s.openLine options expected).NotesOnly Failure.OfLine := by
  have hmember : (s.readMember options).NotesOnly Failure.OfLine := by
    unfold readMember
    cases s.opened with
    | none => exact .pure none
    | some e =>
      refine (Member.tried_ofLine options).bind fun found ↦ ?_
      cases found with
      | some m => exact (Parser.NotesOnly.ofReader .position).bind fun _ ↦ .pure _
      | none => exact .pure none
  refine hmember.bind fun found ↦ ?_
  cases found with
  | some s' => exact .pure _
  | none =>
    refine Item.lineParser_ofLine.attempt.bind fun found ↦ ?_
    cases found with
    | some item => exact .pure _
    | none => exact .stuck (Cursor.mismatch_ofLine · _)

theorem readMember_failsAlong (options : Options) (s : Stage) :
    (s.readMember options).FailsAlong := by
  unfold readMember
  cases s.opened with
  | none => exact .pure none
  | some e =>
    exact (Member.tried_failsAlong options).orElse (fun _ _ ↦ Choice.tried_none)
      (fun _ _ ↦ ⟨_, rfl⟩) (.pure none)

theorem openLine_notesAlong {expected : String} {r : Option Stage}
    (h : s.openLine options expected σ = .ok r t) : σ.NotesAlong t := by
  obtain ⟨found, u, hu, h⟩ := bind_ok h
  have hnotes := (readMember_failsAlong options s).ok σ _ u hu
  cases found with
  | some s' =>
    cases h
    exact hnotes
  | none =>
    obtain ⟨found, v, hv, h⟩ := bind_ok h
    have hitem := hnotes.trans (readMember_none hu) (Item.lineParser_failsAlong.attempt.ok _ _ _ hv)
    cases found with
    | some item =>
      cases h
      exact hitem
    | none => cases h

theorem openLine_of_step (h : Linewise (line :: rest))
    (hσ : σ.cursor.rest = (line :: rest).flatten)
    (hopen : ¬options.markers.closing.toList <+: σ.cursor.rest) (s : Stage) :
    match s.step options.strictEnd σ.move line with
    | some s' => ∃ t, s.openLine options (Block.boundary options).expected σ = .ok (some s') t ∧
        t.cursor = σ.cursor.nextLine
    | none => ∃ e t, s.openLine options (Block.boundary options).expected σ = .error e t := by
  have hgate (t : ParserState) (ht : t.cursor = σ.cursor) :
      (Block.boundary options).gate t = .ok none t :=
    gate_block_of_open (ht ▸ hopen) (ht ▸ rest_ne_nil h hσ)
  have hmembers : s.readLine options (Block.boundary options) =
      s.readLine options.strictEnd (Block.boundary options) := rfl
  rw [← readLine_of_open hgate, hmembers, h.nextLine_eq hσ]
  cases hm : s.member? options.strictEnd σ.move line with
  | some s' =>
    rw [step_of_member hm]
    exact readLine_of_member _ h hσ hm
  | none =>
    rcases readLine_of_item (Block.boundary options) h hσ hm with ⟨e, t, ht, hstep⟩ |
      ⟨t, ht, hc, hstep⟩
    · rw [hstep]
      exact ⟨e, t, ht⟩
    · have hmove : t.move = σ.move := ParserState.move_eq hc
      have hitem := readItem_of_open (s := s) h (hc ▸ hσ) (hgate t hc)
      rw [hmove, hc] at hitem
      rw [hstep, ht, trailing?_strictEnd]
      cases ha : Item.alone line with
      | some item =>
        rw [ha] at hitem
        exact hitem
      | none =>
        rw [ha] at hitem
        exact hitem

/-- In front of a marker that begins as no line can the machine is stuck. -/
theorem step_of_closing (hclosing : Block.Distinct options.markers.closing)
    (h : Linewise (line :: rest))
    (hclose : options.markers.closing.toList <+: (line :: rest).flatten)
    (place : Span → Span) (s : Stage) : s.step options.strictEnd place line = none := by
  have halone : Item.alone line = none := hclosing.alone_eq_none h.ne_nil hclose
  have hmember : s.member? options.strictEnd place line = none := by
    apply member?_of_mayStart
    obtain ⟨x, more, hx, hspace, hdash, -⟩ := hclosing
    rw [hx] at hclose
    obtain ⟨line', rfl⟩ :=
      List.head?_eq_some_iff.1 (Block.head?_of_marker hclose (List.cons_ne_nil x more) h.ne_nil)
    exact Member.mayStart_eq_false hspace hdash line'
  have hvalue (kind : ItemKind) : kind.lineReader.value? (.ofText line) = none :=
    List.findSome?_eq_none_iff.1 halone kind (by cases kind <;> decide)
  rw [step_of_item h hmember fun _ kind _ ↦ hvalue kind, halone, trailing?_strictEnd]
  rfl

end Stage

theorem Failure.IsAlong.offset_le_nextLine {e : Failure} {c : Cursor} (h : e.IsAlong c) :
    e.offset ≤ c.nextLine.position.offset := by
  have hle := h.offset_le
  change _ ≤ (c.position.after (firstLine c.rest)).offset
  rw [Position.after_offset, firstLine, byteLength_append]
  omega

/-- Nothing that was noted can get in the way of a failure at the cursor or behind it. -/
def ParserState.Spent (σ : ParserState) : Prop :=
  σ.Notes fun f ↦ f.OfLine ∧ f.fatal = false ∧ f.offset ≤ σ.cursor.position.offset

namespace ParserState.Spent

variable {σ t : ParserState} {options : Options} {s : Stage} {expected : String}

theorem ofLine (h : σ.Spent) : σ.Notes Failure.OfLine := fun f hf ↦ (h f hf).1

theorem next {r : Option Stage} (h : σ.Spent) (hr : s.openLine options expected σ = .ok r t)
    (ht : t.cursor = σ.cursor.nextLine) : t.Spent := by
  intro f hf
  have hofLine := (s.openLine_ofLine options expected).ok σ r t hr h.ofLine f hf
  have hle : σ.cursor.position.offset ≤ σ.cursor.nextLine.position.offset := by
    change _ ≤ (σ.cursor.position.after _).offset
    rw [Position.after_offset]
    exact Nat.le_add_right _ _
  rw [ht]
  rcases Stage.openLine_notesAlong hr f hf with hf | ⟨hfatal, halong⟩
  · exact ⟨hofLine, (h f hf).2.1, Nat.le_trans (h f hf).2.2 hle⟩
  · exact ⟨hofLine, hfatal, halong.offset_le_nextLine⟩

theorem conclude_eq (h : σ.Spent) {e : Failure} (he : e.offset = σ.cursor.position.offset) :
    (σ.conclude e).1 = e := by
  unfold conclude
  split
  · rfl
  · cases hn : σ.farthest with
    | none => rfl
    | some f =>
      obtain ⟨-, hfatal, hle⟩ := h f hn
      refine if_neg fun hbeats ↦ ?_
      rcases hbeats with hlt | ⟨-, hf, -⟩
      · omega
      · rw [hfatal] at hf
        cases hf

end ParserState.Spent

namespace Block

variable {options : Options}

/-- On lines in front of which no other failure was noted, the closing marker is found missing if
the machine runs on all of them, and else something else is wrong or the block is closed. -/
theorem readLines_missing (hclosing : Distinct options.markers.closing) {ls : List (List Char)}
    (h : Linewise ls) (s : Stage) {σ : ParserState} (hσ : σ.cursor.rest = ls.flatten)
    (hspent : σ.Spent) :
    match Stage.run options.strictEnd Stage.inPlace σ.cursor.position ls s with
    | some _ => ∃ e t, s.readLines options (boundary options) ls σ = .error e t ∧
        e.cause = .markerNotFound ∧ e.fatal = false ∧
          e.position = σ.cursor.position.after ls.flatten
    | none => ∀ e t, s.readLines options (boundary options) ls σ = .error e t → e.OfLine := by
  induction ls generalizing s σ with
  | nil =>
    have hnil : σ.cursor.rest = [] := hσ
    have hopen : ¬options.markers.closing.toList.isPrefixOf σ.cursor.rest := by
      obtain ⟨x, text, hx, -⟩ := hclosing
      rw [hnil, hx]
      exact Bool.noConfusion
    have hgate : (boundary options).gate σ =
        Parser.stuck (·.missingMarker ("`" ++ options.markers.closing ++ "`")) σ := by
      change gate options σ = _
      rw [gate_apply, if_neg hopen, if_pos hnil]
    let e := σ.cursor.missingMarker ("`" ++ options.markers.closing ++ "`")
    refine ⟨e, (σ.conclude e).2, ?_, rfl, rfl, rfl⟩
    have he : (σ.conclude e).1 = e := hspent.conclude_eq rfl
    rw [Stage.readLines, bind_apply, hgate, Parser.stuck_apply, he]
  | cons line rest ih =>
    have hplace : Stage.inPlace σ.cursor.position = σ.move := rfl
    rw [Stage.run_cons, hplace]
    by_cases hclose : options.markers.closing.toList <+: σ.cursor.rest
    · -- the machine is stuck on the marker, while the loop ends in front of it and does not fail
      rw [Stage.step_of_closing hclosing h (hσ ▸ hclose)]
      intro e t he
      rw [Stage.readLines, bind_apply, Stage.readLine_block_of_closing hclosing hclose] at he
      cases he
    · have hopen (t : ParserState) (ht : t.cursor = σ.cursor) :
          (boundary options).gate t = .ok none t :=
        Stage.gate_block_of_open (ht ▸ hclose) (ht ▸ Stage.rest_ne_nil h hσ)
      have hline := Stage.openLine_of_step h hσ hclose s
      rw [Stage.readLines, bind_apply, Stage.readLine_of_open hopen]
      cases hstep : s.step options.strictEnd σ.move line with
      | none =>
        rw [hstep] at hline
        obtain ⟨e, t, ht⟩ := hline
        rw [ht]
        intro e' t' he
        cases he
        exact ((s.openLine_ofLine options _).error σ _ _ ht hspent.ofLine).1
      | some s' =>
        rw [hstep] at hline
        obtain ⟨t, ht, hc⟩ := hline
        have hread := ih h.2 s' (σ := t) (by rw [hc, h.nextLine_eq hσ]) (hspent.next ht hc)
        rw [hc, h.nextLine_eq hσ] at hread
        rw [ht, List.flatten_cons, Position.after_append]
        exact hread

theorem afterOpening_error {markers : List String} {text : List Char} {p : Position} {e : Failure}
    (h : afterOpening markers text p = .error e) : (∀ m ∈ markers, ¬m.toList <:+: text) ∧
      ∃ expected, e = Cursor.missingMarker ⟨[], p.after text⟩ expected := by
  induction text generalizing p with
  | nil =>
    rw [afterOpening] at h
    split at h
    · cases h
    · next hnone =>
      cases h
      refine ⟨fun m hm hin ↦ opened_eq_none_iff.1 hnone m hm ?_, _, rfl⟩
      exact List.prefix_nil.2 (List.infix_nil.1 hin)
  | cons x text ih =>
    rw [afterOpening] at h
    split at h
    · cases h
    · next hnone =>
      obtain ⟨hnowhere, hmissing⟩ := ih h
      refine ⟨fun m hm hin ↦ ?_, hmissing⟩
      rcases List.infix_cons_iff.1 hin with hp | hin
      · exact opened_eq_none_iff.1 hnone m hm hp
      · exact hnowhere m hm hin

theorem afterOpening_eq_error {markers : List String} {text : List Char} {p : Position}
    {e : Failure} (h : afterOpening markers text p = .error e) :
    (∀ m ∈ markers, ¬m.toList <:+: text) ∧ e.cause = .markerNotFound ∧ e.fatal = false ∧
      e.position = p.after text := by
  obtain ⟨hnowhere, expected, rfl⟩ := afterOpening_error h
  exact ⟨hnowhere, rfl, rfl, rfl⟩

theorem parse_of_afterOpening {text : List Char} {e : Failure}
    (h : afterOpening options.markers.opening text .start = .error e) :
    parse options (String.ofList text) = .error e := by
  rw [parse, String.toList_ofList, h]
  rfl

/-- Behind its opening marker a block is refused for a missing one if the rest is a document. -/
theorem parse_missing (hclosing : Distinct options.markers.closing) {text rest : List Char}
    {p : Position} (h : afterOpening options.markers.opening text .start = .ok ⟨rest, p⟩) :
    ((∃ d, Document.parse options.strictEnd (String.ofList rest) = .ok d) →
      ∃ e, parse options (String.ofList text) = .error e ∧ e.cause = .markerNotFound ∧
        e.fatal = false ∧ e.position = p.after rest) ∧
    ((∀ d, Document.parse options.strictEnd (String.ofList rest) ≠ .ok d) →
      ∀ e, parse options (String.ofList text) = .error e → e.OfLine) := by
  have hσ : (ParserState.mk ⟨rest, p⟩ none).cursor.rest = (lines rest).flatten :=
    (lines_flatten rest).symm
  have hspent : (ParserState.mk ⟨rest, p⟩ none).Spent := fun f hf ↦ by cases hf
  have hread := readLines_missing hclosing (lines_linewise rest) {} hσ hspent
  have hdocument := Document.parse_ofList_iff options.strictEnd (lines_linewise rest) p
  rw [lines_flatten] at hdocument
  rw [parse_apply options h]
  cases hrun : Stage.run options.strictEnd Stage.inPlace p (lines rest) {} with
  | some s =>
    rw [hrun] at hread
    obtain ⟨e, t, ht, hcause, hfatal, hposition⟩ := hread
    obtain ⟨d, hd, -⟩ := (hdocument _).2 ⟨s, hrun, rfl⟩
    rw [lines_flatten] at hposition
    rw [ht]
    exact ⟨fun _ ↦ ⟨e, rfl, hcause, hfatal, hposition⟩, fun hnone ↦ absurd hd (hnone d)⟩
  | none =>
    rw [hrun] at hread
    refine ⟨fun ⟨d, hd⟩ ↦ ?_, fun _ e he ↦ ?_⟩
    · obtain ⟨s, hs, -⟩ := (hdocument _).1 ⟨d, hd, rfl⟩
      rw [hrun] at hs
      cases hs
    · cases hr : Stage.readLines options (boundary options) (lines rest) {}
          { cursor := ⟨rest, p⟩ } with
      | ok s t =>
        rw [hr] at he
        cases he
      | error e' t =>
        rw [hr] at he
        cases he
        exact hread _ _ hr

/-- A marker is missing in a text if and only if it has no opening marker, or everything behind the
first one is a document without a blank end. This is the end of the text then, whatever was noted on
the way to it. -/
theorem markerNotFound_iff (options : Options) (hmarkers : options.markers = default)
    (text : String) :
    ((∃ e, parse options text = .error e ∧ e.cause = .markerNotFound) ↔
      (∀ m ∈ options.markers.opening, ¬m.toList <:+: text.toList) ∨
        ∃ pre opening rest, text.toList = pre ++ (opening.toList ++ rest) ∧
          Opens options.markers.opening pre opening rest ∧
            ∃ d, Document.parse options.strictEnd (String.ofList rest) = .ok d) ∧
    ∀ e, parse options text = .error e → e.cause = .markerNotFound →
      e.fatal = false ∧ e.position = Position.start.after text.toList := by
  have hclosing : Distinct options.markers.closing := by
    rw [hmarkers]
    exact ⟨'|', [']'], rfl, by decide, by decide, by decide⟩
  have htext : parse options text = parse options (String.ofList text.toList) := by
    rw [String.ofList_toList]
  rw [htext]
  cases hafter : afterOpening options.markers.opening text.toList .start with
  | error e =>
    obtain ⟨hnowhere, hcause, hfatal, hposition⟩ := afterOpening_eq_error hafter
    rw [parse_of_afterOpening hafter]
    refine ⟨⟨fun _ ↦ .inl hnowhere, fun _ ↦ ⟨e, rfl, hcause⟩⟩, fun e' he _ ↦ ?_⟩
    cases he
    exact ⟨hfatal, hposition⟩
  | ok inside =>
    obtain ⟨pre, opening, rest, hpre, hopens, rfl⟩ := afterOpening_eq_ok_iff.1 hafter
    obtain ⟨hmissing, hother⟩ := parse_missing hclosing hafter
    have hopening : opening ∈ options.markers.opening := by
      obtain ⟨before, after, hlist, -⟩ := hopens.earliest
      simp [hlist]
    have hthere : opening.toList <:+: text.toList := ⟨pre, rest, by simp [hpre]⟩
    have hend : (Position.start.after (pre ++ opening.toList)).after rest =
        Position.start.after text.toList := by
      rw [hpre, ← Position.after_append, List.append_assoc]
    by_cases hd : ∃ d, Document.parse options.strictEnd (String.ofList rest) = .ok d
    · obtain ⟨e, he, hcause, hfatal, hposition⟩ := hmissing hd
      refine ⟨⟨fun _ ↦ .inr ⟨pre, opening, rest, hpre, hopens, hd⟩, fun _ ↦ ⟨e, he, hcause⟩⟩, ?_⟩
      intro e' he' _
      rw [he] at he'
      cases he'
      exact ⟨hfatal, hend ▸ hposition⟩
    · have hline := hother fun d h ↦ hd ⟨d, h⟩
      refine ⟨⟨fun ⟨e, he, hcause⟩ ↦ absurd hcause (hline e he), ?_⟩, fun e he hcause ↦
        absurd hcause (hline e he)⟩
      rintro (hnowhere | ⟨pre', opening', rest', hpre', hopens', hd'⟩)
      · exact absurd hthere (hnowhere opening hopening)
      · have hsame : afterOpening options.markers.opening text.toList .start = _ :=
          afterOpening_eq_ok_iff.2 ⟨pre', opening', rest', hpre', hopens', rfl⟩
        rw [hafter] at hsame
        have hrest : rest = rest' := congrArg Cursor.rest (Except.ok.inj hsame)
        exact absurd (hrest ▸ hd') hd

theorem blank_markerNotFound :
    (∃ e, parse default "a" = .error e ∧ e.cause = .markerNotFound) ∧
      ∃ e, parse default "[persistLowerCase|\n" = .error e ∧ e.cause = .markerNotFound ∧
        e.fatal = false ∧ e.position = Position.start.after "[persistLowerCase|\n".toList := by
  have hread : Document.parse (default : Options).strictEnd (String.ofList ['\n']) =
      .ok ⟨[.blank ⟨"\n", ⟨⟨1, 1⟩, ⟨2, 1⟩⟩⟩], ⟨⟨1, 1⟩, ⟨2, 1⟩⟩⟩ :=
    Document.parse_eq_ok_iff.2 ⟨⟨[.blank ⟨"\n", ⟨⟨1, 1⟩, ⟨2, 1⟩⟩⟩], none⟩, by decide, rfl⟩
  have hopens : Opens (default : Markers).opening [] Markers.persistLowerCase ['\n'] := by
    refine ⟨fun s t hpre hne ↦ ?_, [], [Markers.persistUpperCase], rfl, by simp⟩
    exact absurd (List.append_eq_nil_iff.1 hpre.symm).2 hne
  obtain ⟨hiff, hposition⟩ := markerNotFound_iff default rfl "[persistLowerCase|\n"
  obtain ⟨e, he, hcause⟩ := hiff.2 (.inr ⟨[], _, _, rfl, hopens, _, hread⟩)
  exact ⟨(markerNotFound_iff default rfl "a").1.2 (.inl (by decide)), e, he, hcause,
    hposition e he hcause⟩

end Block

end EntityModels
