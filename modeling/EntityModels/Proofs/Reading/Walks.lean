import EntityModels.Grammar.Production
import EntityModels.Proofs.Parsing.Outcome
import EntityModels.Proofs.Text.Places
import EntityModels.Text.Source

namespace EntityModels

def Parser.only {α : Type} (p : Parser α) : Parser Unit := do
  let _ ← p
  return ()

inductive Action where
  | advance
  | character (c : Char)
  | literal (text : String)
  | takeWhile (test : Char → Bool)
  | space
  | someSpace
  | token
  | marker
  | name (kind : IdentKind)
  | flag (f : Flag)
  | flags
  | setting (s : Setting)
  | settings
  | read (options : Options) (production : Production)
  | attempt (options : Options) (production : Production)

def Action.parser : Action → Parser Unit
  | advance => Parser.only Reader.advance
  | character c => Parser.only (Reader.literal c.toString)
  | literal text => Parser.only (Reader.literal text)
  | takeWhile test => Parser.only (Reader.takeWhile test)
  | space => Parser.only Reader.space
  | someSpace => Parser.only Reader.someSpace
  | token => Parser.only Reader.token
  | marker => Parser.only Reader.marker
  | name kind => Parser.only (Reader.name kind)
  | flag f => Parser.only f.reader
  | flags => Parser.only Flag.group
  | setting s => Parser.only s.reader
  | settings => Parser.only Setting.group
  | read options production => (production.parser options).only
  | attempt options production => (production.parser options).attempt.only

/-- Where a walk stands, and all positions that were seen on the way, the last one first. -/
structure Walk where
  state : ParserState
  seen : List Position

namespace Walk

def ofText (text : List Char) : Walk := ⟨.ofText text, [.start]⟩

def position (w : Walk) : Position := w.state.cursor.position

def move (w : Walk) (s : ParserState) : Walk := ⟨s, s.cursor.position :: w.seen⟩

end Walk

/-- What is done on a walk, one thing after another. -/
inductive Script where
  | stop
  | act (action : Action) (next : Script)
  /-- Returns to a position that was seen, by its number; where there is none, nothing is done. -/
  | goBack (n : Nat) (next : Script)
  /-- Goes on with other failures noted, as in a reading of its own. -/
  | renew (farthest : Option Failure) (next : Script)
  /-- Tries a walk of its own, which ends as it likes: well, or with a failure. -/
  | attempt (body : Script) (failure : Option Failure) (next : Script)

def ParserState.ending (s : ParserState) (failure : Option Failure) : Parser Unit := fun _ ↦
  match failure with
  | none => .ok () s
  | some e => .error e s

def Script.run (text : List Char) : Script → Walk → Walk
  | stop, w => w
  | act action next, w => next.run text (w.move (stateBehind action.parser w.state))
  | goBack n next, w =>
    match w.seen[n]? with
    | some p => next.run text (w.move { w.state with cursor := .seek text p })
    | none => next.run text w
  | renew farthest next, w => next.run text (w.move { w.state with farthest })
  | attempt body failure next, w =>
    let inner := body.run text w
    next.run text (inner.move (stateBehind (inner.state.ending failure).attempt w.state))

section

variable {α : Type} {p : Parser α}

theorem Parser.only_forward (h : Forward p) : Forward p.only := h.bind fun _ ↦ .pure ()

theorem Parser.stateBehind_attempt (p : Parser α) (s : ParserState) :
    (stateBehind p.attempt s).cursor = (stateBehind p s).cursor ∨
      (stateBehind p.attempt s).cursor = s.cursor := by
  unfold stateBehind attempt
  cases p s with
  | ok a t => exact .inl rfl
  | error e t =>
    cases hf : e.fatal with
    | true => exact .inl (by simp [hf])
    | false => exact .inr (by simp [hf, ParserState.record])

end

theorem Action.parser_forward (action : Action) : Forward action.parser := by
  have reading {α : Type} {r : Reader α} (h : Forward r) : Forward (Parser.only (r : Parser α)) :=
    Parser.only_forward (Parser.ofReader_forward h)
  cases action with
  | advance => exact reading .advance
  | character c => exact reading (.literal _)
  | literal text => exact reading (.literal text)
  | takeWhile test => exact reading (.takeWhile test)
  | space => exact reading Reader.space_forward
  | someSpace => exact reading Reader.someSpace_forward
  | token => exact reading Reader.token_forward
  | marker => exact reading Reader.marker_forward
  | name kind => exact reading (Reader.name_forward kind)
  | flag f => exact reading f.reader_forward
  | flags => exact reading (Reader.modifiers_forward Flag.reader_forward _)
  | setting s => exact reading s.reader_forward
  | settings => exact reading (Reader.modifiers_forward Setting.reader_forward _)
  | read options production => exact Parser.only_forward (production.parser_forward options)
  | attempt options production =>
    exact Parser.only_forward (Parser.attempt_forward (production.parser_forward options))

/-- Where the walk stands is a place of the text, and so is each place that it has seen. -/
structure Walk.Within (text : List Char) (w : Walk) : Prop where
  cursor : (Cursor.ofText text).LeadsTo w.state.cursor
  seen : ∀ p ∈ w.seen, ∃ c, (Cursor.ofText text).LeadsTo c ∧ c.position = p
  position_mem : w.position ∈ w.seen

namespace Walk.Within

variable {text : List Char} {w : Walk}

theorem ofText (text : List Char) : (Walk.ofText text).Within text where
  cursor := .refl _
  seen _ hp := ⟨.ofText text, .refl _, (List.mem_singleton.1 hp).symm⟩
  position_mem := List.mem_singleton.2 rfl

theorem move (h : w.Within text) {s : ParserState} (hs : (Cursor.ofText text).LeadsTo s.cursor) :
    (w.move s).Within text where
  cursor := hs
  seen p hp := by
    rcases List.mem_cons.1 hp with rfl | hp
    · exact ⟨s.cursor, hs, rfl⟩
    · exact h.seen p hp
  position_mem := List.mem_cons_self

theorem seek (h : w.Within text) {p : Position} (hp : p ∈ w.seen) :
    (Cursor.ofText text).LeadsTo (.seek text p) := by
  obtain ⟨c, hc, rfl⟩ := h.seen p hp
  rw [hc.seek_eq]
  exact hc

theorem run (h : w.Within text) (script : Script) : (script.run text w).Within text := by
  induction script generalizing w with
  | stop => exact h
  | act action next ih =>
    exact ih (h.move (h.cursor.trans (action.parser_forward.stateBehind w.state)))
  | goBack n next ih =>
    rw [Script.run]
    cases hn : w.seen[n]? with
    | none => exact ih h
    | some p => exact ih (h.move (h.seek (List.mem_of_getElem? hn)))
  | renew farthest next ih => exact ih (h.move h.cursor)
  | attempt body failure next ihbody ih =>
    have hinner := ihbody h
    refine ih (hinner.move ?_)
    have hend : (stateBehind ((body.run text w).state.ending failure) w.state).cursor =
        (body.run text w).state.cursor := by
      cases failure <;> rfl
    rcases Parser.stateBehind_attempt ((body.run text w).state.ending failure) w.state with hc | hc
    · rw [hc, hend]
      exact hinner.cursor
    · rw [hc]
      exact h.cursor

theorem marks (h : w.Within text) {p : Position} (hp : p ∈ w.seen) :
    ∃ before rest, p.Marks text before rest := by
  obtain ⟨c, ⟨before, htext, hc⟩, rfl⟩ := h.seen p hp
  refine ⟨before, c.rest, ?_⟩
  change text = before ++ c.rest at htext
  rw [htext, hc]
  exact Position.marks_start_after before c.rest

theorem marks_position (h : w.Within text) :
    ∃ before, w.position.Marks text before w.state.cursor.rest ∧
      dropBytes w.position.offset text = some w.state.cursor.rest := by
  obtain ⟨before, htext, hc⟩ := h.cursor
  change text = before ++ w.state.cursor.rest at htext
  have hoffset : w.position.offset = byteLength before := by
    rw [position, hc, Position.after_offset]
    exact Nat.zero_add _
  refine ⟨before, ?_, ?_⟩
  · rw [position, htext, hc]
    exact Position.marks_start_after before _
  · rw [hoffset, htext]
    exact dropBytes_append before _

theorem textBetween_eq (h : w.Within text) {p : Position} (hp : p ∈ w.seen)
    (hle : p.offset ≤ w.position.offset) : ∃ before between,
      p.Marks text before (between ++ w.state.cursor.rest) ∧
        textBetween text p.offset w.position.offset = between := by
  obtain ⟨c, hc, rfl⟩ := h.seen p hp
  obtain ⟨between, hrest, hposition⟩ := hc.of_offset_le h.cursor hle
  obtain ⟨before, htext, hmoved⟩ := id hc
  change text = before ++ c.rest at htext
  refine ⟨before, between, ?_, hc.textBetween_eq hrest hposition⟩
  rw [← hrest, htext, hmoved]
  exact Position.marks_start_after before c.rest

end Walk.Within

/-- Whatever is done on a walk through a text, all positions that are seen are places of the text:
their lines, columns and bytes are those of the text in front of them. The unread text is what
stands behind the last of them, the text since another is what lies between, and one of two is
behind the other in the order of positions if there are more bytes in front of it. -/
theorem Script.positions_genuine (script : Script) (text : String) :
    let w := script.run text.toList (.ofText text.toList)
    w.position ∈ w.seen ∧
    (∀ p ∈ w.seen, ∃ before rest, p.Marks text.toList before rest) ∧
    (∃ before, w.position.Marks text.toList before w.state.cursor.rest ∧
      dropBytes w.position.offset text.toList = some w.state.cursor.rest) ∧
    (∀ p ∈ w.seen, p.offset ≤ w.position.offset → ∃ before between,
      p.Marks text.toList before (between ++ w.state.cursor.rest) ∧
        textBetween text.toList p.offset w.position.offset = between) ∧
    (∀ p ∈ w.seen, ∀ q ∈ w.seen, compare p q = compare p.offset q.offset ∧
      (p.location = q.location → p.offset = q.offset)) ∧
    (text.length < UInt32.size - 1 → ∀ (p : Position) before rest, p.Marks text.toList before rest →
      p.line < UInt32.size ∧ p.column < UInt32.size) := by
  intro w
  have hw : w.Within text.toList := (Walk.Within.ofText text.toList).run script
  refine ⟨hw.position_mem, fun p hp ↦ hw.marks hp, hw.marks_position,
    fun p hp hle ↦ hw.textBetween_eq hp hle, fun p hp q hq ↦ ?_,
    fun hlength p before rest hmarks ↦ hmarks.lt hlength⟩
  obtain ⟨c, hc, rfl⟩ := hw.seen p hp
  obtain ⟨d, hd, rfl⟩ := hw.seen q hq
  exact hc.compare_eq hd

theorem Script.positions_of_walk :
    let text := "-- é\nA\n  b Int\n"
    let script : Script := .act (.read default .commentLine) <|
      .attempt (.act (.name .type) .stop) (some (Cursor.mismatch ⟨[], .start⟩ "json")) <|
        .goBack 1 (.goBack 1 (.act (.read default .entity) .stop))
    let w := script.run text.toList (.ofText text.toList)
    let p : Position := ⟨2, 2, 7⟩
    p ∈ w.seen ∧ w.position = ⟨4, 1, 16⟩ ∧
      (∃ before between, p.Marks text.toList before (between ++ w.state.cursor.rest) ∧
        textBetween text.toList p.offset w.position.offset = between) ∧
      compare p w.position = compare p.offset w.position.offset ∧ p.line < UInt32.size := by
  intro text script w p
  have hseen : w.seen = [⟨4, 1, 16⟩, ⟨2, 1, 6⟩, p, ⟨2, 1, 6⟩, p, ⟨2, 1, 6⟩, .start] := by
    decide +kernel
  have hposition : w.position = ⟨4, 1, 16⟩ := by decide +kernel
  have hp : p ∈ w.seen := by rw [hseen]; decide
  obtain ⟨hhere, hplaces, -, hbetween, horder, hsmall⟩ := script.positions_genuine text
  obtain ⟨before, rest, hmarks⟩ := hplaces p hp
  exact ⟨hp, hposition, hbetween p hp (by rw [hposition]; decide), (horder p hp _ hhere).1,
    (hsmall (by decide +kernel) p before rest hmarks).1⟩

end EntityModels
