import EntityModels.Parsing.Collect

/-!
Parsers choose between readings. Beside the cursor they keep the failure of the alternative that got
farthest among those that were given up: when nothing fits any more, that one tells most about why.
-/

namespace EntityModels

structure ParserState where
  cursor : Cursor
  farthest : Option Failure := none
  deriving DecidableEq, Repr

namespace ParserState

def ofText (text : List Char) : ParserState := { cursor := .ofText text }

instance : HasCursor ParserState := ⟨cursor⟩

/-- Notes the failure of an alternative that was given up. -/
def record (s : ParserState) (e : Failure) : ParserState :=
  { s with farthest := some (s.farthest.elim e (·.farthest e)) }

/-- The failure to report when `e` ends the reading. Unless `e` is fatal, what was noted is used
up. -/
def conclude (s : ParserState) (e : Failure) : Failure × ParserState :=
  if e.fatal then (e, s) else (s.farthest.elim e e.farthest, { s with farthest := none })

theorem conclude_cursor (s : ParserState) (e : Failure) : (s.conclude e).2.cursor = s.cursor := by
  unfold conclude
  split <;> rfl

end ParserState

abbrev Parser := EStateM Failure ParserState

namespace Parser

variable {α : Type}

def ofReader (r : Reader α) : Parser α := fun s ↦
  match r s.cursor with
  | .ok a c => .ok a { s with cursor := c }
  | .error e c => .error e { s with cursor := c }

instance : MonadLift Reader Parser := ⟨ofReader⟩

/-- Tries an alternative. If it fails, its failure is noted and what it read is given back; a fatal
failure is passed on as it is. -/
def attempt (p : Parser α) : Parser (Option α) := fun s ↦
  match p s with
  | .ok a t => .ok (some a) t
  | .error e t =>
    if e.fatal then .error e t else .ok none (ParserState.record { t with cursor := s.cursor } e)

def stuck (failure : Cursor → Failure) : Parser α := fun s ↦
  let (e, t) := s.conclude (failure s.cursor)
  .error e t

theorem ofReader_forward {r : Reader α} (hr : Forward r) : Forward (r : Parser α) := by
  intro s
  change (∀ a t, ofReader r s = .ok a t → _) ∧ ∀ e t, ofReader r s = .error e t → _
  unfold ofReader
  split
  · next a c h =>
    exact ⟨fun _ _ k ↦ (EStateM.Result.ok.inj k).2 ▸ (hr _).1 a c h, fun _ _ k ↦ by simp at k⟩
  · next e c h =>
    exact ⟨fun _ _ k ↦ by simp at k, fun _ _ k ↦ (EStateM.Result.error.inj k).2 ▸ (hr _).2 e c h⟩

theorem attempt_forward {p : Parser α} (hp : Forward p) : Forward p.attempt := by
  intro s
  unfold attempt
  split
  · next a t h =>
    exact ⟨fun _ _ k ↦ (EStateM.Result.ok.inj k).2 ▸ (hp s).1 a t h, fun _ _ k ↦ by simp at k⟩
  · next e t h =>
    split
    · refine ⟨fun _ _ k ↦ by simp at k, fun _ _ k ↦ ?_⟩
      exact (EStateM.Result.error.inj k).2 ▸ (hp s).2 e t h
    · exact ⟨fun _ _ k ↦ (EStateM.Result.ok.inj k).2 ▸ .refl s.cursor, fun _ _ k ↦ by simp at k⟩

theorem stuck_forward (failure : Cursor → Failure) : Forward (stuck failure : Parser α) := by
  refine .of_error fun s ↦ ⟨_, (s.conclude (failure s.cursor)).2, rfl, ?_⟩
  change s.cursor.LeadsTo (s.conclude (failure s.cursor)).2.cursor
  rw [s.conclude_cursor]
  exact .refl s.cursor

end Parser

end EntityModels
