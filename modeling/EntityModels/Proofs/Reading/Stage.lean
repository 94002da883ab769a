import Mathlib.Data.Option.Basic
import EntityModels.Grammar.Document
import EntityModels.Proofs.Text.Lines
import EntityModels.Proofs.Text.Relocation
import EntityModels.Proofs.Tree.Respan

/-!
A machine that takes a text line by line. It keeps the items that are complete and the entity to
which members may still be added, and it looks at each line as if there were no other.
-/

namespace EntityModels

/-- How far a document has got. -/
structure Stage where
  complete : List Item := []
  opened : Option Entity := none
  deriving DecidableEq, Repr

def wholeSpan (text : List Char) : Span := Position.start.spanTo (Position.start.after text)

/-- What a parser makes of a text that stands alone. -/
def readAlone {α : Type} (p : Parser α) (text : List Char) : Option α :=
  match p (.ofText text) with
  | .ok a _ => some a
  | .error _ _ => none

theorem ok_of_readAlone {α : Type} {p : Parser α} {text : List Char} {a : α}
    (h : readAlone p text = some a) : ∃ t, p (.ofText text) = .ok a t := by
  unfold readAlone at h
  split at h
  · next t hp =>
    cases h
    exact ⟨t, hp⟩
  · cases h

/-- One more member; the entity now reaches as far as the line of the member. -/
def Entity.extend (e : Entity) (m : Member) (stop : Location) : Entity :=
  { e with members := e.members ++ [m], span := ⟨e.span.start, stop⟩ }

namespace Stage

def items (s : Stage) : List Item := s.complete ++ s.opened.toList.map .entity

def push (s : Stage) (item : Item) : Stage := ⟨s.items ++ [item], none⟩

def start (s : Stage) (e : Entity) : Stage := ⟨s.items, some e⟩

theorem push_items (s : Stage) (item : Item) : (s.push item).items = s.items ++ [item] :=
  List.append_nil _

def member? (options : Options) (place : Span → Span) (line : List Char) (s : Stage) :
    Option Stage := do
  let e ← s.opened
  let m ← readAlone (Member.parser options) line
  return { s with opened := some (e.extend (m.mapSpan place) (place (wholeSpan line)).stop) }

def header? (options : Options) (place : Span → Span) (line : List Char) (s : Stage) :
    Option Stage := do
  let e ← readAlone (Entity.parser options) line
  return s.start (e.mapSpan place)

/-- A blank line or a comment, while no entity is open. -/
def trivia? (place : Span → Span) (line : List Char) (s : Stage) : Option Stage :=
  if s.opened.isSome then none
  else
    (readAlone BlankLine.reader line).map (fun b ↦ s.push (.blank (b.mapSpan place))) <|>
    (readAlone CommentLine.reader line).map (fun c ↦ s.push (.comment (c.mapSpan place)))

def trailing? (options : Options) (place : Span → Span) (line : List Char) (s : Stage) :
    Option Stage :=
  if options.trailingBlank ∧ line ≠ [] ∧ line.all isHorizontalSpace then
    some (s.push (.blank ⟨String.ofList line, place (wholeSpan line)⟩))
  else none

/-- What becomes of a stage with one more line, of which `place` says where it stands. There is
nothing if the line does not fit. -/
def step (options : Options) (place : Span → Span) (line : List Char) (s : Stage) :
    Option Stage :=
  s.member? options place line <|> s.header? options place line <|> s.trivia? place line <|>
    s.trailing? options place line

/-- The machine on several lines of which the first begins at a position. -/
def run (options : Options) (place : Position → Span → Span) :
    Position → List (List Char) → Stage → Option Stage
  | _, [], s => some s
  | p, line :: lines, s => do
    run options place (p.after line) lines (← s.step options (place p) line)

theorem run_cons (options : Options) (place : Position → Span → Span) (p : Position)
    (line : List Char) (lines : List (List Char)) (s : Stage) :
    run options place p (line :: lines) s =
      (s.step options (place p) line).bind (run options place (p.after line) lines) := rfl

theorem run_cons_eq_some_iff {options : Options} {place : Position → Span → Span} {p : Position}
    {line : List Char} {lines : List (List Char)} {s s' : Stage} :
    run options place p (line :: lines) s = some s' ↔ ∃ s₁,
      s.step options (place p) line = some s₁ ∧
        run options place (p.after line) lines s₁ = some s' :=
  Option.bind_eq_some_iff

variable {options : Options} {place : Span → Span} {line : List Char} {s s' : Stage}

theorem member?_eq_some (hm : s.member? options place line = some s') :
    ∃ (e : Entity) (m : Member), s.opened = some e ∧
      readAlone (Member.parser options) line = some m ∧ s' =
        { s with opened := some (e.extend (m.mapSpan place) (place (wholeSpan line)).stop) } := by
  obtain ⟨e, ho, hm⟩ := Option.bind_eq_some_iff.1 hm
  obtain ⟨m, hr, hm⟩ := Option.bind_eq_some_iff.1 hm
  cases hm
  exact ⟨e, m, ho, hr, rfl⟩

theorem trailing?_eq_some_iff : s.trailing? options place line = some s' ↔
    options.trailingBlank ∧ line ≠ [] ∧ line.all isHorizontalSpace ∧
      s' = s.push (.blank ⟨String.ofList line, place (wholeSpan line)⟩) := by
  rw [trailing?]
  constructor
  · intro h
    split at h
    · next hblank =>
      cases h
      exact ⟨hblank.1, hblank.2.1, hblank.2.2, rfl⟩
    · cases h
  · rintro ⟨htrailing, hne, hall, rfl⟩
    exact if_pos ⟨htrailing, hne, hall⟩

/-- What a step can do: add a member to the open entity, open another, add a blank line or a comment
while none is open, or add the blank end of the text. -/
theorem step_inversion (h : s.step options place line = some s') :
    (∃ e m, s.opened = some e ∧ readAlone (Member.parser options) line = some m ∧ s' =
        { s with opened := some (e.extend (m.mapSpan place) (place (wholeSpan line)).stop) }) ∨
      (∃ e, readAlone (Entity.parser options) line = some e ∧ s' = s.start (e.mapSpan place)) ∨
      (s.opened = none ∧ ∃ l, readAlone BlankLine.reader line = some l ∧
        s' = s.push (.blank (l.mapSpan place))) ∨
      (s.opened = none ∧ ∃ l, readAlone CommentLine.reader line = some l ∧
        s' = s.push (.comment (l.mapSpan place))) ∨
      options.trailingBlank ∧ line ≠ [] ∧ line.all isHorizontalSpace ∧
        s' = s.push (.blank ⟨String.ofList line, place (wholeSpan line)⟩) := by
  unfold step at h
  rcases (Option.orElse_eq_some _ _ _).1 h with hm | ⟨-, h⟩
  · exact .inl (member?_eq_some hm)
  refine .inr ?_
  rcases (Option.orElse_eq_some _ _ _).1 h with hh | ⟨-, h⟩
  · obtain ⟨e, he, hstart⟩ := Option.bind_eq_some_iff.1 hh
    cases hstart
    exact .inl ⟨e, he, rfl⟩
  refine .inr ?_
  rcases (Option.orElse_eq_some _ _ _).1 h with ht | ⟨-, h⟩
  · rw [trivia?] at ht
    split at ht
    · cases ht
    next ho =>
    have ho : s.opened = none := by simpa using ho
    rcases (Option.orElse_eq_some _ _ _).1 ht with hb | ⟨-, hc⟩
    · obtain ⟨l, hl, rfl⟩ := Option.map_eq_some_iff.1 hb
      exact .inl ⟨ho, l, hl, rfl⟩
    · obtain ⟨l, hl, rfl⟩ := Option.map_eq_some_iff.1 hc
      exact .inr (.inl ⟨ho, l, hl, rfl⟩)
  · exact .inr (.inr (trailing?_eq_some_iff.1 h))

end Stage

end EntityModels
