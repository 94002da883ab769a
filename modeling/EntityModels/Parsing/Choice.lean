import EntityModels.Parsing.Parser

namespace EntityModels

/-- One of several alternatives, with a test on the unread text that it has to pass before it is
tried at all. -/
structure Choice (α : Type) where
  mayStart : List Char → Bool
  parser : Parser α
  forward : Forward parser

namespace Choice

variable {α : Type}

def tried (choice : Choice α) : Parser (Option α) := fun s ↦
  if choice.mayStart s.cursor.rest then choice.parser.attempt s else .ok none s

def first : List (Choice α) → Parser (Option α)
  | [] => return none
  | choice :: choices => do
    match ← choice.tried with
    | some a => return some a
    | none => first choices

/-- The first alternative, where one of them is expected. -/
def firstOr (expected : String) (choices : List (Choice α)) : Parser α := do
  match ← first choices with
  | some a => return a
  | none => Reader.mismatch expected

theorem tried_forward (choice : Choice α) : Forward choice.tried := by
  intro s
  unfold tried
  split
  · exact Parser.attempt_forward choice.forward s
  · exact ⟨fun _ _ k ↦ (EStateM.Result.ok.inj k).2 ▸ .refl _, fun _ _ k ↦ by simp at k⟩

theorem first_forward (choices : List (Choice α)) : Forward (first choices) := by
  induction choices with
  | nil => exact .pure none
  | cons choice choices ih =>
    refine choice.tried_forward.bind fun found ↦ ?_
    cases found with
    | some a => exact .pure (some a)
    | none => exact ih

theorem firstOr_forward (expected : String) (choices : List (Choice α)) :
    Forward (firstOr expected choices) := by
  refine (first_forward choices).bind fun found ↦ ?_
  cases found with
  | some a => exact .pure a
  | none => exact Parser.ofReader_forward (.mismatch expected)

end Choice

end EntityModels
