import EntityModels.Proofs.Parsing.FailsWith

namespace EntityModels

/-- A failure of the reading leaves room for other alternatives. -/
def Mild {σ α : Type} (p : EStateM Failure σ α) : Prop :=
  ∀ s e t, p s = .error e t → e.fatal = false

namespace Mild

variable {σ α β : Type}

theorem pure (a : α) : Mild (pure a : EStateM Failure σ α) := FailsWith.pure a

theorem bind {p : EStateM Failure σ α} {f : α → EStateM Failure σ β} (hp : Mild p)
    (hf : ∀ a, Mild (f a)) : Mild (p >>= f) := FailsWith.bind hp hf

theorem position : Mild Reader.position := FailsWith.position

theorem bind_fatal {p : EStateM Failure σ α} {f : α → EStateM Failure σ β} (hp : Mild p) {s u : σ}
    {e : Failure} (h : (p >>= f) s = .error e u) (he : e.fatal = true) :
    ∃ a t, p s = .ok a t ∧ f a t = .error e u := by
  refine (bind_error h).resolve_left fun hs ↦ ?_
  rw [hp s e u hs] at he
  cases he

theorem ofReader {r : Reader α} (hr : Mild r) : Mild (r : Parser α) := FailsWith.ofReader hr

theorem attempt {p : Parser α} (hp : Mild p) : ∀ s, ∃ found t, p.attempt s = .ok found t := by
  intro s
  cases h : p.attempt s with
  | ok found t => exact ⟨found, t, rfl⟩
  | error e t =>
    obtain ⟨he, hf⟩ := Parser.attempt_error h
    rw [hp s e t he] at hf
    cases hf

end Mild

variable {α : Type}

namespace Choice

theorem tried_total {choice : Choice α} (h : Mild choice.parser) (s : ParserState) :
    ∃ found t, choice.tried s = .ok found t := by
  cases hm : choice.mayStart s.cursor.rest with
  | true =>
    rw [tried_eq_attempt hm]
    exact h.attempt s
  | false => exact ⟨none, s, tried_eq_none hm⟩

theorem first_total {choices : List (Choice α)} (h : ∀ choice ∈ choices, Mild choice.parser)
    (s : ParserState) : ∃ found t, first choices s = .ok found t := by
  induction choices generalizing s with
  | nil => exact ⟨none, s, rfl⟩
  | cons choice choices ih =>
    obtain ⟨found, t, ht⟩ := tried_total (h choice List.mem_cons_self) s
    rw [first, bind_apply, ht]
    cases found with
    | some a => exact ⟨some a, t, rfl⟩
    | none => exact ih (fun c hc ↦ h c (List.mem_cons_of_mem choice hc)) t

theorem firstOr_mild {choices : List (Choice α)} (h : ∀ choice ∈ choices, Mild choice.parser)
    (expected : String) : Mild (firstOr expected choices) := by
  refine FailsWith.bind (.of_ok (first_total h)) fun found ↦ ?_
  cases found with
  | some a => exact .pure a
  | none => exact .ofReader (.mismatch fun _ ↦ rfl)

end Choice

end EntityModels
