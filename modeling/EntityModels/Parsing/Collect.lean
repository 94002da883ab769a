import EntityModels.Parsing.Forward

namespace EntityModels

variable {σ α : Type} [HasCursor σ]

def HasCursor.offset (s : σ) : Nat := (cursor s).position.offset

/-- Collects results as long as there are some and each of them takes something from the text: it
leaves more bytes in front of the cursor or, which comes to the same, a later position. -/
def collect (step : EStateM Failure σ (Option α)) (h : Forward step) : EStateM Failure σ (List α) :=
  fun s ↦
    match _hs : step s with
    | .error e t => .error e t
    | .ok none t => .ok [] t
    | .ok (some a) t =>
      if HasCursor.offset s < HasCursor.offset t then
        match collect step h t with
        | .ok as u => .ok (a :: as) u
        | .error e u => .error e u
      else .ok [] t
-- a step that takes something leaves fewer characters, so no limit has to be given
termination_by s => (HasCursor.cursor s).rest.length
decreasing_by exact ((h _).1 _ _ ‹_›).length_lt ‹_›

theorem collect_forward {step : EStateM Failure σ (Option α)} (h : Forward step) :
    Forward (collect step h) := by
  intro s
  fun_induction collect step h s with
  | case1 s e t hs =>
    refine ⟨fun _ _ k ↦ by simp at k, fun _ _ k ↦ ?_⟩
    exact (EStateM.Result.error.inj k).2 ▸ (h s).2 e t hs
  | case2 s t hs =>
    refine ⟨fun _ _ k ↦ ?_, fun _ _ k ↦ by simp at k⟩
    exact (EStateM.Result.ok.inj k).2 ▸ (h s).1 none t hs
  | case3 s a t hs _ as u hu ih =>
    refine ⟨fun _ _ k ↦ ?_, fun _ _ k ↦ by simp at k⟩
    exact (EStateM.Result.ok.inj k).2 ▸ ((h s).1 _ t hs).trans (ih.1 as u hu)
  | case4 s a t hs _ e u hu ih =>
    refine ⟨fun _ _ k ↦ by simp at k, fun _ _ k ↦ ?_⟩
    exact (EStateM.Result.error.inj k).2 ▸ ((h s).1 _ t hs).trans (ih.2 e u hu)
  | case5 s a t hs _ =>
    refine ⟨fun _ _ k ↦ ?_, fun _ _ k ↦ by simp at k⟩
    exact (EStateM.Result.ok.inj k).2 ▸ (h s).1 _ t hs

end EntityModels
