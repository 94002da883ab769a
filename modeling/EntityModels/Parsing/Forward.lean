import EntityModels.Parsing.Reader

namespace EntityModels

variable {σ α β : Type} [HasCursor σ]

/-- The reading ends ahead of where it began, whether it fails or not. -/
def Forward (p : EStateM Failure σ α) : Prop :=
  ∀ s, (∀ a t, p s = .ok a t → (HasCursor.cursor s).LeadsTo (HasCursor.cursor t)) ∧
    ∀ e t, p s = .error e t → (HasCursor.cursor s).LeadsTo (HasCursor.cursor t)

namespace Forward

theorem of_ok {p : EStateM Failure σ α}
    (h : ∀ s, ∃ a t, p s = .ok a t ∧ (HasCursor.cursor s).LeadsTo (HasCursor.cursor t)) :
    Forward p := by
  intro s
  obtain ⟨a, t, ht, hs⟩ := h s
  refine ⟨fun _ _ k ↦ ?_, fun _ _ k ↦ by simp [ht] at k⟩
  obtain ⟨-, rfl⟩ := EStateM.Result.ok.inj (ht.symm.trans k)
  exact hs

theorem of_error {p : EStateM Failure σ α}
    (h : ∀ s, ∃ e t, p s = .error e t ∧ (HasCursor.cursor s).LeadsTo (HasCursor.cursor t)) :
    Forward p := by
  intro s
  obtain ⟨e, t, ht, hs⟩ := h s
  refine ⟨fun _ _ k ↦ by simp [ht] at k, fun _ _ k ↦ ?_⟩
  obtain ⟨-, rfl⟩ := EStateM.Result.error.inj (ht.symm.trans k)
  exact hs

theorem pure (a : α) : Forward (pure a : EStateM Failure σ α) :=
  of_ok fun s ↦ ⟨a, s, rfl, .refl _⟩

theorem throw (e : Failure) : Forward (throw e : EStateM Failure σ α) :=
  of_error fun s ↦ ⟨e, s, rfl, .refl _⟩

theorem bind {p : EStateM Failure σ α} {f : α → EStateM Failure σ β} (hp : Forward p)
    (hf : ∀ a, Forward (f a)) : Forward (p >>= f) := by
  intro s
  simp only [bind_apply]
  cases h : p s with
  | ok a t =>
    have ht := (hp s).1 a t h
    exact ⟨fun b u k ↦ ht.trans ((hf a t).1 b u k), fun e u k ↦ ht.trans ((hf a t).2 e u k)⟩
  | error e t =>
    refine ⟨fun _ _ k ↦ by simp at k, fun _ _ k ↦ ?_⟩
    obtain ⟨-, rfl⟩ := EStateM.Result.error.inj k
    exact (hp s).2 e t h

theorem ite {b : Bool} {p q : EStateM Failure σ α} (hp : Forward p) (hq : Forward q) :
    Forward (if b then p else q) := by
  cases b
  · exact hq
  · exact hp

theorem position : Forward Reader.position := of_ok fun c ↦ ⟨c.position, c, rfl, .refl c⟩

theorem next? : Forward Reader.next? := of_ok fun c ↦ ⟨c.next?, c, rfl, .refl c⟩

theorem startsWith (text : String) : Forward (Reader.startsWith text) :=
  of_ok fun c ↦ ⟨_, c, rfl, .refl c⟩

theorem mismatch (expected : String) : Forward (Reader.mismatch expected : Reader α) :=
  of_error fun c ↦ ⟨_, c, rfl, .refl c⟩

theorem unterminated : Forward (Reader.unterminated : Reader α) :=
  of_error fun c ↦ ⟨_, c, rfl, .refl c⟩

theorem advance : Forward Reader.advance := by
  refine of_ok fun c ↦ ?_
  unfold Reader.advance
  split
  · exact ⟨_, c, rfl, .refl c⟩
  · next x rest h => exact ⟨_, _, rfl, .past (by simp [HasCursor.cursor, h])⟩

theorem takeWhile (p : Char → Bool) : Forward (Reader.takeWhile p) :=
  of_ok fun c ↦ ⟨_, _, rfl, .skip c p⟩

theorem literal (text : String) : Forward (Reader.literal text) := by
  refine of_ok fun c ↦ ?_
  unfold Reader.literal
  split
  · next rest h => exact ⟨_, _, rfl, .past (isPrefixOf?_eq_some_iff.1 h)⟩
  · exact ⟨_, c, rfl, .refl c⟩

theorem rewindUnless {good : α → Bool} {r : Reader α} (hr : Forward r) :
    Forward (Reader.rewindUnless good r) := by
  intro c
  unfold Reader.rewindUnless
  split
  · next a d h =>
    refine ⟨fun _ _ k ↦ ?_, fun _ _ k ↦ by simp at k⟩
    rw [← (EStateM.Result.ok.inj k).2]
    split
    · exact (hr c).1 a d h
    · exact .refl _
  · next e d h =>
    refine ⟨fun _ _ k ↦ by simp at k, fun _ _ k ↦ ?_⟩
    rw [← (EStateM.Result.error.inj k).2]
    exact (hr c).2 e d h

theorem committedIf {b : Bool} {r : Reader α} (hr : Forward r) :
    Forward (Reader.committedIf b r) := by
  intro c
  unfold Reader.committedIf
  split
  · next a d h =>
    exact ⟨fun _ _ k ↦ (EStateM.Result.ok.inj k).2 ▸ (hr c).1 a d h, fun _ _ k ↦ by simp at k⟩
  · next e d h =>
    refine ⟨fun _ _ k ↦ by simp at k, fun _ _ k ↦ ?_⟩
    exact (EStateM.Result.error.inj k).2 ▸ (hr c).2 e d h

theorem orNone {r : Reader α} (hr : Forward r) : Forward (Reader.orNone r) := by
  refine of_ok fun c ↦ ?_
  unfold Reader.orNone
  split
  · next a d h => exact ⟨_, d, rfl, (hr c).1 a d h⟩
  · exact ⟨_, c, rfl, .refl _⟩

end Forward

end EntityModels
