import EntityModels.Proofs.Parsing.Outcome

namespace EntityModels

theorem forall_of_collect {σ α : Type} [HasCursor σ] {P : α → Prop}
    {step : EStateM Failure σ (Option α)} {hf : Forward step}
    (h : ∀ s a t, step s = .ok (some a) t → P a) {s t : σ} {as : List α}
    (hs : collect step hf s = .ok as t) : ∀ a ∈ as, P a := by
  fun_induction collect step hf s generalizing as t with
  | case1 | case4 => cases hs
  | case2 | case5 =>
    cases hs
    exact List.forall_mem_nil P
  | case3 s a u hu _ as v hv ih =>
    cases hs
    exact List.forall_mem_cons.2 ⟨h s a u hu, ih hv⟩

namespace Reader

variable {α β : Type}

/-- Everything that the reader returns has the property. -/
def Returns {α : Type} (P : α → Prop) (r : Reader α) : Prop :=
  ∀ c a d, r c = .ok a d → P a

namespace Returns

variable {P : α → Prop} {Q : β → Prop}

theorem pure {b : β} (h : Q b) : Returns Q (pure b) := by
  intro c b' d hr
  cases hr
  exact h

theorem bind {p : Reader α} {k : α → Reader β} (h : ∀ a, Returns Q (k a)) :
    Returns Q (p >>= k) := by
  intro c b d hr
  obtain ⟨a, c', -, hk⟩ := bind_ok hr
  exact h a c' b d hk

theorem andThen {p : Reader α} {k : α → Reader β} (hp : Returns P p)
    (h : ∀ a, P a → Returns Q (k a)) : Returns Q (p >>= k) := by
  intro c b d hr
  obtain ⟨a, c', ha, hk⟩ := bind_ok hr
  exact h a (hp c a c' ha) c' b d hk

theorem ite {b : Bool} {p q : Reader α} (hp : b = true → Returns P p)
    (hq : b = false → Returns P q) : Returns P (if b then p else q) := by
  cases b with
  | true => exact hp rfl
  | false => exact hq rfl

theorem unterminated : Returns P unterminated := by
  intro c a d h
  cases h

theorem takeWhile (test : Char → Bool) :
    Returns (fun text ↦ ∀ c ∈ text, test c) (takeWhile test) := by
  intro c text d h
  cases h
  exact List.all_eq_true.1 List.all_takeWhile

theorem rewindUnless {good : α → Bool} {r : Reader α} (h : Returns P r) :
    Returns P (rewindUnless good r) := by
  intro c a d hr
  unfold Reader.rewindUnless at hr
  split at hr
  · next d' hc =>
    cases hr
    exact h c a d' hc
  · cases hr

theorem committedIf {b : Bool} {r : Reader α} (h : Returns P r) : Returns P (committedIf b r) := by
  intro c a d hr
  unfold Reader.committedIf at hr
  split at hr
  · next d' hc =>
    cases hr
    exact h c a _ hc
  · cases hr

theorem orNone {r : Reader α} (h : Returns P r) :
    Returns (fun found ↦ ∀ a ∈ found, P a) (orNone r) := by
  intro c found d hr
  unfold Reader.orNone at hr
  split at hr
  · next a d' hc =>
    cases hr
    rintro a' ⟨⟩
    exact h c a _ hc
  · cases hr
    rintro a ⟨⟩

theorem collect {step : Reader (Option α)} {hf : Forward step}
    (h : Returns (fun found ↦ ∀ a ∈ found, P a) step) :
    Returns (fun as ↦ ∀ a ∈ as, P a) (collect step hf) :=
  fun _ _ _ hr ↦ forall_of_collect (fun c _ d hs ↦ h c _ d hs _ rfl) hr

end Returns

end Reader

end EntityModels
