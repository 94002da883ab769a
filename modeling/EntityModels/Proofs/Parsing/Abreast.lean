import Mathlib.Data.List.Forall2
import Mathlib.Data.Option.Basic
import EntityModels.Proofs.Parsing.Agreement
import EntityModels.Proofs.Parsing.Outcome

namespace EntityModels.Reader

variable {α β γ δ : Type}

/-- Two results that are related with the cursors behind them, or two failures of one weight. -/
inductive Related (post : α → β → Cursor → Cursor → Prop) :
    EStateM.Result Failure Cursor α → EStateM.Result Failure Cursor β → Prop
  | ok {a : α} {b : β} {c d : Cursor} : post a b c d → Related post (.ok a c) (.ok b d)
  | error {e e' : Failure} {c d : Cursor} : e.fatal = e'.fatal →
    Related post (.error e c) (.error e' d)

def Abreast (pre : Cursor → Cursor → Prop) (p : Reader α) (q : Reader β)
    (post : α → β → Cursor → Cursor → Prop) : Prop :=
  ∀ c d, pre c d → Related post (p c) (q d)

namespace Abreast

variable {pre pre' : Cursor → Cursor → Prop} {post post' : α → β → Cursor → Cursor → Prop}
  {p : Reader α} {q : Reader β}

theorem mono (h : Abreast pre p q post) (hpost : ∀ a b c d, post a b c d → post' a b c d) :
    Abreast pre p q post' := by
  intro c d hcd
  have hpq := h c d hcd
  generalize p c = r at hpq
  generalize q d = s at hpq
  cases hpq with
  | ok hr => exact .ok (hpost _ _ _ _ hr)
  | error he => exact .error he

theorem value?_eq {p q : Reader α} (h : Abreast pre p q fun a b _ _ ↦ a = b) {c d : Cursor}
    (hcd : pre c d) : p.value? c = q.value? d := by
  have hpq := h c d hcd
  unfold value?
  generalize p c = r at hpq
  generalize q d = s at hpq
  cases hpq with
  | ok hab => exact congrArg some hab
  | error _ => rfl

theorem of_or (h : Abreast pre p q post) (h' : Abreast pre' p q post) :
    Abreast (fun c d ↦ pre c d ∨ pre' c d) p q post :=
  fun c d hcd ↦ hcd.elim (h c d) (h' c d)

theorem pure {a : α} {b : β} (h : ∀ c d, pre c d → post a b c d) :
    Abreast pre (pure a) (pure b) post := fun c d hcd ↦ .ok (h c d hcd)

theorem position : Abreast pre position position fun _ _ c d ↦ pre c d := fun _ _ hcd ↦ .ok hcd

theorem mismatch (expected expected' : String) :
    Abreast pre (mismatch expected) (mismatch expected') post := fun _ _ _ ↦ .error rfl

theorem throw {e e' : Failure} (h : e.fatal = e'.fatal) :
    Abreast pre (throw e) (throw e') post := fun _ _ _ ↦ .error h

theorem bind {mid : γ → δ → Cursor → Cursor → Prop} {p : Reader γ} {q : Reader δ}
    {k : γ → Reader α} {l : δ → Reader β} (hp : Abreast pre p q mid)
    (hk : ∀ a b, Abreast (mid a b) (k a) (l b) post) : Abreast pre (p >>= k) (q >>= l) post := by
  intro c d hcd
  have hpq := hp c d hcd
  rw [bind_apply, bind_apply]
  generalize p c = r at hpq
  generalize q d = s at hpq
  cases hpq with
  | ok hmid => exact hk _ _ _ _ hmid
  | error he => exact .error he

theorem bindEq {mid : γ → Cursor → Cursor → Prop} {p q : Reader γ} {k : γ → Reader α}
    {l : γ → Reader β} (hp : Abreast pre p q fun a b c d ↦ a = b ∧ mid a c d)
    (hk : ∀ a, Abreast (mid a) (k a) (l a) post) : Abreast pre (p >>= k) (q >>= l) post := by
  refine hp.bind fun a b c d hmid ↦ ?_
  obtain ⟨rfl, hcd⟩ := hmid
  exact hk a c d hcd

theorem ite {p' : Reader α} {q' : Reader β} {b : Bool} (h : b = true → Abreast pre p q post)
    (h' : b = false → Abreast pre p' q' post) :
    Abreast pre (if b then p else p') (if b then q else q') post := by
  cases b with
  | true => exact h rfl
  | false => exact h' rfl

theorem committedIf (h : Abreast pre p q post) (b : Bool) :
    Abreast pre (committedIf b p) (committedIf b q) post := by
  intro c d hcd
  have hpq := h c d hcd
  unfold Reader.committedIf
  generalize p c = r at hpq
  generalize q d = s at hpq
  cases hpq with
  | ok hr => exact .ok hr
  | error he =>
    refine .error ?_
    cases b
    · exact he
    · rfl

/-- What is not good is given back on both sides, and then nothing is left of where it ended. -/
theorem rewindUnless {value : α → β → Prop} {good : α → Bool} {good' : β → Bool}
    (h : Abreast pre p q fun a b c d ↦ value a b ∧ (good a → pre c d))
    (hgood : ∀ a b, value a b → good a = good' b) :
    Abreast pre (rewindUnless good p) (rewindUnless good' q)
      fun a b c d ↦ value a b ∧ pre c d := by
  intro c d hcd
  have hpq := h c d hcd
  unfold Reader.rewindUnless
  generalize p c = r at hpq
  generalize q d = s at hpq
  cases hpq with
  | @ok a b _ _ hr =>
    refine .ok ⟨hr.1, ?_⟩
    rw [← hgood a b hr.1]
    cases ha : good a with
    | true => exact hr.2 ha
    | false => exact hcd
  | error he => exact .error he

theorem orNone {value : α → β → Prop} (h : Abreast pre p q fun a b c d ↦ value a b ∧ pre c d) :
    Abreast pre (orNone p) (orNone q) fun a b c d ↦ Option.Rel value a b ∧ pre c d := by
  intro c d hcd
  have hpq := h c d hcd
  unfold Reader.orNone
  generalize p c = r at hpq
  generalize q d = s at hpq
  cases hpq with
  | ok hr => exact .ok ⟨.some hr.1, hr.2⟩
  | error _ => exact .ok ⟨.none, hcd⟩

/-- Steps that move on wherever they find something find equally many things. -/
theorem collect {value : α → β → Prop} {step : Reader (Option α)} {step' : Reader (Option β)}
    (hs : Forward step) (hs' : Forward step')
    (h : Abreast pre step step' fun a b c d ↦ Option.Rel value a b ∧ pre c d)
    (hmoves : ∀ c a d, step c = .ok (some a) d → HasCursor.offset c < HasCursor.offset d)
    (hmoves' : ∀ c a d, step' c = .ok (some a) d → HasCursor.offset c < HasCursor.offset d) :
    Abreast pre (collect step hs) (collect step' hs')
      fun as bs c d ↦ List.Forall₂ value as bs ∧ pre c d := by
  intro c d hcd
  -- by induction on the length of the first text; the repetitions keep abreast
  induction hn : c.rest.length using Nat.strongRecOn generalizing c d with
  | ind n ih =>
    have hboth := h c d hcd
    rw [collect_apply, collect_apply]
    cases hc : step c with
    | error e t =>
      rw [hc] at hboth
      generalize step' d = s at hboth
      cases hboth with
      | error he => exact .error he
    | ok found t =>
      cases hd : step' d with
      | error e u =>
        rw [hc, hd] at hboth
        cases hboth
      | ok found' u =>
        rw [hc, hd] at hboth
        cases hboth with
        | ok hr =>
          obtain ⟨hfound, htu⟩ := hr
          cases hfound with
          | none => exact .ok ⟨.nil, htu⟩
          | some hab =>
            have hmoved := hmoves c _ t hc
            have hmore := ih _ (hn ▸ ((hs c).1 _ _ hc).length_lt hmoved) t u htu rfl
            simp only [if_pos hmoved, if_pos (hmoves' d _ u hd)]
            generalize EntityModels.collect step hs t = r at hmore
            generalize EntityModels.collect step' hs' u = s at hmore
            cases hmore with
            | ok hr => exact .ok ⟨.cons hab hr.1, hr.2⟩
            | error he => exact .error he

end Abreast

end EntityModels.Reader
