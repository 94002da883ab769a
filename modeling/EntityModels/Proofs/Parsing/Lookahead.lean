import EntityModels.Proofs.Parsing.Agreement
import EntityModels.Proofs.Parsing.Outcome

namespace EntityModels

section

variable {α β : Type}

def Parser.visible (p : Parser α) (s : ParserState) : EStateM.Result Failure Cursor α :=
  match p s with
  | .ok a t => .ok a t.cursor
  | .error e t => .error e t.cursor

theorem Parser.visible_eq_ok {p : Parser α} {s : ParserState} {a : α} {c : Cursor} :
    p.visible s = .ok a c ↔ ∃ t, p s = .ok a t ∧ c = t.cursor := by
  rw [visible]
  cases p s with
  | ok b t => simp [eq_comm, and_assoc]
  | error e t => simp

theorem Parser.visible_eq_error {p : Parser α} {s : ParserState} {e : Failure} {c : Cursor} :
    p.visible s = .error e c ↔ ∃ t, p s = .error e t ∧ c = t.cursor := by
  rw [visible]
  cases p s with
  | ok b t => simp
  | error e' t => simp [eq_comm, and_assoc]

/-- Nothing but what they note tells the parsers apart, and what was noted before is without
effect on either of them. -/
def Parser.Same (p q : Parser α) : Prop :=
  ∀ s t, s.cursor = t.cursor → p.visible s = q.visible t

namespace Parser.Same

variable {p q : Parser α} {s t u : ParserState}

theorem of_ok (h : p.Same q) (hc : s.cursor = t.cursor) {a : α} (hp : p s = .ok a u) :
    ∃ v, q t = .ok a v ∧ u.cursor = v.cursor := by
  have hv := h s t hc
  rw [visible, hp] at hv
  exact visible_eq_ok.1 hv.symm

theorem of_error (h : p.Same q) (hc : s.cursor = t.cursor) {e : Failure} (hp : p s = .error e u) :
    ∃ v, q t = .error e v ∧ u.cursor = v.cursor := by
  have hv := h s t hc
  rw [visible, hp] at hv
  exact visible_eq_error.1 hv.symm

theorem pure (a : α) : Same (pure a) (pure a) := by
  intro s t hc
  rw [visible, visible, pure_apply, pure_apply]
  exact congrArg _ hc

theorem ofReader (r : Reader α) : Same (r : Parser α) r := by
  intro s t hc
  have hlift : (r : Parser α) = Parser.ofReader r := rfl
  rw [visible, visible, hlift, Parser.ofReader, Parser.ofReader, hc]
  cases r t.cursor <;> rfl

theorem bind {f g : α → Parser β} (h : p.Same q) (hf : ∀ a, (f a).Same (g a)) :
    (p >>= f).Same (q >>= g) := by
  intro s t hc
  rw [visible, visible, bind_apply, bind_apply]
  cases hp : p s with
  | ok a u =>
    obtain ⟨v, hq, huv⟩ := h.of_ok hc hp
    rw [hq]
    exact hf a u v huv
  | error e u =>
    obtain ⟨v, hq, huv⟩ := h.of_error hc hp
    rw [hq]
    exact congrArg _ huv

theorem attempt (h : p.Same q) : p.attempt.Same q.attempt := by
  intro s t hc
  rw [visible, visible, Parser.attempt, Parser.attempt]
  cases hp : p s with
  | ok a u =>
    obtain ⟨v, hq, huv⟩ := h.of_ok hc hp
    rw [hq]
    exact congrArg _ huv
  | error e u =>
    obtain ⟨v, hq, huv⟩ := h.of_error hc hp
    rw [hq]
    by_cases hf : e.fatal = true
    · simp only [if_pos hf]
      exact congrArg _ huv
    · simp only [if_neg hf]
      exact congrArg _ hc

end Parser.Same

end

namespace Choice

variable {α : Type}

/-- What the test turns away would be given up. -/
def Sound (choice : Choice α) : Prop :=
  ∀ s, choice.mayStart s.cursor.rest = false →
    ∃ e t, choice.parser s = .error e t ∧ e.fatal = false

theorem sound_of_passes {choice : Choice α}
    (hok : ∀ s a t, choice.parser s = .ok a t → choice.mayStart s.cursor.rest)
    (hfatal : ∀ s e t, choice.parser s = .error e t → e.fatal = true →
      choice.mayStart s.cursor.rest) : choice.Sound := by
  intro s hs
  cases h : choice.parser s with
  | ok a t =>
    rw [hok s a t h] at hs
    cases hs
  | error e t =>
    refine ⟨e, t, rfl, Bool.eq_false_iff.2 fun he ↦ ?_⟩
    rw [hfatal s e t h he] at hs
    cases hs

def untested (choice : Choice α) : Choice α := { choice with mayStart := fun _ ↦ true }

/-- A sound test may be weakened, or left out. -/
theorem tried_same {choice other : Choice α} (hsound : choice.Sound)
    (hweaker : ∀ text, choice.mayStart text → other.mayStart text)
    (hp : choice.parser.Same other.parser) : choice.tried.Same other.tried := by
  intro s t hc
  cases hm : choice.mayStart s.cursor.rest with
  | true =>
    have hm' : other.mayStart t.cursor.rest := hc ▸ hweaker _ hm
    rw [Parser.visible, Parser.visible, tried_eq_attempt hm, tried_eq_attempt hm']
    exact hp.attempt s t hc
  | false =>
    -- the first is turned away where the second, if it is tried, is given up
    obtain ⟨e, u, he, hf⟩ := hsound s hm
    obtain ⟨v, he', -⟩ := hp.of_error hc he
    rw [Parser.visible, Parser.visible, tried_eq_none hm]
    cases hm' : other.mayStart t.cursor.rest with
    | true =>
      rw [tried_eq_attempt hm', Parser.attempt, he']
      simp only [hf]
      exact congrArg _ hc
    | false =>
      rw [tried_eq_none hm']
      exact congrArg _ hc

theorem tried_untested_same {choice : Choice α} (hsound : choice.Sound)
    (hp : choice.parser.Same choice.parser) : choice.tried.Same choice.untested.tried :=
  tried_same hsound (fun _ _ ↦ rfl) hp

variable {K : Type} {kinds : List K} {a b : K → Choice α}

theorem first_same (h : ∀ k ∈ kinds, (a k).tried.Same (b k).tried) :
    (first (kinds.map a)).Same (first (kinds.map b)) := by
  induction kinds with
  | nil => exact .pure none
  | cons k kinds ih =>
    refine (h k List.mem_cons_self).bind fun found ↦ ?_
    cases found with
    | some x => exact .pure (some x)
    | none => exact ih fun l hl ↦ h l (List.mem_cons_of_mem k hl)

theorem firstOr_same (h : ∀ k ∈ kinds, (a k).tried.Same (b k).tried) (expected : String) :
    (firstOr expected (kinds.map a)).Same (firstOr expected (kinds.map b)) := by
  refine (first_same h).bind fun found ↦ ?_
  cases found with
  | some x => exact .pure x
  | none => exact .ofReader _

theorem firstOr_of_none_mayStart {expected : String} {choices : List (Choice α)} {s : ParserState}
    (h : ∀ choice ∈ choices, choice.mayStart s.cursor.rest = false) :
    firstOr expected choices s = .error (s.cursor.mismatch expected) s := by
  rw [firstOr, bind_apply, first_of_untried h]
  rfl

end Choice

theorem collect_same {α : Type} {p q : Parser (Option α)} (hp : Forward p) (hq : Forward q)
    (h : p.Same q) : Parser.Same (collect p hp) (collect q hq) := by
  have hoffset {s t u v : ParserState} (hc : s.cursor = t.cursor) (huv : u.cursor = v.cursor) :
      (HasCursor.offset s < HasCursor.offset u) = (HasCursor.offset t < HasCursor.offset v) := by
    change (s.cursor.position.offset < u.cursor.position.offset) = _
    rw [hc, huv]
    rfl
  intro s
  fun_induction collect p hp s with
  | case1 s e u hs =>
    intro t hc
    obtain ⟨v, ht, huv⟩ := h.of_error hc hs
    rw [Parser.visible, Parser.visible, collect_apply, collect_apply, hs, ht]
    exact congrArg _ huv
  | case2 s u hs =>
    intro t hc
    obtain ⟨v, ht, huv⟩ := h.of_ok hc hs
    rw [Parser.visible, Parser.visible, collect_apply, collect_apply, hs, ht]
    exact congrArg _ huv
  | case3 s a u hs ho as w hw ih =>
    intro t hc
    obtain ⟨v, ht, huv⟩ := h.of_ok hc hs
    have hrest := ih v huv
    rw [Parser.visible, hw] at hrest
    obtain ⟨x, hx, hwx⟩ := Parser.visible_eq_ok.1 hrest.symm
    rw [Parser.visible, Parser.visible, collect_apply, collect_apply, hs, ht]
    simp only [if_pos ho, hw, if_pos (hoffset hc huv ▸ ho), hx, hwx]
  | case4 s a u hs ho e w hw ih =>
    intro t hc
    obtain ⟨v, ht, huv⟩ := h.of_ok hc hs
    have hrest := ih v huv
    rw [Parser.visible, hw] at hrest
    obtain ⟨x, hx, hwx⟩ := Parser.visible_eq_error.1 hrest.symm
    rw [Parser.visible, Parser.visible, collect_apply, collect_apply, hs, ht]
    simp only [if_pos ho, hw, if_pos (hoffset hc huv ▸ ho), hx, hwx]
  | case5 s a u hs ho =>
    intro t hc
    obtain ⟨v, ht, huv⟩ := h.of_ok hc hs
    rw [Parser.visible, Parser.visible, collect_apply, collect_apply, hs, ht]
    simp only [if_neg ho, if_neg (hoffset hc huv ▸ ho), huv]

end EntityModels
