import EntityModels.Parsing.Choice

namespace EntityModels

section

variable {α β : Type}

theorem bind_ok {σ : Type} {p : EStateM Failure σ α} {f : α → EStateM Failure σ β} {s u : σ} {b : β}
    (h : (p >>= f) s = .ok b u) : ∃ a t, p s = .ok a t ∧ f a t = .ok b u := by
  rw [bind_apply] at h
  cases hp : p s with
  | ok a t =>
    rw [hp] at h
    exact ⟨a, t, rfl, h⟩
  | error e t =>
    rw [hp] at h
    cases h

theorem bind_of_ok {σ : Type} {p : EStateM Failure σ α} {s t : σ} {a : α} (h : p s = .ok a t)
    (f : α → EStateM Failure σ β) : (p >>= f) s = f a t := by
  rw [bind_apply, h]

theorem bind_of_error {σ : Type} {p : EStateM Failure σ α} {s t : σ} {e : Failure}
    (h : p s = .error e t) (f : α → EStateM Failure σ β) : (p >>= f) s = .error e t := by
  rw [bind_apply, h]

theorem bind_error {σ : Type} {p : EStateM Failure σ α} {f : α → EStateM Failure σ β} {s u : σ}
    {e : Failure} (h : (p >>= f) s = .error e u) :
    p s = .error e u ∨ ∃ a t, p s = .ok a t ∧ f a t = .error e u := by
  rw [bind_apply] at h
  cases hp : p s with
  | ok a t =>
    rw [hp] at h
    exact .inr ⟨a, t, rfl, h⟩
  | error e' t =>
    rw [hp] at h
    cases h
    exact .inl rfl

theorem bind_pure_error {σ : Type} {p : EStateM Failure σ α} {f : α → β} {s u : σ} {e : Failure}
    (h : (do return f (← p) : EStateM Failure σ β) s = .error e u) : p s = .error e u := by
  rcases bind_error h with h | ⟨a, t, -, h⟩
  · exact h
  · cases h

theorem position_apply (s : ParserState) :
    (Reader.position : Parser Position) s = .ok s.cursor.position s := rfl

theorem pure_apply (a : α) (s : ParserState) : (pure a : Parser α) s = .ok a s := rfl

theorem map_apply {σ : Type} (f : α → β) (p : EStateM Failure σ α) (s : σ) :
    (f <$> p) s = match p s with
      | .ok a t => .ok (f a) t
      | .error e t => .error e t := by
  change EStateM.map f p s = _
  unfold EStateM.map
  cases p s <;> rfl

theorem Forward.leads {α : Type} {r : Reader α} (hr : Forward r) {c d : Cursor} {a : α}
    (h : r c = .ok a d) : c.LeadsTo d := (hr c).1 a d h

theorem Cursor.LeadsTo.eq_past {c d : Cursor} {text : List Char} (h : c.LeadsTo d)
    (ht : c.rest = text ++ d.rest) : d = c.past text d.rest := by
  obtain ⟨moved, hm, hp⟩ := h
  obtain rfl : moved = text := List.append_cancel_right (hm.symm.trans ht)
  simp [Cursor.past, ← hp]

theorem Cursor.past_past (c : Cursor) (s t mid rest : List Char) :
    (c.past s mid).past t rest = c.past (s ++ t) rest := by
  simp [past]

theorem Cursor.LeadsTo.offset_le {c d : Cursor} (h : c.LeadsTo d) :
    c.position.offset ≤ d.position.offset := by
  obtain ⟨text, -, hp⟩ := h
  rw [hp, Position.after_offset]
  exact Nat.le_add_right _ _

theorem Cursor.LeadsTo.offset_lt {c d : Cursor} (h : c.LeadsTo d)
    (hl : d.rest.length < c.rest.length) : c.position.offset < d.position.offset := by
  obtain ⟨text, hr, hp⟩ := h
  cases text with
  | nil =>
    rw [hr] at hl
    exact absurd hl (Nat.lt_irrefl _)
  | cons x text =>
    have := x.utf8Size_pos
    rw [hp, Position.after_offset, byteLength_cons]
    omega

end

def Reader.value? {α : Type} (r : Reader α) (c : Cursor) : Option α :=
  match r c with
  | .ok a _ => some a
  | .error _ _ => none

theorem Reader.value?_of_ok {α : Type} {r : Reader α} {c d : Cursor} {a : α} (h : r c = .ok a d) :
    r.value? c = some a := by
  rw [value?, h]

theorem Reader.ok_of_value? {α : Type} {r : Reader α} {c : Cursor} {a : α}
    (h : r.value? c = some a) : ∃ d, r c = .ok a d := by
  unfold value? at h
  split at h
  · next d hr =>
    cases h
    exact ⟨d, hr⟩
  · cases h

/-- Of an alternative what settles the choice: a result, or a failure that cannot be given up. -/
def Reader.settled {α : Type} (mayStart : List Char → Bool) (r : Reader α) (c : Cursor) :
    Option (Except Failure (α × Cursor)) :=
  if mayStart c.rest then
    match r c with
    | .ok a d => some (.ok (a, d))
    | .error e _ => if e.fatal then some (.error e) else none
  else none

/-- The state in which a reading ends, whether it fails or not. -/
def stateBehind {σ α : Type} (p : EStateM Failure σ α) (s : σ) : σ :=
  match p s with
  | .ok _ t => t
  | .error _ t => t

theorem Forward.stateBehind {σ α : Type} [HasCursor σ] {p : EStateM Failure σ α} (h : Forward p)
    (s : σ) : (HasCursor.cursor s).LeadsTo (HasCursor.cursor (stateBehind p s)) := by
  unfold EntityModels.stateBehind
  cases hs : p s with
  | ok a t => exact (h s).1 a t hs
  | error e t => exact (h s).2 e t hs

def Parser.outcome {α : Type} (p : Parser α) (s : ParserState) : Except Failure (α × Cursor) :=
  match p s with
  | .ok a t => .ok (a, t.cursor)
  | .error e _ => .error e

theorem Parser.outcome_eq_error_iff {α : Type} {p : Parser α} {s : ParserState} {e : Failure} :
    p.outcome s = .error e ↔ ∃ t, p s = .error e t := by
  unfold outcome
  cases p s with
  | ok a t => simp
  | error e' t => simp

namespace Parser

variable {α β : Type} {p : Parser α} {s t : ParserState}

theorem ofReader_ok {r : Reader α} {a : α} (h : (r : Parser α) s = .ok a t) :
    r s.cursor = .ok a t.cursor := by
  change ofReader r s = _ at h
  unfold ofReader at h
  split at h
  · next hr =>
    cases h
    exact hr
  · cases h

theorem ofReader_error {r : Reader α} {e : Failure} (h : (r : Parser α) s = .error e t) :
    r s.cursor = .error e t.cursor := by
  change ofReader r s = _ at h
  unfold ofReader at h
  split at h
  · cases h
  · next hr =>
    cases h
    exact hr

theorem attempt_some {a : α} (h : p.attempt s = .ok (some a) t) : p s = .ok a t := by
  unfold attempt at h
  split at h
  · next hp =>
    cases h
    exact hp
  · split at h <;> cases h

theorem attempt_none (h : p.attempt s = .ok none t) :
    t.cursor = s.cursor ∧ ∃ e u, p s = .error e u ∧ e.fatal = false := by
  unfold attempt at h
  split at h
  · cases h
  · next e u hp =>
    split at h
    · cases h
    · next hf =>
      cases h
      exact ⟨rfl, e, u, hp, Bool.eq_false_iff.2 hf⟩

theorem attempt_of_error {e : Failure} (h : p s = .error e t) (he : e.fatal = false) :
    p.attempt s = .ok none (ParserState.record { t with cursor := s.cursor } e) := by
  simp [attempt, h, he]

theorem attempt_error {e : Failure} (h : p.attempt s = .error e t) :
    p s = .error e t ∧ e.fatal = true := by
  unfold attempt at h
  split at h
  · cases h
  · next hp =>
    split at h
    · next hf =>
      cases h
      exact ⟨hp, hf⟩
    · cases h

theorem ofReader_bind (r : Reader α) (k : α → Reader β) :
    ((r >>= k : Reader β) : Parser β) = (r : Parser α) >>= fun a ↦ (k a : Parser β) := by
  have hlift {γ : Type} (q : Reader γ) : (q : Parser γ) = ofReader q := rfl
  funext s
  simp only [hlift, ofReader, bind_apply]
  cases r s.cursor <;> rfl

theorem ofReader_pure (a : α) : ((pure a : Reader α) : Parser α) = pure a := rfl

theorem ofReader_of_ok {r : Reader α} {a : α} {c : Cursor} (h : r s.cursor = .ok a c) :
    (r : Parser α) s = .ok a { s with cursor := c } := by
  change ofReader r s = _
  rw [ofReader, h]

theorem ofReader_of_error {r : Reader α} {e : Failure} {c : Cursor} (h : r s.cursor = .error e c) :
    (r : Parser α) s = .error e { s with cursor := c } := by
  change ofReader r s = _
  rw [ofReader, h]

def onSome (k : α → Parser β) : Option α → Parser (Option β)
  | some a => some <$> k a
  | none => return none

/-- What follows an alternative that was taken is outside of the attempt, if nothing in it can be
given up. -/
theorem attempt_bind {k : α → Parser β} (hk : ∀ a s e t, k a s = .error e t → e.fatal = true) :
    (p >>= k).attempt = p.attempt >>= onSome k := by
  funext s
  rw [bind_apply]
  unfold attempt
  rw [bind_apply]
  cases p s with
  | error e t => cases hf : e.fatal <;> simp [hf, onSome, pure_apply]
  | ok a t =>
    simp only [onSome, map_apply]
    cases hb : k a t with
    | error e u => simp [hk a t e u hb]
    | ok b u => rfl

end Parser

namespace Choice

variable {α : Type} {choice : Choice α} {choices : List (Choice α)} {s t : ParserState}

theorem tried_eq_none (h : choice.mayStart s.cursor.rest = false) :
    choice.tried s = .ok none s := by
  unfold tried
  rw [h]
  rfl

theorem tried_eq_attempt (h : choice.mayStart s.cursor.rest) :
    choice.tried s = choice.parser.attempt s := by
  unfold tried
  rw [if_pos h]

theorem tried_some {a : α} (h : choice.tried s = .ok (some a) t) :
    choice.mayStart s.cursor.rest ∧ choice.parser s = .ok a t := by
  cases hm : choice.mayStart s.cursor.rest with
  | true =>
    rw [tried_eq_attempt hm] at h
    exact ⟨rfl, Parser.attempt_some h⟩
  | false =>
    rw [tried_eq_none hm] at h
    cases h

theorem tried_none (h : choice.tried s = .ok none t) : t.cursor = s.cursor := by
  cases hm : choice.mayStart s.cursor.rest with
  | true =>
    rw [tried_eq_attempt hm] at h
    exact (Parser.attempt_none h).1
  | false =>
    rw [tried_eq_none hm] at h
    cases h
    rfl

theorem tried_error {e : Failure} (h : choice.tried s = .error e t) :
    choice.parser s = .error e t ∧ e.fatal = true := by
  cases hm : choice.mayStart s.cursor.rest with
  | true =>
    rw [tried_eq_attempt hm] at h
    exact Parser.attempt_error h
  | false =>
    rw [tried_eq_none hm] at h
    cases h

theorem first_some {a : α} (h : first choices s = .ok (some a) t) :
    ∃ choice ∈ choices, ∃ s', s'.cursor = s.cursor ∧ choice.mayStart s.cursor.rest ∧
      choice.parser s' = .ok a t := by
  induction choices generalizing s with
  | nil => cases h
  | cons choice choices ih =>
    rw [first, bind_apply] at h
    cases hr : choice.tried s with
    | error e u => simp [hr] at h
    | ok found u =>
      rw [hr] at h
      cases found with
      | some a' =>
        cases h
        obtain ⟨hm, hp⟩ := tried_some hr
        exact ⟨choice, List.mem_cons_self, s, rfl, hm, hp⟩
      | none =>
        have hu := tried_none hr
        obtain ⟨other, ho, s', hs, hm, hp⟩ := ih h
        rw [hu] at hs hm
        exact ⟨other, List.mem_cons_of_mem choice ho, s', hs, hm, hp⟩

theorem first_of_untried (h : ∀ choice ∈ choices, choice.mayStart s.cursor.rest = false) :
    first choices s = .ok none s := by
  induction choices with
  | nil => rfl
  | cons choice choices ih =>
    rw [first, bind_apply, tried_eq_none (h choice List.mem_cons_self)]
    exact ih fun other ho ↦ h other (List.mem_cons_of_mem choice ho)

theorem first_of_only {K : Type} {choice : K → Choice α} {kinds : List K} {k : K} (hk : k ∈ kinds)
    (hnodup : kinds.Nodup)
    (hother : ∀ l ∈ kinds, l ≠ k → (choice l).mayStart s.cursor.rest = false)
    (htried : (choice k).tried s = .ok none t) : first (kinds.map choice) s = .ok none t := by
  have hc := tried_none htried
  induction kinds with
  | nil => cases hk
  | cons l kinds ih =>
    obtain ⟨hl, hnodup⟩ := List.nodup_cons.1 hnodup
    rw [List.map_cons, first, bind_apply]
    by_cases hlk : l = k
    · subst hlk
      rw [htried]
      apply first_of_untried
      intro other ho
      obtain ⟨m, hm, rfl⟩ := List.mem_map.1 ho
      rw [hc]
      exact hother m (.tail l hm) fun he ↦ hl (he ▸ hm)
    · rw [tried_eq_none (hother l List.mem_cons_self hlk)]
      exact ih ((List.mem_cons.1 hk).resolve_left (Ne.symm hlk)) hnodup
        fun m hm ↦ hother m (.tail l hm)

theorem firstOr_ok {expected : String} {a : α} (h : firstOr expected choices s = .ok a t) :
    ∃ choice ∈ choices, ∃ s', s'.cursor = s.cursor ∧ choice.mayStart s.cursor.rest ∧
      choice.parser s' = .ok a t := by
  rw [firstOr, bind_apply] at h
  cases hr : first choices s with
  | error e u => simp [hr] at h
  | ok found u =>
    rw [hr] at h
    cases found with
    | some a' =>
      cases h
      exact first_some hr
    | none => cases h

/-- A choice fails only where one of its alternatives fails for good. -/
theorem first_error {e : Failure} (h : first choices s = .error e t) :
    e.fatal = true ∧ ∃ choice ∈ choices, ∃ s', s'.cursor = s.cursor ∧
      choice.mayStart s.cursor.rest ∧ choice.parser s' = .error e t := by
  induction choices generalizing s with
  | nil => cases h
  | cons choice choices ih =>
    rw [first, bind_apply] at h
    cases hr : choice.tried s with
    | error e' u =>
      rw [hr] at h
      cases h
      obtain ⟨hp, hf⟩ := tried_error hr
      cases hm : choice.mayStart s.cursor.rest with
      | true => exact ⟨hf, choice, List.mem_cons_self, s, rfl, hm, hp⟩
      | false =>
        rw [tried_eq_none hm] at hr
        cases hr
    | ok found u =>
      rw [hr] at h
      cases found with
      | some a => cases h
      | none =>
        have hu := tried_none hr
        obtain ⟨hf, other, ho, s', hs, hm, hp⟩ := ih h
        rw [hu] at hs hm
        exact ⟨hf, other, List.mem_cons_of_mem choice ho, s', hs, hm, hp⟩

theorem first_value {K : Type} {kinds : List K} {choice : K → Choice α} {reader : K → Reader α}
    (hreader : ∀ k, (choice k).parser = (reader k : Parser α)) {found : Option α}
    (h : first (kinds.map choice) s = .ok found t) : found = kinds.findSome? fun k ↦
      if (choice k).mayStart s.cursor.rest then (reader k).value? s.cursor else none := by
  induction kinds generalizing s with
  | nil =>
    cases h
    rfl
  | cons k kinds ih =>
    rw [List.map_cons, first, bind_apply] at h
    rw [List.findSome?_cons]
    cases hr : (choice k).tried s with
    | error e u => simp [hr] at h
    | ok here u =>
      rw [hr] at h
      cases here with
      | some a =>
        obtain ⟨hm, hp⟩ := tried_some hr
        rw [hreader] at hp
        cases h
        rw [if_pos hm, Reader.value?_of_ok (Parser.ofReader_ok hp)]
      | none =>
        -- given up or not tried at all: either way the reader has no value to be found
        have hnone : (if (choice k).mayStart s.cursor.rest then (reader k).value? s.cursor
            else none) = none := by
          split
          · next hm =>
            rw [tried_eq_attempt hm, hreader] at hr
            obtain ⟨-, e, v, he, -⟩ := Parser.attempt_none hr
            cases hv : reader k s.cursor with
            | ok a c =>
              rw [Parser.ofReader_of_ok hv] at he
              cases he
            | error e c => rw [Reader.value?, hv]
          · rfl
        have hu := tried_none hr
        rw [hnone, ← hu]
        exact ih h

theorem tried_settled {r : Reader α} (hr : choice.parser = (r : Parser α)) (s : ParserState) :
    match r.settled choice.mayStart s.cursor with
    | some (.ok (a, d)) => ∃ t, choice.tried s = .ok (some a) t ∧ t.cursor = d
    | some (.error e) => ∃ t, choice.tried s = .error e t
    | none => ∃ t, choice.tried s = .ok none t ∧ t.cursor = s.cursor := by
  unfold Reader.settled
  cases hm : choice.mayStart s.cursor.rest with
  | false => exact ⟨s, tried_eq_none hm, rfl⟩
  | true =>
    rw [if_pos rfl, tried_eq_attempt hm, hr]
    have hlift : (r : Parser α) s = Parser.ofReader r s := rfl
    rw [Parser.attempt, hlift, Parser.ofReader]
    cases r s.cursor with
    | ok a d => exact ⟨_, rfl, rfl⟩
    | error e d =>
      simp only
      by_cases hf : e.fatal = true
      · rw [if_pos hf, if_pos hf]
        exact ⟨_, rfl⟩
      · rw [if_neg hf, if_neg hf]
        exact ⟨_, rfl, rfl⟩

/-- A choice comes to what the first alternative does that settles it. -/
theorem firstOr_outcome {K : Type} {choice : K → Choice α} {reader : K → Reader α}
    (hreader : ∀ k, (choice k).parser = (reader k : Parser α)) (expected : String)
    (kinds : List K) (s : ParserState) : (firstOr expected (kinds.map choice)).outcome s =
      (kinds.findSome? fun k ↦ (reader k).settled (choice k).mayStart s.cursor).getD
        (.error (s.cursor.mismatch expected)) := by
  rw [Parser.outcome, firstOr, bind_apply]
  induction kinds generalizing s with
  | nil => rfl
  | cons k kinds ih =>
    have htried := tried_settled (hreader k) s
    rw [List.map_cons, first, bind_apply, List.findSome?_cons]
    cases hs : (reader k).settled (choice k).mayStart s.cursor with
    | some found =>
      rw [hs] at htried
      cases found with
      | ok found =>
        obtain ⟨a, d⟩ := found
        obtain ⟨t, ht, rfl⟩ := htried
        rw [ht]
        rfl
      | error e =>
        obtain ⟨t, ht⟩ := htried
        rw [ht]
        rfl
    | none =>
      rw [hs] at htried
      obtain ⟨t, ht, hc⟩ := htried
      rw [ht, ← hc]
      exact ih t

end Choice

end EntityModels
