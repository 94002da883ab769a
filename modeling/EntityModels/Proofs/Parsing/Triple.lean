import EntityModels.Proofs.Parsing.Outcome

namespace EntityModels

variable {α β : Type} {Q : Failure → Prop}

def ParserState.Notes (Q : Failure → Prop) (s : ParserState) : Prop := ∀ f ∈ s.farthest, Q f

section

variable {s : ParserState} {e : Failure}

theorem ParserState.Notes.record (hs : s.Notes Q) (he : Q e) : (s.record e).Notes Q := by
  intro f hf
  cases hn : s.farthest with
  | none =>
    rw [ParserState.record, hn] at hf
    cases hf
    exact he
  | some g =>
    rw [ParserState.record, hn] at hf
    obtain rfl := Option.some.inj hf
    change Q (if e.Beats g then e else g)
    split
    · exact he
    · exact hs g hn

theorem ParserState.Notes.conclude (hs : s.Notes Q) (he : Q e) :
    Q (s.conclude e).1 ∧ (s.conclude e).2.Notes Q := by
  unfold ParserState.conclude
  split
  · exact ⟨he, hs⟩
  · refine ⟨?_, fun f hf ↦ by cases hf⟩
    cases hn : s.farthest with
    | none => exact he
    | some g =>
      change Q (if g.Beats e then g else e)
      split
      · exact hs g hn
      · exact he

end

namespace Parser

/-- What is noted may have been noted before, with the same property. -/
structure Triple (Q : Failure → Prop) (pre : Cursor → Prop) (p : Parser α)
    (post : α → Cursor → Prop) : Prop where
  ok : ∀ s a t, p s = .ok a t → pre s.cursor → s.Notes Q → post a t.cursor ∧ t.Notes Q
  error : ∀ s e t, p s = .error e t → pre s.cursor → s.Notes Q → Q e ∧ t.Notes Q

/-- What is read if anything is, and otherwise the cursor where it was. -/
def OrStays (pre : Cursor → Prop) (post : α → Cursor → Prop) : Option α → Cursor → Prop
  | some a, c => post a c
  | none, c => pre c

namespace Triple

variable {pre : Cursor → Prop} {post : α → Cursor → Prop}

theorem mono {p : Parser α} {pre' : Cursor → Prop} {post' : α → Cursor → Prop}
    (h : Triple Q pre p post) (hpre : ∀ c, pre' c → pre c) (hpost : ∀ a c, post a c → post' a c) :
    Triple Q pre' p post' := by
  refine ⟨fun s a t ht hs hn ↦ ?_, fun s e t ht hs ↦ h.error s e t ht (hpre _ hs)⟩
  obtain ⟨hc, hnotes⟩ := h.ok s a t ht (hpre _ hs) hn
  exact ⟨hpost a _ hc, hnotes⟩

theorem pure {a : α} (h : ∀ c, pre c → post a c) : Triple Q pre (pure a) post := by
  refine ⟨fun s b t ht hs hn ↦ ?_, fun s e t ht ↦ (by cases ht)⟩
  cases ht
  exact ⟨h _ hs, hn⟩

theorem ofReader {r : Reader α} (hok : ∀ c a d, r c = .ok a d → pre c → post a d)
    (herror : ∀ c e d, r c = .error e d → pre c → Q e) : Triple Q pre (r : Parser α) post := by
  refine ⟨fun s a t ht hs hn ↦ ?_, fun s e t ht hs hn ↦ ?_⟩
  · change Parser.ofReader r s = _ at ht
    unfold Parser.ofReader at ht
    split at ht
    · next c hc =>
      cases ht
      exact ⟨hok _ _ _ hc hs, hn⟩
    · cases ht
  · change Parser.ofReader r s = _ at ht
    unfold Parser.ofReader at ht
    split at ht
    · cases ht
    · next c hc =>
      cases ht
      exact ⟨herror _ _ _ hc hs, hn⟩

theorem bind {mid : β → Cursor → Prop} {p : Parser β} {k : β → Parser α} (hp : Triple Q pre p mid)
    (hk : ∀ b, Triple Q (mid b) (k b) post) : Triple Q pre (p >>= k) post := by
  refine ⟨fun s a u h hs hn ↦ ?_, fun s e u h hs hn ↦ ?_⟩
  · obtain ⟨b, t, ht, hu⟩ := bind_ok h
    obtain ⟨hc, hnotes⟩ := hp.ok s b t ht hs hn
    exact (hk b).ok t a u hu hc hnotes
  · rcases bind_error h with h | ⟨b, t, ht, hu⟩
    · exact hp.error s e u h hs hn
    · obtain ⟨hc, hnotes⟩ := hp.ok s b t ht hs hn
      exact (hk b).error t e u hu hc hnotes

theorem ite {b : Bool} {p q : Parser α} (hp : Triple Q pre p post) (hq : Triple Q pre q post) :
    Triple Q pre (if b then p else q) post := by
  cases b
  · exact hq
  · exact hp

theorem attempt {p : Parser α} (hp : Triple Q pre p post) :
    Triple Q pre p.attempt (OrStays pre post) := by
  refine ⟨fun s found t h hs hn ↦ ?_, fun s e t h ↦ hp.error s e t (attempt_error h).1⟩
  unfold Parser.attempt at h
  split at h
  · next a u hu =>
    cases h
    exact hp.ok s a _ hu hs hn
  · next e u hu =>
    split at h
    · cases h
    · cases h
      obtain ⟨he, hnotes⟩ := hp.error s e u hu hs hn
      exact ⟨hs, ParserState.Notes.record (s := { u with cursor := s.cursor }) hnotes he⟩

theorem stuck {failure : Cursor → Failure} (h : ∀ c, pre c → Q (failure c)) :
    Triple Q pre (stuck failure) post := by
  refine ⟨fun s a t hs ↦ (by cases hs), fun s e t hr hs hn ↦ ?_⟩
  cases hr
  exact hn.conclude (h s.cursor hs)

theorem collect {step : Parser (Option α)} (hs : Forward step)
    (h : Triple Q pre step fun _ ↦ pre) : Triple Q pre (collect step hs) fun _ ↦ pre := by
  refine ⟨fun s ↦ ?_, fun s ↦ ?_⟩
  · fun_induction EntityModels.collect step hs s with
    | case1 | case4 =>
      intro as u hu
      cases hu
    | case2 s t ht | case5 s a t ht =>
      intro as u hu hc hn
      cases hu
      exact h.ok s _ _ ht hc hn
    | case3 s a t ht _ as u hu ih =>
      intro bs v hv hc hn
      cases hv
      obtain ⟨hc', hn'⟩ := h.ok s _ t ht hc hn
      exact ih as _ hu hc' hn'
  · fun_induction EntityModels.collect step hs s with
    | case1 s e t ht =>
      intro err u hu
      cases hu
      exact h.error s e _ ht
    | case2 | case3 | case5 =>
      intro err u hu
      cases hu
    | case4 s a t ht _ e u hu ih =>
      intro err v hv hc hn
      cases hv
      obtain ⟨hc', hn'⟩ := h.ok s _ t ht hc hn
      exact ih e _ hu hc' hn'

end Triple

end Parser

namespace Choice

variable {pre : Cursor → Prop} {post : α → Cursor → Prop}

theorem tried_triple {choice : Choice α}
    (h : Parser.Triple Q (fun c ↦ pre c ∧ choice.mayStart c.rest) choice.parser post) :
    Parser.Triple Q pre choice.tried (Parser.OrStays pre post) := by
  refine ⟨fun s found t ht hs hn ↦ ?_, fun s e t ht hs hn ↦ ?_⟩
  · cases hm : choice.mayStart s.cursor.rest with
    | true =>
      rw [tried_eq_attempt hm] at ht
      obtain ⟨hc, hnotes⟩ := h.attempt.ok s found t ht ⟨hs, hm⟩ hn
      refine ⟨?_, hnotes⟩
      cases found with
      | some a => exact hc
      | none => exact hc.1
    | false =>
      rw [tried_eq_none hm] at ht
      cases ht
      exact ⟨hs, hn⟩
  · cases hm : choice.mayStart s.cursor.rest with
    | true => exact h.error s e t (tried_error ht).1 ⟨hs, hm⟩ hn
    | false =>
      rw [tried_eq_none hm] at ht
      cases ht

theorem firstOr_triple {expected : String} {choices : List (Choice α)}
    (h : ∀ choice ∈ choices,
      Parser.Triple Q (fun c ↦ pre c ∧ choice.mayStart c.rest) choice.parser post)
    (hm : ∀ c, pre c → Q (Cursor.mismatch c expected)) :
    Parser.Triple Q pre (firstOr expected choices) post := by
  have hfirst : Parser.Triple Q pre (first choices) (Parser.OrStays pre post) := by
    induction choices with
    | nil => exact .pure fun _ hc ↦ hc
    | cons choice choices ih =>
      refine (tried_triple (h choice List.mem_cons_self)).bind fun found ↦ ?_
      cases found with
      | some a => exact .pure fun _ hc ↦ hc
      | none => exact ih fun other ho ↦ h other (List.mem_cons_of_mem choice ho)
  refine hfirst.bind fun found ↦ ?_
  cases found with
  | some a => exact .pure fun _ hc ↦ hc
  | none =>
    refine .ofReader (fun c a d hr ↦ (by cases hr)) fun c e d hr hc ↦ ?_
    cases hr
    exact hm c hc

end Choice

end EntityModels
