import EntityModels.Proofs.Grammar.Locality
import EntityModels.Proofs.Parsing.Outcome

/-!
What a reader makes of a text, wherever the text stands: a value with a certain property, and a rest
that it leaves for those that come next. The value may have places in it, the property has none.
-/

namespace EntityModels.Reader

variable {α β : Type} {r : Reader α} {k : α → Reader β} {text mid rest : List Char} {P : α → Prop}
  {Q : β → Prop}

def Reads (r : Reader α) (text : List Char) (P : α → Prop) (rest : List Char) : Prop :=
  ∀ p, ∃ a d, r ⟨text, p⟩ = .ok a d ∧ P a ∧ d.rest = rest

/-- The text is refused, and something else may be tried in its place. -/
def Refuses (r : Reader α) (text : List Char) : Prop :=
  ∀ p, ∃ e d, r ⟨text, p⟩ = .error e d ∧ e.fatal = false

namespace Reads

theorem exact (h : r.Reads (text ++ rest) P rest) (hr : Forward r) {c : Cursor}
    (hc : c.rest = text ++ rest) : ∃ a, r c = .ok a (c.past text rest) ∧ P a := by
  obtain ⟨behind, p⟩ := c
  obtain rfl : behind = text ++ rest := hc
  obtain ⟨a, d, hread, ha, rfl⟩ := h p
  have hd := (hr.leads hread).eq_past rfl
  exact ⟨a, hd ▸ hread, ha⟩

theorem exactEq {a : α} (h : r.Reads (text ++ rest) (· = a) rest) (hr : Forward r) {c : Cursor}
    (hc : c.rest = text ++ rest) : r c = .ok a (c.past text rest) := by
  obtain ⟨_, hread, rfl⟩ := h.exact hr hc
  exact hread

theorem pure {a : α} (h : P a) : (pure a : Reader α).Reads text P text :=
  fun p ↦ ⟨a, ⟨text, p⟩, rfl, h, rfl⟩

theorem position : Reader.position.Reads text (fun _ ↦ True) text :=
  fun p ↦ ⟨p, ⟨text, p⟩, rfl, trivial, rfl⟩

theorem mono {P' : α → Prop} (h : r.Reads text P rest) (hP : ∀ a, P a → P' a) :
    r.Reads text P' rest := by
  intro p
  obtain ⟨a, d, hr, ha, hd⟩ := h p
  exact ⟨a, d, hr, hP a ha, hd⟩

theorem bind (h : r.Reads text P mid) (hk : ∀ a, P a → (k a).Reads mid Q rest) :
    (r >>= k).Reads text Q rest := by
  intro p
  obtain ⟨a, d, hr, ha, rfl⟩ := h p
  obtain ⟨b, e, hb, hQ, he⟩ := hk a ha d.position
  refine ⟨b, e, ?_, hQ, he⟩
  rw [bind_apply, hr]
  exact hb

theorem bindEq {a : α} (h : r.Reads text (· = a) mid) (hk : (k a).Reads mid Q rest) :
    (r >>= k).Reads text Q rest :=
  h.bind fun _ ha ↦ ha ▸ hk

theorem bindRefuses (h : r.Reads text P mid) (hk : ∀ a, P a → (k a).Refuses mid) :
    (r >>= k).Refuses text := by
  intro p
  obtain ⟨a, d, hr, ha, rfl⟩ := h p
  obtain ⟨e, d', hb, hf⟩ := hk a ha d.position
  refine ⟨e, d', ?_, hf⟩
  rw [bind_apply, hr]
  exact hb

theorem kept {good : α → Bool} (h : r.Reads text P rest) (hgood : ∀ a, P a → good a = true) :
    (rewindUnless good r).Reads text P rest := by
  intro p
  obtain ⟨a, d, hr, ha, hd⟩ := h p
  refine ⟨a, d, ?_, ha, hd⟩
  rw [rewindUnless, hr]
  simp only [hgood a ha, if_true]

theorem givenBack {good : α → Bool} (h : r.Reads text P mid) (hgood : ∀ a, P a → good a = false) :
    (rewindUnless good r).Reads text P text := by
  intro p
  obtain ⟨a, d, hr, ha, -⟩ := h p
  refine ⟨a, ⟨text, p⟩, ?_, ha, rfl⟩
  rw [rewindUnless, hr]
  simp [hgood a ha]

theorem committedIf (h : r.Reads text P rest) (b : Bool) :
    (committedIf b r).Reads text P rest := by
  intro p
  obtain ⟨a, d, hr, ha, hd⟩ := h p
  refine ⟨a, d, ?_, ha, hd⟩
  rw [Reader.committedIf, hr]

theorem orNone (h : r.Reads text P rest) :
    (orNone r).Reads text (fun found ↦ ∃ a, found = some a ∧ P a) rest := by
  intro p
  obtain ⟨a, d, hr, ha, hd⟩ := h p
  refine ⟨some a, d, ?_, ⟨a, rfl, ha⟩, hd⟩
  rw [Reader.orNone, hr]

end Reads

namespace Refuses

theorem bind (h : r.Refuses text) : (r >>= k).Refuses text := by
  intro p
  obtain ⟨e, d, hr, hf⟩ := h p
  refine ⟨e, d, ?_, hf⟩
  rw [bind_apply, hr]

theorem orNone (h : r.Refuses text) : (orNone r).Reads text (· = none) text := by
  intro p
  obtain ⟨e, d, hr, -⟩ := h p
  refine ⟨none, ⟨text, p⟩, ?_, rfl, rfl⟩
  rw [Reader.orNone, hr]

end Refuses

section

variable {step : Reader (Option α)} {hs : Forward step}

theorem Reads.collectDone (h : step.Reads text (· = none) rest) :
    Reads (collect step hs) text (· = []) rest := by
  intro p
  obtain ⟨found, d, hr, rfl, hd⟩ := h p
  refine ⟨[], d, ?_, rfl, hd⟩
  rw [collect_apply, hr]

theorem Reads.collectCons {Q : List α → Prop}
    (h : step.Reads text (fun found ↦ ∃ a, found = some a ∧ P a) mid)
    (hlt : mid.length < text.length) (hrest : Reads (collect step hs) mid Q rest) :
    Reads (collect step hs) text (fun as ↦ ∃ a as', as = a :: as' ∧ P a ∧ Q as') rest := by
  intro p
  obtain ⟨found, d, hr, ⟨a, rfl, ha⟩, rfl⟩ := h p
  obtain ⟨as, e, has, hQ, he⟩ := hrest d.position
  have hoffset : HasCursor.offset (Cursor.mk text p) < HasCursor.offset d :=
    Cursor.LeadsTo.offset_lt ((hs ⟨text, p⟩).1 _ _ hr) hlt
  have has' : collect step hs d = .ok as e := has
  refine ⟨a :: as, e, ?_, ⟨a, as, rfl, ha, hQ⟩, he⟩
  rw [collect_apply, hr]
  simp only [if_pos hoffset, has']

end

theorem Reads.value? (h : r.Reads text P rest) : ∃ a, r.value? (.ofText text) = some a ∧ P a := by
  obtain ⟨a, d, hr, ha, -⟩ := h .start
  exact ⟨a, value?_of_ok hr, ha⟩

end EntityModels.Reader

namespace EntityModels.Choice

variable {α : Type} {choice : Choice α} {r : Reader α} {s : ParserState}

theorem tried_of_passes (hr : choice.parser = (r : Parser α))
    (h : choice.mayStart s.cursor.rest = false ∨ r.Refuses s.cursor.rest) :
    ∃ t, choice.tried s = .ok none t ∧ t.cursor = s.cursor := by
  cases hm : choice.mayStart s.cursor.rest with
  | false => exact ⟨s, tried_eq_none hm, rfl⟩
  | true =>
    rw [hm] at h
    obtain ⟨e, d, hd, hf⟩ := (h.resolve_left (by simp)) s.cursor.position
    have hparser : choice.parser s = .error e { s with cursor := d } := by
      rw [hr]
      change Parser.ofReader r s = _
      rw [Parser.ofReader, hd]
    refine ⟨s.record e, ?_, rfl⟩
    rw [tried_eq_attempt hm, Parser.attempt, hparser]
    simp only [hf]
    rfl

theorem tried_of_reads (hr : choice.parser = (r : Parser α))
    (hm : choice.mayStart s.cursor.rest) {P : α → Prop} {rest : List Char}
    (h : r.Reads s.cursor.rest P rest) : ∃ a t, choice.tried s = .ok (some a) t ∧ P a := by
  obtain ⟨a, d, hd, ha, -⟩ := h s.cursor.position
  have hparser : choice.parser s = .ok a { s with cursor := d } := by
    rw [hr]
    exact Parser.ofReader_of_ok hd
  refine ⟨a, { s with cursor := d }, ?_, ha⟩
  rw [tried_eq_attempt hm, Parser.attempt, hparser]

/-- The first alternative that takes the text is taken. -/
theorem firstOr_reads {K : Type} {choice : K → Choice α} {reader : K → Reader α}
    (hreader : ∀ k, (choice k).parser = (reader k : Parser α)) {before after : List K} {k : K}
    (hbefore : ∀ other ∈ before, (choice other).mayStart s.cursor.rest = false ∨
      (reader other).Refuses s.cursor.rest) (hm : (choice k).mayStart s.cursor.rest)
    {P : α → Prop} {rest : List Char} (h : (reader k).Reads s.cursor.rest P rest)
    (expected : String) :
    ∃ a t, firstOr expected ((before ++ k :: after).map choice) s = .ok a t ∧ P a := by
  obtain ⟨a, t, ht, ha⟩ :
      ∃ a t, first ((before ++ k :: after).map choice) s = .ok (some a) t ∧ P a := by
    induction before generalizing s with
    | nil =>
      obtain ⟨a, t, ht, ha⟩ := tried_of_reads (hreader k) hm h
      refine ⟨a, t, ?_, ha⟩
      rw [List.nil_append, List.map_cons, first, bind_apply, ht]
      rfl
    | cons other before ih =>
      obtain ⟨t, ht, hc⟩ := tried_of_passes (hreader other) (hbefore other List.mem_cons_self)
      rw [← hc] at hbefore hm h
      obtain ⟨a, u, hu, ha⟩ := ih (fun k hk ↦ hbefore k (.tail other hk)) hm h
      refine ⟨a, u, ?_, ha⟩
      rw [List.cons_append, List.map_cons, first, bind_apply, ht]
      exact hu
  refine ⟨a, t, ?_, ha⟩
  rw [firstOr, bind_apply, ht]
  rfl

end EntityModels.Choice
