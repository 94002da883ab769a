import EntityModels.Proofs.Parsing.Outcome
import EntityModels.Proofs.Parsing.Triple

namespace EntityModels

/-- Every failure of the reading has the property. -/
def FailsWith {σ α : Type} (Q : Failure → Prop) (p : EStateM Failure σ α) : Prop :=
  ∀ s e t, p s = .error e t → Q e

namespace FailsWith

section

variable {σ α β : Type} {Q : Failure → Prop}

theorem of_ok {p : EStateM Failure σ α} (h : ∀ s, ∃ a t, p s = .ok a t) : FailsWith Q p := by
  intro s e t hs
  obtain ⟨a, u, hu⟩ := h s
  rw [hu] at hs
  cases hs

theorem pure (a : α) : FailsWith Q (pure a : EStateM Failure σ α) := .of_ok fun s ↦ ⟨a, s, rfl⟩

theorem bind {p : EStateM Failure σ α} {f : α → EStateM Failure σ β} (hp : FailsWith Q p)
    (hf : ∀ a, FailsWith Q (f a)) : FailsWith Q (p >>= f) := by
  intro s e u h
  rcases bind_error h with h | ⟨a, t, -, h⟩
  · exact hp s e u h
  · exact hf a t e u h

theorem ite {b : Bool} {p q : EStateM Failure σ α} (hp : FailsWith Q p) (hq : FailsWith Q q) :
    FailsWith Q (if b then p else q) := by
  cases b
  · exact hq
  · exact hp

end

variable {α : Type} {Q : Failure → Prop}

theorem position : FailsWith Q Reader.position := .of_ok fun c ↦ ⟨c.position, c, rfl⟩

theorem next? : FailsWith Q Reader.next? := .of_ok fun c ↦ ⟨c.next?, c, rfl⟩

theorem takeWhile (test : Char → Bool) : FailsWith Q (Reader.takeWhile test) :=
  .of_ok fun _ ↦ ⟨_, _, rfl⟩

theorem literal (text : String) : FailsWith Q (Reader.literal text) := by
  refine .of_ok fun c ↦ ?_
  unfold Reader.literal
  split
  · exact ⟨_, _, rfl⟩
  · exact ⟨_, _, rfl⟩

theorem mismatch {expected : String} (h : ∀ c, Q (Cursor.mismatch c expected)) :
    FailsWith Q (Reader.mismatch expected : Reader α) := by
  intro c e d hr
  cases hr
  exact h c

theorem unterminated (h : ∀ c, Q (Cursor.unterminated c)) :
    FailsWith Q (Reader.unterminated : Reader α) := by
  intro c e d hr
  cases hr
  exact h c

theorem rewindUnless {good : α → Bool} {r : Reader α} (hr : FailsWith Q r) :
    FailsWith Q (Reader.rewindUnless good r) := by
  intro c e d h
  unfold Reader.rewindUnless at h
  split at h
  · cases h
  · next hc =>
    cases h
    exact hr c e d hc

theorem committedIf {b : Bool} {r : Reader α} (hr : FailsWith Q r) (h : ∀ e, Q e → Q e.toFatal) :
    FailsWith Q (Reader.committedIf b r) := by
  intro c e d hc
  unfold Reader.committedIf at hc
  split at hc
  · cases hc
  · next e' d' hr' =>
    have he := hr c e' d' hr'
    cases hc
    cases b
    · exact he
    · exact h _ he

theorem orNone (r : Reader α) : FailsWith Q (Reader.orNone r) := by
  refine .of_ok fun c ↦ ?_
  unfold Reader.orNone
  split
  · exact ⟨_, _, rfl⟩
  · exact ⟨_, _, rfl⟩

theorem collect {p : Reader (Option α)} (h : Forward p) (hp : FailsWith Q p) :
    FailsWith Q (collect p h) := by
  intro c
  fun_induction EntityModels.collect p h c with
  | case1 c e d hc =>
    intro err u hu
    cases hu
    exact hp c e d hc
  | case2 | case3 | case5 =>
    intro err u hu
    cases hu
  | case4 c a d hc _ e u hu ih =>
    intro err v hv
    cases hv
    exact ih e u hu

theorem ofReader {r : Reader α} (hr : FailsWith Q r) : FailsWith Q (r : Parser α) :=
  fun s _ _ h ↦ hr s.cursor _ _ (Parser.ofReader_error h)

end FailsWith

section

variable {α β : Type} {Q : Failure → Prop}

structure Parser.NotesOnly (Q : Failure → Prop) (p : Parser α) : Prop where
  ok : ∀ s a t, p s = .ok a t → s.Notes Q → t.Notes Q
  error : ∀ s e t, p s = .error e t → s.Notes Q → Q e ∧ t.Notes Q

namespace Parser.NotesOnly

/-- This is a triple that says nothing about cursors. -/
theorem iff_triple {p : Parser α} :
    NotesOnly Q p ↔ Triple Q (fun _ ↦ True) p fun _ _ ↦ True :=
  ⟨fun h ↦ ⟨fun s a t ht _ hs ↦ ⟨trivial, h.ok s a t ht hs⟩, fun s e t ht _ ↦ h.error s e t ht⟩,
    fun h ↦ ⟨fun s a t ht hs ↦ (h.ok s a t ht trivial hs).2,
      fun s e t ht ↦ h.error s e t ht trivial⟩⟩

theorem pure (a : α) : NotesOnly Q (pure a : Parser α) := iff_triple.2 (.pure fun _ _ ↦ trivial)

theorem ofReader {r : Reader α} (hr : FailsWith Q r) : NotesOnly Q (r : Parser α) :=
  iff_triple.2 (.ofReader (fun _ _ _ _ _ ↦ trivial) fun c e d h _ ↦ hr c e d h)

theorem bind {p : Parser α} {f : α → Parser β} (hp : NotesOnly Q p)
    (hf : ∀ a, NotesOnly Q (f a)) : NotesOnly Q (p >>= f) :=
  iff_triple.2 ((iff_triple.1 hp).bind fun a ↦ iff_triple.1 (hf a))

theorem attempt {p : Parser α} (hp : NotesOnly Q p) : NotesOnly Q p.attempt :=
  iff_triple.2 ((iff_triple.1 hp).attempt.mono (fun _ h ↦ h) fun _ _ _ ↦ trivial)

theorem stuck {failure : Cursor → Failure} (h : ∀ c, Q (failure c)) :
    NotesOnly Q (stuck failure : Parser α) := iff_triple.2 (.stuck fun c _ ↦ h c)

end Parser.NotesOnly

namespace Choice

theorem tried_notesOnly {choice : Choice α} (h : choice.parser.NotesOnly Q) :
    choice.tried.NotesOnly Q := by
  have hchoice := Parser.NotesOnly.iff_triple.1 h
  have htried : Parser.Triple Q (fun _ ↦ True) choice.tried
      (Parser.OrStays (fun _ ↦ True) fun _ _ ↦ True) :=
    tried_triple (hchoice.mono (fun _ _ ↦ trivial) fun _ _ h ↦ h)
  exact Parser.NotesOnly.iff_triple.2 (htried.mono (fun _ h ↦ h) fun _ _ _ ↦ trivial)

theorem firstOr_notesOnly {expected : String} {choices : List (Choice α)}
    (h : ∀ choice ∈ choices, choice.parser.NotesOnly Q)
    (hm : ∀ c, Q (Cursor.mismatch c expected)) : (firstOr expected choices).NotesOnly Q := by
  refine Parser.NotesOnly.iff_triple.2 (firstOr_triple (fun choice hc ↦ ?_) fun c _ ↦ hm c)
  exact (Parser.NotesOnly.iff_triple.1 (h choice hc)).mono (fun _ _ ↦ trivial) fun _ _ h ↦ h

end Choice

end

end EntityModels
