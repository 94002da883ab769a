import EntityModels.Proofs.Parsing.Agreement
import EntityModels.Proofs.Parsing.Triple

namespace EntityModels

def Cursor.shown (c : Cursor) : Cause → String
  | .invalidInteger => "`" ++ String.ofList (c.rest.takeWhile isIdentChar) ++ "`"
  | _ => c.describe

/-- The failure stands at the cursor and shows what is found there. -/
structure Failure.IsAt (e : Failure) (c : Cursor) : Prop where
  position : e.position = c.position
  found : e.found = c.shown e.cause

/-- The failure stands further along the line of the cursor. -/
def Failure.IsAlong (e : Failure) (c : Cursor) : Prop := ∃ d, c.LeadsAlong d ∧ e.IsAt d

section

variable {c d : Cursor} {e : Failure}

theorem Failure.IsAt.mismatch (c : Cursor) (expected : String) : (c.mismatch expected).IsAt c :=
  ⟨rfl, rfl⟩

theorem Failure.IsAt.unterminated (c : Cursor) : c.unterminated.IsAt c := ⟨rfl, rfl⟩

theorem Failure.IsAt.toFatal (h : e.IsAt c) : e.toFatal.IsAt c := ⟨h.position, h.found⟩

theorem Failure.IsAt.isAlong (h : e.IsAt c) : e.IsAlong c := ⟨c, .refl c, h⟩

theorem Failure.IsAlong.before (h : e.IsAlong d) (hd : c.LeadsAlong d) : e.IsAlong c := by
  obtain ⟨b, hb, he⟩ := h
  exact ⟨b, hd.trans hb, he⟩

theorem Failure.IsAlong.toFatal (h : e.IsAlong c) : e.toFatal.IsAlong c := by
  obtain ⟨b, hb, he⟩ := h
  exact ⟨b, hb, he.toFatal⟩

theorem Failure.IsAlong.line (h : e.IsAlong c) : e.location.line = c.position.line := by
  obtain ⟨b, ⟨text, hn, -, hp⟩, he⟩ := h
  change e.position.line = _
  rw [he.position, hp, Position.after_line, List.count_eq_zero.2 hn]
  rfl

theorem Failure.IsAlong.genuine (h : e.IsAlong c) (hc : c.position.Genuine) :
    e.position.Genuine := by
  obtain ⟨b, ⟨text, -, -, hp⟩, he⟩ := h
  rw [he.position, hp]
  exact hc.after text

theorem Failure.IsAlong.offset_le (h : e.IsAlong c) :
    e.offset ≤ c.position.offset + byteLength (c.rest.takeWhile (· != '\n')) := by
  obtain ⟨b, ⟨text, hn, hr, hp⟩, he⟩ := h
  have hpos : ∀ x ∈ text, (x != '\n') = true := fun x hx ↦ by
    simpa using fun hx' : x = '\n' ↦ hn (hx' ▸ hx)
  change e.position.offset ≤ _
  rw [he.position, hp, Position.after_offset, hr, List.takeWhile_append_of_pos hpos,
    byteLength_append]
  omega

end

namespace Reader

variable {α β : Type}

def FailsAlong (r : Reader α) : Prop := ∀ c e d, r c = .error e d → e.IsAlong c

structure Along (r : Reader α) : Prop where
  leads : ∀ c a d, r c = .ok a d → c.LeadsAlong d
  fails : FailsAlong r

theorem FailsAlong.of_ok {r : Reader α} (h : ∀ c, ∃ a d, r c = .ok a d) : FailsAlong r := by
  intro c e d hr
  obtain ⟨a, d', hr'⟩ := h c
  rw [hr'] at hr
  cases hr

theorem FailsAlong.bind {p : Reader α} {k : α → Reader β} (hp : Along p)
    (hk : ∀ a, FailsAlong (k a)) : FailsAlong (p >>= k) := by
  intro c e d h
  rw [bind_apply] at h
  cases hr : p c with
  | error e' d' =>
    rw [hr] at h
    cases h
    exact hp.fails c e d hr
  | ok a d' =>
    rw [hr] at h
    exact (hk a d' e d h).before (hp.leads c a d' hr)

/-- What comes behind the end of the line cannot fail. -/
theorem FailsAlong.bindOk {p : Reader α} {k : α → Reader β} (hp : FailsAlong p)
    (hk : ∀ a c, ∃ b d, k a c = .ok b d) : FailsAlong (p >>= k) := by
  intro c e d h
  rw [bind_apply] at h
  cases hr : p c with
  | error e' d' =>
    rw [hr] at h
    cases h
    exact hp c e d hr
  | ok a d' =>
    rw [hr] at h
    obtain ⟨b, d'', hb⟩ := hk a d'
    simp only [hb] at h
    cases h

theorem FailsAlong.ite {b : Bool} {p q : Reader α} (hp : FailsAlong p) (hq : FailsAlong q) :
    FailsAlong (if b then p else q) := by
  cases b
  · exact hq
  · exact hp

theorem FailsAlong.unterminated : FailsAlong (unterminated : Reader α) := by
  intro c e d h
  cases h
  exact (Failure.IsAt.unterminated c).isAlong

namespace Along

theorem of_ok {f : α → α} {r q : Reader α} (h : InLine ⟨.start, [], none⟩ f r q)
    (hr : ∀ c, ∃ a d, r c = .ok a d) : Along r := ⟨h.leads, .of_ok hr⟩

theorem pure (a : α) : Along (pure a) := of_ok (f := id) (.pure rfl) fun c ↦ ⟨a, c, rfl⟩

theorem position : Along position := of_ok .position fun c ↦ ⟨c.position, c, rfl⟩

theorem next? : Along next? := of_ok .next? fun c ↦ ⟨c.next?, c, rfl⟩

theorem takeWhile {test : Char → Bool} (h : test '\n' = false) : Along (takeWhile test) :=
  of_ok (.takeWhile h) fun _ ↦ ⟨_, _, rfl⟩

theorem literal {text : String} (h : '\n' ∉ text.toList) : Along (literal text) := by
  refine of_ok (.literal h) fun c ↦ ?_
  unfold Reader.literal
  split
  · exact ⟨_, _, rfl⟩
  · exact ⟨_, _, rfl⟩

theorem mismatch (expected : String) : Along (mismatch expected : Reader α) := by
  refine ⟨fun c a d h ↦ (by cases h), fun c e d h ↦ ?_⟩
  cases h
  exact (Failure.IsAt.mismatch c expected).isAlong

theorem bind {p : Reader α} {k : α → Reader β} (hp : Along p) (hk : ∀ a, Along (k a)) :
    Along (p >>= k) := by
  refine ⟨fun c b e h ↦ ?_, .bind hp fun a ↦ (hk a).fails⟩
  obtain ⟨a, d, hr, hb⟩ := bind_ok h
  exact (hp.leads c a d hr).trans ((hk a).leads d b e hb)

theorem ite {b : Bool} {p q : Reader α} (hp : Along p) (hq : Along q) :
    Along (if b then p else q) := by
  cases b
  · exact hq
  · exact hp

theorem rewindUnless {good : α → Bool} {r : Reader α} (hr : Along r) :
    Along (rewindUnless good r) := by
  refine ⟨fun c a d h ↦ ?_, fun c e d h ↦ ?_⟩
  · unfold Reader.rewindUnless at h
    split at h
    · next b d' hc =>
      cases h
      split
      · exact hr.leads c _ d' hc
      · exact .refl c
    · cases h
  · unfold Reader.rewindUnless at h
    split at h
    · cases h
    · next hc =>
      cases h
      exact hr.fails c e d hc

theorem committedIf {b : Bool} {r : Reader α} (hr : Along r) : Along (committedIf b r) := by
  refine ⟨fun c a d h ↦ ?_, fun c e d h ↦ ?_⟩
  · unfold Reader.committedIf at h
    split at h
    · next hc =>
      cases h
      exact hr.leads c a d hc
    · cases h
  · unfold Reader.committedIf at h
    split at h
    · cases h
    · next e' d' hc =>
      have he := hr.fails c e' d' hc
      cases h
      cases b
      · exact he
      · exact he.toFatal

theorem orNone {r : Reader α} (hr : Along r) : Along (orNone r) := by
  refine ⟨fun c found d h ↦ ?_, .of_ok fun c ↦ ?_⟩
  · unfold Reader.orNone at h
    split at h
    · next hc =>
      cases h
      exact hr.leads c _ d hc
    · cases h
      exact .refl c
  · unfold Reader.orNone
    split
    · exact ⟨_, _, rfl⟩
    · exact ⟨_, _, rfl⟩

theorem collect {r : Reader (Option α)} (hr : Along r) (h : Forward r) : Along (collect r h) := by
  refine ⟨fun c ↦ ?_, fun c ↦ ?_⟩
  · fun_induction EntityModels.collect r h c with
    | case1 | case4 =>
      intro as d hd
      cases hd
    | case2 c e hc =>
      intro as d hd
      cases hd
      exact hr.leads c _ _ hc
    | case3 c a e hc _ as f hf ih =>
      intro bs d hd
      cases hd
      exact (hr.leads c _ e hc).trans (ih as _ hf)
    | case5 c a e hc _ =>
      intro as d hd
      cases hd
      exact hr.leads c _ _ hc
  · fun_induction EntityModels.collect r h c with
    | case1 c e d hc =>
      intro err f hf
      cases hf
      exact hr.fails c e d hc
    | case2 | case3 | case5 =>
      intro err f hf
      cases hf
    | case4 c a d hc _ e f hf ih =>
      intro err g hg
      cases hg
      exact (ih e f hf).before (hr.leads c _ d hc)

end Along

end Reader

/-- What is noted behind the reading was noted before, or stands along the line and left room for
other alternatives. -/
def ParserState.NotesAlong (s t : ParserState) : Prop :=
  ∀ f ∈ t.farthest, f ∈ s.farthest ∨ f.fatal = false ∧ f.IsAlong s.cursor

namespace ParserState.NotesAlong

variable {s t u : ParserState}

theorem of_eq (h : t.farthest = s.farthest) : s.NotesAlong t := fun _ hf ↦ .inl (h ▸ hf)

theorem trans (h : s.NotesAlong t) (hc : t.cursor = s.cursor) (k : t.NotesAlong u) :
    s.NotesAlong u := by
  intro f hf
  rcases k f hf with ht | hline
  · exact h f ht
  · exact .inr (hc ▸ hline)

theorem record (h : s.NotesAlong t) {e : Failure} (hf : e.fatal = false)
    (he : e.IsAlong s.cursor) (c : Cursor) :
    s.NotesAlong (ParserState.record { t with cursor := c } e) := by
  intro f hr
  rw [record_eq] at hr
  cases ht : t.farthest with
  | none =>
    rw [ht] at hr
    cases hr
    exact .inr ⟨hf, he⟩
  | some g =>
    rw [ht] at hr
    change f ∈ some (g.farthest e) at hr
    unfold Failure.farthest at hr
    split at hr
    · cases hr
      exact .inr ⟨hf, he⟩
    · cases hr
      exact h _ ht

end ParserState.NotesAlong

namespace Parser

variable {α β : Type}

/-- All failures of the parser stand along its line, those that it notes and the one that it
returns. -/
structure FailsAlong (p : Parser α) : Prop where
  ok : ∀ s a t, p s = .ok a t → s.NotesAlong t
  error : ∀ s e t, p s = .error e t → s.NotesAlong t ∧ e.IsAlong s.cursor

theorem FailsAlong.pure (a : α) : FailsAlong (pure a : Parser α) := by
  refine ⟨fun s b t h ↦ ?_, fun s e t h ↦ (by cases h)⟩
  cases h
  exact .of_eq rfl

theorem FailsAlong.ofReader {r : Reader α} (hr : r.FailsAlong) : FailsAlong (r : Parser α) := by
  refine ⟨fun s a t h ↦ ?_, fun s e t h ↦ ?_⟩
  · change Parser.ofReader r s = _ at h
    unfold Parser.ofReader at h
    split at h
    · cases h
      exact .of_eq rfl
    · cases h
  · change Parser.ofReader r s = _ at h
    unfold Parser.ofReader at h
    split at h
    · cases h
    · next c hc =>
      cases h
      exact ⟨.of_eq rfl, hr _ _ _ hc⟩

theorem FailsAlong.attempt {p : Parser α} (hp : FailsAlong p) : FailsAlong p.attempt := by
  refine ⟨fun s found t h ↦ ?_, fun s e t h ↦ hp.error s e t (attempt_error h).1⟩
  unfold Parser.attempt at h
  split at h
  · next a u hs =>
    cases h
    exact hp.ok s a _ hs
  · next e u hs =>
    split at h
    · cases h
    · next hf =>
      cases h
      obtain ⟨hnotes, hline⟩ := hp.error s e u hs
      exact hnotes.record (Bool.eq_false_iff.2 hf) hline _

/-- Where the first reading gives the cursor back, the next begins at the same place. -/
theorem FailsAlong.orElse {p : Parser (Option α)} {k : Option α → Parser β} (hp : FailsAlong p)
    (hstays : ∀ s t, p s = .ok none t → t.cursor = s.cursor)
    (hsome : ∀ a t, ∃ b, k (some a) t = .ok b t) (hnone : FailsAlong (k none)) :
    FailsAlong (p >>= k) := by
  refine ⟨fun s b u h ↦ ?_, fun s e u h ↦ ?_⟩
  · obtain ⟨found, t, ht, hk⟩ := bind_ok h
    have hnotes := hp.ok s found t ht
    cases found with
    | some a =>
      obtain ⟨b', hb⟩ := hsome a t
      rw [hb] at hk
      cases hk
      exact hnotes
    | none => exact hnotes.trans (hstays s t ht) (hnone.ok t b u hk)
  · rw [bind_apply] at h
    cases ht : p s with
    | error e' t =>
      rw [ht] at h
      cases h
      exact hp.error s _ _ ht
    | ok found t =>
      rw [ht] at h
      have hnotes := hp.ok s found t ht
      cases found with
      | some a =>
        obtain ⟨b', hb⟩ := hsome a t
        simp only [hb] at h
        cases h
      | none =>
        have hc := hstays s t ht
        obtain ⟨hk, he⟩ := hnone.error t e u h
        exact ⟨hnotes.trans hc hk, hc ▸ he⟩

end Parser

namespace Choice

variable {α : Type}

theorem tried_failsAlong {choice : Choice α} (h : choice.parser.FailsAlong) :
    Parser.FailsAlong choice.tried := by
  refine ⟨fun s found t ht ↦ ?_, fun s e t ht ↦ h.error s e t (tried_error ht).1⟩
  cases hm : choice.mayStart s.cursor.rest with
  | true =>
    rw [tried_eq_attempt hm] at ht
    exact h.attempt.ok s found t ht
  | false =>
    rw [tried_eq_none hm] at ht
    cases ht
    exact .of_eq rfl

theorem first_failsAlong {choices : List (Choice α)} (h : ∀ choice ∈ choices,
    choice.parser.FailsAlong) : Parser.FailsAlong (first choices) := by
  induction choices with
  | nil => exact .pure none
  | cons choice choices ih =>
    refine (tried_failsAlong (h choice List.mem_cons_self)).orElse (fun _ _ ↦ tried_none)
      (fun a _ ↦ ⟨some a, rfl⟩) ?_
    exact ih fun other ho ↦ h other (List.mem_cons_of_mem choice ho)

theorem first_none {choices : List (Choice α)} {s t : ParserState}
    (h : first choices s = .ok none t) : t.cursor = s.cursor := by
  induction choices generalizing s with
  | nil =>
    cases h
    rfl
  | cons choice choices ih =>
    rw [first] at h
    obtain ⟨found, u, hu, h⟩ := bind_ok h
    cases found with
    | some a => cases h
    | none => exact (ih h).trans (tried_none hu)

/-- If the choice leaves room for others, it fails where it began. -/
theorem firstOr_stays {expected : String} {choices : List (Choice α)} {s t : ParserState}
    {e : Failure} (h : firstOr expected choices s = .error e t) (he : e.fatal = false) :
    t.cursor = s.cursor ∧ e = s.cursor.mismatch expected := by
  rcases bind_error h with h | ⟨found, u, hu, h⟩
  · rw [(first_error h).1] at he
    cases he
  · cases found with
    | some a => cases h
    | none =>
      cases h
      rw [← first_none hu]
      exact ⟨rfl, rfl⟩

theorem firstOr_failsAlong (expected : String) {choices : List (Choice α)}
    (h : ∀ choice ∈ choices, choice.parser.FailsAlong) :
    Parser.FailsAlong (firstOr expected choices) :=
  (first_failsAlong h).orElse (fun _ _ ↦ first_none) (fun a _ ↦ ⟨a, rfl⟩)
    (.ofReader (Reader.Along.mismatch expected).fails)

end Choice

def Failure.IsAhead (e : Failure) (c : Cursor) : Prop := ∃ d, c.LeadsTo d ∧ e.IsAt d

section

variable {c d : Cursor} {e : Failure}

theorem Cursor.LeadsAlong.leadsTo (h : c.LeadsAlong d) : c.LeadsTo d := by
  obtain ⟨text, -, hrest, hposition⟩ := h
  exact ⟨text, hrest, hposition⟩

theorem Failure.IsAt.isAhead (h : e.IsAt d) (hd : c.LeadsTo d) : e.IsAhead c := ⟨d, hd, h⟩

theorem Failure.IsAlong.isAhead (h : e.IsAlong d) (hd : c.LeadsTo d) : e.IsAhead c := by
  obtain ⟨b, hb, he⟩ := h
  exact he.isAhead (hd.trans hb.leadsTo)

end

namespace Parser

variable {α : Type} {c : Cursor}

/-- From each place in the text the parser goes on in the text, and all its failures stand there. -/
def FailsAhead (c : Cursor) (p : Parser α) : Prop :=
  Triple (·.IsAhead c) c.LeadsTo p fun _ ↦ c.LeadsTo

theorem FailsAhead.ofReader {r : Reader α} (hr : Forward r) (h : r.FailsAlong) :
    FailsAhead c (r : Parser α) :=
  Triple.ofReader (fun _ _ _ hok hc ↦ hc.trans (hr.leads hok))
    fun b e d herror hc ↦ (h b e d herror).isAhead hc

theorem FailsAhead.firstOr {expected : String} {choices : List (Choice α)}
    (h : ∀ choice ∈ choices, choice.parser.FailsAhead c) :
    FailsAhead c (Choice.firstOr expected choices) :=
  Choice.firstOr_triple
    (fun choice hc ↦ (h choice hc).mono (fun _ hd ↦ hd.1) fun _ _ hd ↦ hd)
    fun d hd ↦ (Failure.IsAt.mismatch d expected).isAhead hd

theorem FailsAhead.of_orStays {p : Parser (Option α)}
    (h : Triple (·.IsAhead c) c.LeadsTo p (OrStays c.LeadsTo fun _ ↦ c.LeadsTo)) :
    FailsAhead c p := by
  refine h.mono (fun _ hd ↦ hd) fun found d hd ↦ ?_
  cases found with
  | some a => exact hd
  | none => exact hd

theorem FailsAhead.attempt {p : Parser α} (h : FailsAhead c p) : FailsAhead c p.attempt :=
  .of_orStays (Triple.attempt h)

theorem FailsAhead.tried {choice : Choice α} (h : choice.parser.FailsAhead c) :
    FailsAhead c choice.tried :=
  .of_orStays (Choice.tried_triple (h.mono (fun _ hd ↦ hd.1) fun _ _ hd ↦ hd))

end Parser

end EntityModels
