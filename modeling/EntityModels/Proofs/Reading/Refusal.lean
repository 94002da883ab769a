import EntityModels.Proofs.Grammar.Failures
import EntityModels.Proofs.Grammar.Words
import EntityModels.Proofs.Reading.Coverage

/-!
Which failure a document is refused with. It is that of the first line the machine is stuck on, as
the line has it alone: what was noted on the lines before got less far than anything on this line,
and no failure stands behind the line that it is about.
-/

namespace EntityModels

/-- Whether the first reading finds anything; if it does not, whether the other does. -/
def Parser.orTakes {α : Type} (p : Parser (Option α)) (q : Parser Bool) : Parser Bool := do
  match ← p with
  | some _ => return true
  | none => q

theorem Parser.orTakes_of_none {α : Type} {p : Parser (Option α)} {s t : ParserState}
    (h : p s = .ok none t) (q : Parser Bool) : p.orTakes q s = q t :=
  bind_of_ok h _

namespace Document

def takesItem (options : Options) : Parser Bool :=
  (gate options).orTakes (Item.lineParser.attempt.orTakes (return false))

/-- Whether a line is taken at all; behind an open entity it may be a member. -/
def takes (options : Options) (opened : Bool) : Parser Bool :=
  if opened then (Member.choice options).tried.orTakes (takesItem options) else takesItem options

end Document

def staysUnlessFound (c : Cursor) (found : Bool) (d : Cursor) : Prop := found = false → d = c

section

variable {α : Type} {place : Place} {p : Parser (Option α)} {q : Parser Bool}

theorem Agrees.orTakes {post : Cursor → Option α → Cursor → Prop} {f : Option α → Option α}
    (hp : Agrees place (·.Fits place) post f p p) (hf : ∀ found, (f found).isSome = found.isSome)
    (hpost : ∀ c d, post c none d → d = c)
    (hq : Agrees place (·.Fits place) staysUnlessFound id q q) :
    Agrees place (·.Fits place) staysUnlessFound id (p.orTakes q) (p.orTakes q) := by
  refine ⟨fun s b u h ↦ ?_, fun s hs ↦ ?_⟩
  · obtain ⟨found, t, ht, hk⟩ := bind_ok h
    cases found with
    | some a =>
      cases hk
      exact fun hb ↦ by cases hb
    | none =>
      intro hb
      exact (hq.leads t b u hk hb).trans (hpost _ _ (hp.leads s none t ht))
  · rw [Parser.orTakes, bind_apply, bind_apply, hp.within s hs]
    cases ht : p s with
    | error e t => rfl
    | ok found t =>
      have hsome := hf found
      cases found with
      | some a =>
        obtain ⟨a', ha⟩ := Option.isSome_iff_exists.1 hsome
        simp only [Place.outcome, ha]
        rfl
      | none =>
        have hnone : f none = none := by simpa using hsome
        have hc := hpost _ _ (hp.leads s none t ht)
        simp only [Place.outcome, hnone]
        exact hq.within t (hc ▸ hs)

theorem Parser.FailsAlong.orTakes (hp : p.FailsAlong)
    (hstays : ∀ s t, p s = .ok none t → t.cursor = s.cursor) (hq : q.FailsAlong) :
    (p.orTakes q).FailsAlong :=
  hp.orElse hstays (fun _ _ ↦ ⟨true, rfl⟩) hq

end

namespace Document

variable (options : Options)

theorem gate_no_error {s t : ParserState} {e : Failure} : gate options s ≠ .error e t := by
  intro h
  rw [gate_apply] at h
  split at h
  · cases h
  · split at h <;> cases h

theorem gate_failsAlong : Parser.FailsAlong (gate options) := by
  refine ⟨fun s found t h ↦ ?_, fun s e t h ↦ absurd h (gate_no_error options)⟩
  rw [gate_apply] at h
  split at h
  · cases h
    exact .of_eq rfl
  · split at h
    · cases h
      exact .of_eq rfl
    · cases h
      exact .of_eq rfl

theorem takes_failsAlong (opened : Bool) : Parser.FailsAlong (takes options opened) := by
  have hitem : Parser.FailsAlong (takesItem options) :=
    (gate_failsAlong options).orTakes
      (fun s t h ↦ congrArg ParserState.cursor ((boundary options).stays s t h)) <|
      Item.lineParser_failsAlong.attempt.orTakes (fun _ _ h ↦ (Parser.attempt_none h).1)
        (.pure false)
  cases opened with
  | false => exact hitem
  | true =>
    exact (Member.tried_failsAlong options).orTakes (fun _ _ h ↦ Choice.tried_none h) hitem

theorem gate_agrees (place : Place) :
    Agrees place (·.Fits place) (fun c found d ↦ found = none → d = c)
      (Option.map (Option.map (Item.mapSpan place.move))) (gate options) (gate options) := by
  refine ⟨fun s found t h hf ↦ ?_, fun s hs ↦ ?_⟩
  · subst hf
    exact congrArg ParserState.cursor ((boundary options).stays s t h)
  · have hw : (s.within place).cursor.rest = s.cursor.rest ++ place.tail := rfl
    change gate options (s.within place) = _
    rw [gate_apply, gate_apply, hw]
    rcases hs.2 with hm | htail
    · have hm' : '\n' ∈ s.cursor.rest := hm
      have hne : s.cursor.rest ≠ [] := List.ne_nil_of_mem hm'
      have hall : s.cursor.rest.all isHorizontalSpace = false := by
        rw [List.all_eq_false]
        exact ⟨_, hm', by simp⟩
      rw [if_neg (by simp [hne]), if_neg (by simp [hall]), if_neg hne, if_neg (by simp [hall])]
      rfl
    · rw [htail, List.append_nil]
      split
      · rfl
      · split
        · have hafter := Position.within_after place.base (p := s.cursor.position) hs.1
            s.cursor.rest
          simp only [Place.outcome, Placeable.within, ParserState.within, Cursor.within, htail,
            ← hafter]
          rfl
        · rfl

theorem takes_agrees (place : Place) (opened : Bool) :
    Agrees place (·.Fits place) staysUnlessFound id (takes options opened)
      (takes options opened) := by
  have hitem : Agrees place (·.Fits place) staysUnlessFound id (takesItem options)
      (takesItem options) := by
    refine (gate_agrees options place).orTakes (fun _ ↦ Option.isSome_map) (fun _ _ h ↦ h rfl) ?_
    refine Item.lineParser_endsLine.attempt.orTakes (fun _ ↦ Option.isSome_map) (fun _ _ h ↦ h) ?_
    exact ⟨fun s b t h _ ↦ (by cases h; rfl), fun s _ ↦ rfl⟩
  cases opened with
  | false => exact hitem
  | true =>
    exact (Member.choice_endsLine options).tried.orTakes (fun _ ↦ Option.isSome_map)
      (fun _ _ h ↦ h) hitem

/-- The failure with which a line is refused when it stands alone, if it is refused. -/
def refusal (opened : Bool) (line : List Char) : Option Failure :=
  match takes options opened (.ofText line) with
  | .error e _ => some e
  | .ok true _ => none
  | .ok false t => some (t.conclude (t.cursor.mismatch Item.expected)).1

variable {options}

theorem conclude_along {opened : Bool} {line : List Char} {t : ParserState}
    (h : takes options opened (.ofText line) = .ok false t) :
    (t.conclude (t.cursor.mismatch Item.expected)).1.IsAlong (.ofText line) ∧
      (t.conclude (t.cursor.mismatch Item.expected)).1.fatal = false := by
  have hnotes := (takes_failsAlong options opened).ok _ _ t h
  have hfits : (Cursor.ofText line).Fits .alone := ⟨Position.genuine_start, .inr rfl⟩
  have hc : t.cursor = .ofText line := (takes_agrees options .alone opened).leads _ _ _ h rfl
  rw [hc]
  have hmismatch := (Failure.IsAt.mismatch (.ofText line) Item.expected).isAlong
  change (t.farthest.elim ((Cursor.ofText line).mismatch Item.expected) _).IsAlong _ ∧
    (t.farthest.elim ((Cursor.ofText line).mismatch Item.expected) _).fatal = false
  cases hf : t.farthest with
  | none => exact ⟨hmismatch, rfl⟩
  | some f =>
    obtain ⟨hfatal, halong⟩ := (hnotes f hf).resolve_left fun hn ↦ by cases hn
    rw [Option.elim_some, Failure.farthest]
    split
    · exact ⟨halong, hfatal⟩
    · exact ⟨hmismatch, rfl⟩

theorem refusal_along {opened : Bool} {line : List Char} {e : Failure}
    (h : refusal options opened line = some e) : e.IsAlong (.ofText line) := by
  unfold refusal at h
  split at h
  · next ht =>
    cases h
    exact ((takes_failsAlong options opened).error _ _ _ ht).2
  · cases h
  · next ht =>
    cases h
    exact (conclude_along ht).1

end Document

theorem Parser.stuck_apply {α : Type} (failure : Cursor → Failure) (s : ParserState) :
    (stuck failure : Parser α) s =
      .error (s.conclude (failure s.cursor)).1 (s.conclude (failure s.cursor)).2 := rfl

theorem Failure.merge_elim {noted : Option Failure} {e : Failure}
    (h : ∀ f ∈ noted, f.offset < e.offset) (found : Option Failure) :
    (merge noted found).elim e e.farthest = found.elim e e.farthest := by
  cases noted with
  | none => rfl
  | some f =>
    have hlt : f.reach < e.reach := by
      have := h f rfl
      unfold reach
      cases f.fatal <;> simp <;> omega
    have hf : e.farthest f = e := by rw [farthest, if_neg (by rw [beats_iff]; omega)]
    cases found with
    | none => exact hf
    | some g =>
      change e.farthest (f.farthest g) = e.farthest g
      rw [← farthest_assoc, hf]

/-- What was noted in front of a place, and got less far, has no part in the failure reported. -/
theorem ParserState.conclude_within {place : Place} {t : ParserState} {e : Failure}
    (h : ∀ f ∈ place.noted, f.offset < (e.within place.base).offset) :
    ((t.within place).conclude (e.within place.base)).1 = (t.conclude e).1.within place.base := by
  have hfatal : (e.within place.base).fatal = e.fatal := rfl
  unfold conclude
  rw [hfatal]
  split
  · rfl
  · change (Failure.merge place.noted _).elim _ _ = Failure.within place.base (t.farthest.elim _ _)
    rw [Failure.merge_elim h]
    cases t.farthest with
    | none => rfl
    | some f => exact Failure.farthest_within place.base e f

/-- Whatever was noted, the cursor has passed it. -/
def ParserState.PastNoted (σ : ParserState) : Prop :=
  ∀ f ∈ σ.farthest, f.offset < σ.cursor.position.offset

namespace Stage

variable {options : Options} {line : List Char} {rest : List (List Char)} {σ : ParserState}

theorem readLine_takes (s : Stage) (σ : ParserState) :
    match Document.takes options s.opened.isSome σ with
    | .error e t => s.readLine options (Document.boundary options) σ = .error e t
    | .ok true t => ∃ s', s.readLine options (Document.boundary options) σ = .ok s' t
    | .ok false t => s.readLine options (Document.boundary options) σ =
        Parser.stuck (·.mismatch Item.expected) t := by
  have hitem (σ : ParserState) : match Document.takesItem options σ with
      | .error e t => s.readItem (Document.boundary options) σ = .error e t
      | .ok true t => ∃ s', s.readItem (Document.boundary options) σ = .ok s' t
      | .ok false t => s.readItem (Document.boundary options) σ =
          Parser.stuck (·.mismatch Item.expected) t := by
    have hgate : (Document.boundary options).gate = Document.gate options := rfl
    simp only [readItem, Document.takesItem, Parser.orTakes, bind_apply, hgate]
    cases Document.gate options σ with
    | error e t => rfl
    | ok found t =>
      cases found with
      | some found => exact ⟨_, rfl⟩
      | none =>
        simp only [bind_apply]
        cases Item.lineParser.attempt t with
        | error e u => rfl
        | ok found u =>
          cases found with
          | some item => exact ⟨_, rfl⟩
          | none => rfl
  cases ho : s.opened with
  | none =>
    rw [readLine, bind_apply, readMember_of_closed ho]
    exact hitem σ
  | some e =>
    rw [readLine, bind_apply, readMember_of_opened ho, Document.takes, if_pos (by rfl),
      Parser.orTakes, bind_apply]
    cases (Member.choice options).tried σ with
    | error err t => rfl
    | ok found t =>
      cases found with
      | some m => exact ⟨_, rfl⟩
      | none => exact hitem t

/-- A line is refused in a document with the failure that it has alone. -/
theorem readLine_refusal (h : Linewise (line :: rest)) (s : Stage)
    (hσ : σ.cursor.rest = (line :: rest).flatten) (hnoted : σ.PastNoted) :
    match Document.refusal options s.opened.isSome line with
    | some e => ∃ t, s.readLine options (Document.boundary options) σ =
        .error (e.within σ.cursor.position) t
    | none => ∃ s' t, s.readLine options (Document.boundary options) σ = .ok s' t ∧
        σ.NotesAlong t := by
  let place : Place := ⟨σ.cursor.position, rest.flatten, σ.farthest⟩
  have hagrees := Document.takes_agrees options place s.opened.isSome
  have hfits : (Cursor.ofText line).Fits place := h.fits _ _
  have hw : Document.takes options s.opened.isSome (ParserState.within place (.ofText line)) =
      place.outcome id (Document.takes options s.opened.isSome (.ofText line)) :=
    hagrees.within (.ofText line) hfits
  rw [← ParserState.eq_within hσ] at hw
  have htakes := @readLine_takes options s σ
  rw [hw] at htakes
  rw [Document.refusal]
  cases ht : Document.takes options s.opened.isSome (.ofText line) with
  | error e t =>
    rw [ht] at htakes
    exact ⟨_, htakes⟩
  | ok taken t =>
    rw [ht] at htakes hw
    cases taken with
    | true =>
      obtain ⟨s', hs'⟩ := htakes
      exact ⟨s', _, hs', (Document.takes_failsAlong options _).ok σ _ _ hw⟩
    | false =>
      have hc : t.cursor = .ofText line := hagrees.leads _ _ _ ht rfl
      have hmismatch : (t.within place).cursor.mismatch Item.expected =
          (t.cursor.mismatch Item.expected).within place.base := by
        change (t.cursor.within place).mismatch Item.expected = _
        rw [Cursor.mismatch, (hc ▸ hfits : t.cursor.Fits place).describe_eq]
        rfl
      have hstuck : s.readLine options (Document.boundary options) σ =
          Parser.stuck (·.mismatch Item.expected) (t.within place) := htakes
      have hbehind : ∀ f ∈ place.noted,
          f.offset < ((t.cursor.mismatch Item.expected).within place.base).offset := by
        rw [hc]
        exact hnoted
      rw [hstuck, Parser.stuck_apply, hmismatch, ParserState.conclude_within hbehind]
      exact ⟨_, rfl⟩

theorem refusal_isSome (h : Linewise (line :: rest)) (s : Stage) (p : Position) :
    (Document.refusal options s.opened.isSome line).isSome =
      (s.step options (inPlace p) line).isNone := by
  let σ : ParserState := ⟨⟨(line :: rest).flatten, p⟩, none⟩
  have hσ : σ.cursor.rest = (line :: rest).flatten := rfl
  have hnoted : σ.PastNoted := fun f hf ↦ by cases hf
  have hstep := @readLine_document options line rest σ s h hσ
  have hrefusal := @readLine_refusal options line rest σ h s hσ hnoted
  have hmove : σ.move = inPlace p := rfl
  rw [hmove] at hstep
  cases hs : s.step options (inPlace p) line with
  | some s' =>
    rw [hs] at hstep
    obtain ⟨t, ht, -⟩ := hstep
    cases hr : Document.refusal options s.opened.isSome line with
    | none => rfl
    | some e =>
      rw [hr] at hrefusal
      obtain ⟨u, hu⟩ := hrefusal
      rw [ht] at hu
      cases hu
  | none =>
    rw [hs] at hstep
    obtain ⟨e, t, ht⟩ := hstep
    cases hr : Document.refusal options s.opened.isSome line with
    | some e => rfl
    | none =>
      rw [hr] at hrefusal
      obtain ⟨s', u, hu, -⟩ := hrefusal
      rw [ht] at hu
      cases hu

/-- The machine is stuck on one of the lines, of which the first begins at a position, and this is
the failure of that line. -/
inductive Refused (options : Options) :
    Position → List (List Char) → Stage → Failure → Prop
  | here {p : Position} {line : List Char} {rest : List (List Char)} {s : Stage} {e : Failure} :
    Document.refusal options s.opened.isSome line = some e →
      Refused options p (line :: rest) s (e.within p)
  | later {p : Position} {line : List Char} {rest : List (List Char)} {s s' : Stage} {e : Failure} :
    s.step options (inPlace p) line = some s' → Refused options (p.after line) rest s' e →
      Refused options p (line :: rest) s e

theorem refused_iff {p : Position} {ls : List (List Char)} {s : Stage} {e : Failure} :
    Refused options p ls s e ↔ ∃ done line rest s' e', ls = done ++ line :: rest ∧
      run options inPlace p done s = some s' ∧
        Document.refusal options s'.opened.isSome line = some e' ∧
          e = e'.within (p.after done.flatten) := by
  constructor
  · intro h
    induction h with
    | here hr => exact ⟨[], _, _, _, _, rfl, rfl, hr, rfl⟩
    | @later p line _ _ _ _ hs _ ih =>
      obtain ⟨done, line', rest', s'', e', rfl, hrun, hr, rfl⟩ := ih
      refine ⟨line :: done, line', rest', s'', e', rfl, ?_, hr, ?_⟩
      · rw [run_cons, hs]
        exact hrun
      · rw [List.flatten_cons, Position.after_append]
  · rintro ⟨done, line, rest, s', e', rfl, hrun, hr, rfl⟩
    induction done generalizing p s with
    | nil =>
      cases hrun
      exact .here hr
    | cons line' done ih =>
      obtain ⟨s'', hs, hrun⟩ := run_cons_eq_some_iff.1 hrun
      rw [List.flatten_cons, Position.after_append]
      exact .later hs (ih hrun)

end Stage

theorem byteLength_takeWhile_lt {line : List Char} (h : Terminated line) (text : List Char) :
    byteLength ((line ++ text).takeWhile (· != '\n')) < byteLength line := by
  obtain ⟨body, hbody, rfl⟩ := h
  have hstop : (body ++ '\n' :: text).takeWhile (· != '\n') = body :=
    (@takeWhile_append_stop (· != '\n') _ _ (fun c hc ↦ by
      simpa using fun hn : c = '\n' ↦ hbody (hn ▸ hc)) rfl).1
  rw [List.append_assoc, List.singleton_append, hstop, byteLength_append]
  have := ('\n').utf8Size_pos
  simpa using this

theorem ParserState.PastNoted.next {σ t : ParserState} {line text : List Char}
    (h : σ.PastNoted) (hnotes : σ.NotesAlong t) (hline : Terminated line)
    (hσ : σ.cursor.rest = line ++ text) (ht : t.cursor.position = σ.cursor.position.after line) :
    t.PastNoted := by
  intro f hf
  have hlt := byteLength_takeWhile_lt hline text
  rw [ht, Position.after_offset]
  rcases hnotes f hf with hf | ⟨-, hf⟩
  · have := h f hf
    omega
  · have := hf.offset_le
    rw [hσ] at this
    omega

/-- On all lines of a document the loop fails as the first line does that the machine is stuck
on. -/
theorem Stage.readLines_error_iff {options : Options} {ls : List (List Char)} (h : Linewise ls)
    (s : Stage) {σ : ParserState} (hσ : σ.cursor.rest = ls.flatten)
    (hnoted : ls ≠ [] → σ.PastNoted) {e : Failure} :
    (∃ t, s.readLines options (Document.boundary options) ls σ = .error e t) ↔
      Refused options σ.cursor.position ls s e := by
  induction ls generalizing s σ with
  | nil =>
    have hread : s.readLines options (Document.boundary options) [] σ = .ok s σ := by
      have hgate : (Document.boundary options).gate σ = .ok (some none) σ :=
        (Document.gate_apply options σ).trans (if_pos hσ)
      rw [readLines, bind_apply, hgate]
      rfl
    rw [hread]
    constructor
    · rintro ⟨t, ht⟩
      cases ht
    · rintro ⟨⟩
  | cons line rest ih =>
    have hstep := @readLine_document options line rest σ s h hσ
    have hrefusal := @readLine_refusal options line rest σ h s hσ (hnoted (by simp))
    have hsome := @refusal_isSome options line rest h s σ.cursor.position
    have hmove : σ.move = inPlace σ.cursor.position := rfl
    rw [hmove] at hstep
    rw [readLines, bind_apply]
    cases hs : s.step options (inPlace σ.cursor.position) line with
    | some s' =>
      -- what was noted on this line got less far than any failure on the lines behind it
      rw [hs] at hstep hsome
      have hnone : Document.refusal options s.opened.isSome line = none := by simpa using hsome
      rw [hnone] at hrefusal
      obtain ⟨t, ht, hc⟩ := hstep
      obtain ⟨_, t', ht', hnotes⟩ := hrefusal
      rw [ht] at ht'
      cases ht'
      have hpast : rest ≠ [] → t.PastNoted := by
        intro hrest
        have hline := h.1.resolve_right fun hlast ↦ hrest hlast.1
        exact (hnoted (by simp)).next hnotes hline hσ (by rw [hc])
      have hread := ih h.2 s' (σ := t) (by rw [hc]) hpast
      rw [hc] at hread
      rw [ht]
      simp only [hread]
      constructor
      · exact .later hs
      · intro hr
        cases hr with
        | here hr => rw [hnone] at hr; cases hr
        | later hs' hr =>
          rw [hs] at hs'
          cases hs'
          exact hr
    | none =>
      rw [hs] at hsome
      obtain ⟨e', he'⟩ := Option.isSome_iff_exists.1 hsome
      rw [he'] at hrefusal
      obtain ⟨t, ht⟩ := hrefusal
      rw [ht]
      constructor
      · rintro ⟨u, hu⟩
        cases hu
        exact .here he'
      · intro hr
        cases hr with
        | here hr =>
          rw [he'] at hr
          cases hr
          exact ⟨t, rfl⟩
        | later hs' _ =>
          rw [hs] at hs'
          cases hs'

theorem Document.parse_eq_error_iff {options : Options} {text : String} {e : Failure} :
    parse options text = .error e ↔
      Stage.Refused options .start (lines text.toList) {} e := by
  have hls := lines_linewise text.toList
  have hσ : (ParserState.ofText text.toList).cursor.rest = (lines text.toList).flatten :=
    (lines_flatten text.toList).symm
  have hread : (∃ t, Stage.readLines options (boundary options) (lines text.toList) {}
      (.ofText text.toList) = .error e t) ↔ Stage.Refused options .start (lines text.toList) {} e :=
    Stage.readLines_error_iff hls {} hσ fun _ f hf ↦ by cases hf
  have hitems := (boundary options).items_eq_readLines options hls hσ
  rw [map_apply] at hitems
  rw [← hread, parse, parser_eq, bind_apply, position_apply]
  simp only [bind_apply, hitems]
  cases Stage.readLines options (boundary options) (lines text.toList) {}
    (.ofText text.toList) with
  | ok s t => simp [position_apply, pure_apply]
  | error e' t => simp

theorem Document.line_of_refusal {options : Options} {done : List (List Char)}
    (h : ∀ l ∈ done, Terminated l) {opened : Bool} {line : List Char} {e : Failure}
    (hr : refusal options opened line = some e) :
    (e.within (Position.start.after done.flatten)).location.line = done.length + 1 :=
  calc (e.within (Position.start.after done.flatten)).location.line
    _ = (Position.start.after done.flatten).line := Location.within_line (refusal_along hr).line
    _ = done.length + 1 := by
      rw [Stage.after_lines_line h]
      exact Nat.add_comm 1 _

theorem Document.exists_of_parse_eq_error {options : Options} {text : String} {e : Failure}
    (h : parse options text = .error e) : ∃ done line rest s e',
      lines text.toList = done ++ line :: rest ∧ (∀ l ∈ done, Terminated l) ∧
        Stage.run options Stage.inPlace .start done {} = some s ∧
          refusal options s.opened.isSome line = some e' ∧
            e = e'.within (Position.start.after done.flatten) ∧
              e.location.line = done.length + 1 := by
  obtain ⟨done, line, rest, s, e', hls, hrun, hr, rfl⟩ :=
    Stage.refused_iff.1 (parse_eq_error_iff.1 h)
  have hterminated := (hls ▸ lines_linewise text.toList).of_append.2 (by simp)
  exact ⟨done, line, rest, s, e', hls, hterminated, hrun, hr, rfl, line_of_refusal hterminated hr⟩

theorem Document.position_genuine {options : Options} {text : String} {e : Failure}
    (h : parse options text = .error e) : e.position.Genuine := by
  obtain ⟨done, line, rest, s, e', -, -, -, hr, rfl, -⟩ := exists_of_parse_eq_error h
  exact (Position.genuine_start.after _).within ((refusal_along hr).genuine Position.genuine_start)

theorem Document.parse_lines_iff {options : Options} {done : List (List Char)}
    (h : ∀ l ∈ done, Terminated l) {d : Document} :
    parse options (String.ofList done.flatten) = .ok d ↔
      ∃ s, Stage.run options Stage.inPlace .start done {} = some s ∧
        d = ⟨s.items, wholeSpan done.flatten⟩ := by
  have hdone : Linewise (done ++ []) := Linewise.append h trivial
  rw [List.append_nil] at hdone
  rw [parse_eq_ok_iff, String.toList_ofList, hdone.lines_flatten]

end EntityModels
