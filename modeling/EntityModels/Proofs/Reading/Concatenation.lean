import EntityModels.Proofs.Reading.Placement
import EntityModels.Proofs.Reading.Refusal

namespace EntityModels

namespace Stage

/-- The stage with other items in front of its own. -/
def behind (pre : List Item) (s : Stage) : Stage := { s with complete := pre ++ s.complete }

section

variable (pre : List Item) (s : Stage)

@[simp] theorem behind_opened : (s.behind pre).opened = s.opened := rfl

theorem behind_items : (s.behind pre).items = pre ++ s.items := List.append_assoc _ _ _

theorem behind_push (item : Item) : (s.push item).behind pre = (s.behind pre).push item := by
  rw [push, push, behind_items, behind, List.append_assoc]

theorem behind_start (e : Entity) : (s.start e).behind pre = (s.behind pre).start e := by
  rw [start, start, behind_items, behind]

variable (options : Options) (place : Span → Span) (line : List Char)

theorem member?_behind : (s.behind pre).member? options place line =
    (s.member? options place line).map (behind pre) := by
  cases ho : s.opened with
  | none => rw [member?_of_closed ho, member?_of_closed (s := s.behind pre) ho, Option.map_none]
  | some e =>
    rw [member?_of_opened ho, member?_of_opened (s := s.behind pre) ho, Option.map_map]
    rfl

theorem header?_behind : (s.behind pre).header? options place line =
    (s.header? options place line).map (behind pre) := by
  rw [header?, header?]
  cases readAlone (Entity.parser options) line with
  | none => rfl
  | some e => exact congrArg some (behind_start pre s _).symm

theorem trivia?_behind : (s.behind pre).trivia? place line =
    (s.trivia? place line).map (behind pre) := by
  rw [trivia?, trivia?, behind_opened]
  split
  · rfl
  · cases readAlone BlankLine.reader line with
    | some l => exact congrArg some (behind_push pre s _).symm
    | none =>
      cases readAlone CommentLine.reader line with
      | some l => exact congrArg some (behind_push pre s _).symm
      | none => rfl

theorem trailing?_behind : (s.behind pre).trailing? options place line =
    (s.trailing? options place line).map (behind pre) := by
  rw [trailing?, trailing?]
  split
  · exact congrArg some (behind_push pre s _).symm
  · rfl

/-- The machine does not look at the items that are complete. -/
theorem step_behind : (s.behind pre).step options place line =
    (s.step options place line).map (behind pre) := by
  rw [step, step, member?_behind, header?_behind, trivia?_behind, trailing?_behind]
  cases s.member? options place line with
  | some s' => rfl
  | none =>
    cases s.header? options place line with
    | some s' => rfl
    | none => cases s.trivia? place line <;> rfl

end

variable {options : Options} {line : List Char} {rest : List (List Char)} {e : Failure}
  {p : Position}

theorem run_behind (pre : List Item) (ls : List (List Char)) (s : Stage) :
    run options inPlace p ls (s.behind pre) = (run options inPlace p ls s).map (behind pre) := by
  induction ls generalizing p s with
  | nil => rfl
  | cons line rest ih =>
    rw [run_cons, run_cons, step_behind]
    cases s.step options (inPlace p) line with
    | none => rfl
    | some s' => exact ih s'

theorem run_append (ls ms : List (List Char)) (s : Stage) :
    run options inPlace p (ls ++ ms) s =
      (run options inPlace p ls s).bind (run options inPlace (p.after ls.flatten) ms) := by
  induction ls generalizing p s with
  | nil => rfl
  | cons line rest ih =>
    rw [List.cons_append, run_cons, run_cons, List.flatten_cons, Position.after_append]
    cases s.step options (inPlace p) line with
    | none => rfl
    | some s' => exact ih s'

theorem Refused.behind {ls : List (List Char)} {s : Stage} (h : Refused options p ls s e)
    (pre : List Item) : Refused options p ls (s.behind pre) e := by
  induction h with
  | here hr => exact .here hr
  | later hs _ ih =>
    refine .later ?_ ih
    rw [step_behind, hs, Option.map_some]

theorem Refused.append {ls ms : List (List Char)} {s s' : Stage}
    (hrun : run options inPlace p ls s = some s')
    (h : Refused options (p.after ls.flatten) ms s' e) : Refused options p (ls ++ ms) s e := by
  induction ls generalizing p s with
  | nil =>
    cases hrun
    exact h
  | cons line rest ih =>
    obtain ⟨s'', hs, hrun⟩ := run_cons_eq_some_iff.1 hrun
    rw [List.flatten_cons, Position.after_append] at h
    exact .later hs (ih hrun h)

theorem trivia_of_mayStart (h : Member.mayStart line = false) {kind : ItemKind}
    (hk : kind ≠ .entity) : kind.lineReader.value? (.ofText line) = none := by
  rw [Option.eq_none_iff_forall_ne_some]
  intro item hv
  obtain ⟨d, hr⟩ := Reader.ok_of_value? hv
  have hstart : kind.mayStart line := (ItemKind.start_of_ok hr).1
  refine absurd ?_ (Bool.eq_false_iff.1 h)
  cases kind with
  | entity => exact absurd rfl hk
  | blank => exact List.any_eq_true.2 ⟨.blank, by decide, hstart⟩
  | comment => exact List.any_eq_true.2 ⟨.comment, by decide, hstart⟩

theorem step_of_mayStart (hline : Linewise (line :: rest)) (h : Member.mayStart line = false)
    (place : Span → Span) (s : Stage) : s.step options place line =
      (step options place line {}).map (behind s.items) := by
  have htrivia (s : Stage) : s.opened.isSome → ∀ kind : ItemKind, kind ≠ .entity →
      kind.lineReader.value? (.ofText line) = none := fun _ _ ↦ trivia_of_mayStart h
  have hadd (item : Item) : s.add item = (add {} item).behind s.items := by
    cases item with
    | entity e => exact (congrArg (Stage.mk · (some e)) (List.append_nil _)).symm
    | blank l => rfl
    | comment l => rfl
  rw [step_of_item hline (member?_of_mayStart h place s) (htrivia s),
    step_of_item hline (member?_of_mayStart h place {}) (htrivia {})]
  cases Item.alone line with
  | some item => exact congrArg some (hadd _)
  | none =>
    change s.trailing? options place line = (trailing? options place line {}).map _
    rw [trailing?, trailing?]
    split
    · rfl
    · rfl

theorem refusal_of_mayStart (h : Member.mayStart line = false) (opened : Bool) :
    Document.refusal options opened line = Document.refusal options false line := by
  have hnone : (Member.choice options).tried (.ofText line) = .ok none (.ofText line) :=
    Choice.tried_eq_none h
  have htakes : Document.takes options true (.ofText line) =
      Document.takes options false (.ofText line) := by
    rw [Document.takes, if_pos rfl, Parser.orTakes_of_none hnone]
    rfl
  cases opened with
  | false => rfl
  | true => rw [Document.refusal, htakes, Document.refusal]

theorem run_of_mayStart (hline : Linewise (line :: rest)) (h : Member.mayStart line = false)
    (s : Stage) : run options inPlace p (line :: rest) s =
      (run options inPlace p (line :: rest) {}).map (behind s.items) := by
  rw [run_cons, run_cons, step_of_mayStart hline h]
  cases step options (inPlace p) line {} with
  | none => rfl
  | some s' => exact run_behind s.items rest s'

theorem Refused.of_mayStart (hline : Linewise (line :: rest)) (h : Member.mayStart line = false)
    (hr : Refused options p (line :: rest) {} e) (s : Stage) :
    Refused options p (line :: rest) s e := by
  cases hr with
  | here hr =>
    refine .here ?_
    rw [refusal_of_mayStart h, ← hr]
    rfl
  | later hs hr =>
    refine .later ?_ (hr.behind s.items)
    rw [step_of_mayStart hline h, hs, Option.map_some]

theorem Refused.within (base : Position) {ls : List (List Char)} {s : Stage} (hp : p.Genuine)
    (h : Refused options p ls s e) :
    Refused options (base.within p) ls (s.mapSpan (Span.within base.location)) (e.within base) := by
  induction h with
  | @here p line rest s e hr =>
    have hopened : (s.mapSpan (Span.within base.location)).opened.isSome = s.opened.isSome :=
      Option.isSome_map
    rw [Failure.within_within hp]
    exact .here (by rw [hopened, hr])
  | @later p line rest s s' e hs _ ih =>
    have hplace : inPlace (base.within p) = Span.within base.location ∘ inPlace p :=
      (Span.within_comp_within base.location hp.1 hp.2).symm
    have hstep : (s.mapSpan (Span.within base.location)).step options (inPlace (base.within p))
        line = some (s'.mapSpan (Span.within base.location)) := by
      rw [hplace, step_within, hs, Option.map_some]
    refine .later hstep ?_
    rw [← Position.within_after base hp]
    exact ih (hp.after line)

end Stage

theorem exists_line_of_typeStart {text : List Char} (h : text.head?.any isTypeStart) :
    ∃ line rest, lines text = line :: rest ∧ Linewise (line :: rest) ∧
      Member.mayStart line = false := by
  have hflatten := lines_flatten text
  cases hls : lines text with
  | nil =>
    rw [hls] at hflatten
    rw [← hflatten] at h
    cases h
  | cons line rest =>
    have hlines := lines_linewise text
    rw [hls] at hflatten hlines
    obtain ⟨x, tail, rfl⟩ := List.exists_cons_of_ne_nil hlines.ne_nil
    have hx : isTypeStart x := by rwa [← hflatten] at h
    exact ⟨_, rest, rfl, hlines, Member.mayStart_of_typeStart hx tail⟩

theorem Ended.after_start {text : List Char} (h : Ended text) : Position.start.after text =
    ⟨text.count '\n' + 1, 1, byteLength text⟩ := by
  have hcolumn : (Position.start.after text).column = 1 := by
    rcases h with rfl | hlast
    · rfl
    · obtain ⟨body, rfl⟩ := List.getLast?_eq_some_iff.1 hlast
      exact Position.after_newline_column _ body
  ext
  · exact (Position.after_line _ _).trans (Nat.add_comm _ _)
  · exact hcolumn
  · exact (Position.after_offset _ _).trans (Nat.zero_add _)

/-- At the beginning of a line a failure is as many lines and bytes further on. -/
theorem Failure.within_lineStart (n bytes : Nat) {e : Failure} (h : e.position.Genuine) :
    e.within ⟨n + 1, 1, bytes⟩ = { e with
      position := ⟨e.position.line + n, e.position.column, e.position.offset + bytes⟩ } :=
  congrArg (fun q ↦ { e with position := q }) (Position.within_lineStart n bytes h)

namespace Stage

variable {options : Options} {text : List Char} {ls : List (List Char)} {s : Stage} {e : Failure}

theorem mapSpan_of_run (h : run options inPlace .start ls {} = some s) :
    s.mapSpan (Span.within ⟨1, 1⟩) = s := by
  have hrun := run_within options .start ls Position.genuine_start {}
  rw [Position.within_start, h] at hrun
  exact Option.some.inj (hrun.symm.trans h)

theorem items_of_run (h : run options inPlace .start ls {} = some s) (n : Nat) :
    (s.mapSpan (Span.within ⟨n + 1, 1⟩)).items = s.items.map (Item.mapSpan (Span.down n)) := by
  have hfixed : s.items.map (Item.mapSpan (Span.within ⟨1, 1⟩)) = s.items := by
    rw [← mapSpan_items, mapSpan_of_run h]
  rw [Span.within_lineStart, mapSpan_items]
  nth_rewrite 2 [← hfixed]
  rw [List.map_map]
  exact List.map_congr_left fun item _ ↦ (Item.mapSpan_mapSpan _ _ item).symm

/-- A text that begins with an entity is read behind any other items as it is alone. -/
theorem run_of_typeStart (h : text.head?.any isTypeStart) {sb : Stage}
    (hrun : run options inPlace .start (lines text) {} = some sb) (p : Position) (s : Stage) :
    run options inPlace p (lines text) s =
      some ((sb.mapSpan (Span.within p.location)).behind s.items) := by
  obtain ⟨line, rest, hlines, hfirst, hmember⟩ := exists_line_of_typeStart h
  have hmoved : run options inPlace p (lines text) {} =
      some (sb.mapSpan (Span.within p.location)) := by
    have hwithin := run_within options p (lines text) Position.genuine_start {}
    rw [Position.within_start, hrun] at hwithin
    exact hwithin
  rw [hlines] at hmoved ⊢
  rw [run_of_mayStart hfirst hmember, hmoved, Option.map_some]

theorem Refused.of_typeStart (h : text.head?.any isTypeStart)
    (hr : Refused options .start (lines text) {} e) (p : Position) (s : Stage) :
    Refused options p (lines text) s (e.within p) := by
  obtain ⟨line, rest, hlines, hfirst, hmember⟩ := exists_line_of_typeStart h
  have hmoved : Refused options p (lines text) {} (e.within p) :=
    hr.within p Position.genuine_start
  rw [hlines] at hmoved ⊢
  exact hmoved.of_mayStart hfirst hmember s

end Stage

namespace Document

/-- A document and a text that begins with an entity are read together as they are alone, with the
places of the second one moved down. The same goes for its failure, if it has one. -/
theorem parse_append {options : Options} {a b : String} {fa : Document} (ha : Ended a.toList)
    (hfa : parse options a = .ok fa) (hb : b.toList.head?.any isTypeStart) :
    (∀ fb, parse options b = .ok fb → ∃ f, parse options (a ++ b) = .ok f ∧
      f.items = fa.items ++ fb.items.map (Item.mapSpan (Span.down (a.toList.count '\n')))) ∧
    ∀ e, parse options b = .error e → parse options (a ++ b) = .error { e with
      position := ⟨e.position.line + a.toList.count '\n', e.position.column,
        e.position.offset + byteLength a.toList⟩ } := by
  obtain ⟨s, hs, rfl⟩ := parse_eq_ok_iff.1 hfa
  let p : Position := ⟨a.toList.count '\n' + 1, 1, byteLength a.toList⟩
  have hp : Position.start.after (lines a.toList).flatten = p := by
    rw [lines_flatten, ha.after_start]
  have hlines : lines (a ++ b).toList = lines a.toList ++ lines b.toList := by
    rw [String.toList_append, ha.lines_append]
  refine ⟨fun fb hfb ↦ ?_, fun e he ↦ ?_⟩
  · obtain ⟨sb, hsb, rfl⟩ := parse_eq_ok_iff.1 hfb
    have hrun : Stage.run options Stage.inPlace .start (lines (a ++ b).toList) {} =
        some ((sb.mapSpan (Span.within p.location)).behind s.items) := by
      rw [hlines, Stage.run_append, hs, Option.bind_some, hp]
      exact Stage.run_of_typeStart hb hsb p s
    refine ⟨_, parse_eq_ok_iff.2 ⟨_, hrun, rfl⟩, ?_⟩
    exact (Stage.behind_items _ _).trans (congrArg (s.items ++ ·) (Stage.items_of_run hsb _))
  · have hrefused : Stage.Refused options (Position.start.after (lines a.toList).flatten)
        (lines b.toList) s (e.within p) := by
      rw [hp]
      exact (parse_eq_error_iff.1 he).of_typeStart hb p s
    rw [← Failure.within_lineStart _ _ (position_genuine he), parse_eq_error_iff, hlines]
    exact hrefused.append hs

theorem parse_append_entities :
    (∃ f, parse default "A\n  b Int\nB\n" = .ok f ∧ f.entities.map Entity.name =
      [⟨"A", ⟨1, 1⟩, ⟨1, 2⟩⟩, ⟨"B", ⟨3, 1⟩, ⟨3, 2⟩⟩]) ∧
    parse default "A\n  b Int\nB\n  c\n" = .error ⟨.structuralMismatch,
      "whitespace before field type", "end of line", ⟨4, 4, 15⟩, false⟩ := by
  let first := (Stage.run default Stage.inPlace .start (lines "A\n  b Int\n".toList) {}).getD {}
  let header : Entity := ⟨⟨"B", ⟨1, 1⟩, ⟨1, 2⟩⟩, false, none, [], ⟨1, 1⟩, ⟨2, 1⟩⟩
  have hfirst : parse default "A\n  b Int\n" =
      .ok ⟨first.items, wholeSpan "A\n  b Int\n".toList⟩ :=
    parse_eq_ok_iff.2 ⟨first, by decide +kernel, rfl⟩
  have hsecond : parse default "B\n" = .ok ⟨[.entity header], wholeSpan "B\n".toList⟩ :=
    parse_eq_ok_iff.2 ⟨⟨[], some header⟩, by decide +kernel, rfl⟩
  have hlines : lines "B\n  c\n".toList = ["B\n".toList, "  c\n".toList] := by decide +kernel
  have hrefused : parse default "B\n  c\n" = .error ⟨.structuralMismatch,
      "whitespace before field type", "end of line", ⟨2, 4, 5⟩, false⟩ := by
    have hheader : Stage.step default (Stage.inPlace .start) "B\n".toList {} =
        some ⟨[], some header⟩ := by decide +kernel
    rw [parse_eq_error_iff, hlines]
    exact .later hheader <| .here (e := ⟨.structuralMismatch, "whitespace before field type",
      "end of line", ⟨1, 4, 3⟩, false⟩) (by decide +kernel)
  have hended : Ended "A\n  b Int\n".toList := .inr (by decide)
  obtain ⟨f, hf, hitems⟩ := (parse_append hended hfirst (b := "B\n") (by decide)).1 _ hsecond
  refine ⟨⟨f, hf, ?_⟩, ?_⟩
  · rw [entities, hitems]
    decide +kernel
  · have hmoved := (parse_append hended hfirst (b := "B\n  c\n") (by decide)).2 _ hrefused
    exact hmoved.trans (congrArg Except.error (by decide +kernel))

end Document

end EntityModels
