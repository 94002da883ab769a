import EntityModels.Proofs.Grammar.Remarks
import EntityModels.Proofs.Grammar.Results
import EntityModels.Proofs.Reading.Concatenation
import EntityModels.Proofs.Reading.Coverage

namespace EntityModels

variable {options : Options} {line line' : List Char} {rest rest' : List (List Char)}

/-- The same line, but with a comment at its end. -/
def Remarked (line line' : List Char) : Prop :=
  ∃ body gap remark, '\n' ∉ body ∧ Gap gap ∧ '\n' ∉ remark ∧ line = body ++ ['\n'] ∧
    line' = body ++ (gap ++ (Keyword.comment.toList ++ remark)) ++ ['\n']

namespace Remarked

theorem level (h : Remarked line line') : Level (.ofText line) (.ofText line') := by
  obtain ⟨body, gap, remark, -, hgap, -, rfl, rfl⟩ := h
  have hremark : Trails (gap ++ '-' :: ('-' :: (remark ++ ['\n']))) :=
    .of_remark hgap (List.mem_cons_of_mem '-' (List.mem_append_right remark List.mem_cons_self))
  have hline : body ++ (gap ++ (Keyword.comment.toList ++ remark)) ++ ['\n'] =
      body ++ (gap ++ '-' :: ('-' :: (remark ++ ['\n']))) := by
    simp only [List.append_assoc]
    rfl
  rw [hline]
  exact .mk (.of_newline []) hremark

theorem terminated (h : Remarked line line') : Terminated line ∧ Terminated line' := by
  obtain ⟨body, gap, remark, hbody, hgap, hremark, rfl, rfl⟩ := h
  refine ⟨⟨body, hbody, rfl⟩, ⟨_, fun hmem ↦ ?_, rfl⟩⟩
  rcases List.mem_append.1 hmem with hmem | hmem
  · exact hbody hmem
  rcases List.mem_append.1 hmem with hmem | hmem
  · have hspace := hgap.2 _ hmem
    rw [isHorizontalSpace_newline] at hspace
    cases hspace
  rcases List.mem_append.1 hmem with hmem | hmem
  · revert hmem
    decide
  · exact hremark hmem

end Remarked

theorem MemberKind.declares_of_before {before after : List MemberKind} {kind other : MemberKind}
    (hall : all = before ++ kind :: after) (hblank : kind ≠ blank) (hcomment : kind ≠ comment)
    (hother : other ∈ before) : other ≠ blank ∧ other ≠ comment := by
  have hnodup : (before ++ kind :: after).Nodup := by
    rw [← hall]
    decide
  have hlast : [kind, blank].Sublist (before ++ kind :: after) ∧
      [kind, comment].Sublist (before ++ kind :: after) := by
    rw [← hall]
    cases kind <;> first | decide | contradiction
  refine ⟨?_, ?_⟩
  · rintro rfl
    exact not_mem_before hnodup hlast.1 hother
  · rintro rfl
    exact not_mem_before hnodup hlast.2 hother

theorem Member.readAlone_remarked (h : Remarked line line') {m : Member}
    (hm : readAlone (parser options) line = some m) (hdeclares : m.trivia? = none) :
    readAlone (parser options) line' = some m := by
  rw [readAlone_eq] at hm
  rw [readAlone_eq]
  obtain ⟨before, kind, after, hall, hkind, hbefore⟩ := List.findSome?_eq_some_iff.1 hm
  have hne : kind ≠ .blank ∧ kind ≠ .comment := by
    obtain ⟨d, hread⟩ := Reader.ok_of_value? hkind
    refine ⟨?_, ?_⟩
    · rintro rfl
      obtain ⟨l, d', -, hl⟩ := bind_ok hread
      cases hl
      cases hdeclares
    · rintro rfl
      obtain ⟨l, d', -, hl⟩ := bind_ok hread
      cases hl
      cases hdeclares
  have hvalue {kind : MemberKind} (hne : kind ≠ .blank ∧ kind ≠ .comment) :
      (kind.reader options).value? (.ofText line) = (kind.reader options).value? (.ofText line') :=
    (MemberKind.reader_abreast options hne.1 hne.2).value?_eq h.level
  refine List.findSome?_eq_some_iff.2 ⟨before, kind, after, hall, hvalue hne ▸ hkind, ?_⟩
  intro other hother
  rw [← hvalue (MemberKind.declares_of_before hall hne.1 hne.2 hother)]
  exact hbefore other hother

theorem Entity.readAlone_remarked (h : Remarked line line') :
    readAlone (parser options) line = readAlone (parser options) line' := by
  rw [readAlone_eq_head h.terminated.1.linewise, readAlone_eq_head h.terminated.2.linewise]
  exact head_abreast.value?_eq h.level

namespace Stage

variable {s s' : Stage} {place : Span → Span}

/-- Every step adds one row. If that stands for a declaration, it is a member or a header. -/
theorem rows_step (hl : Linewise (line :: rest)) (hstep : s.step options place line = some s') :
    ∃ r, s'.rows = s.rows ++ [r] ∧ (r.text? = none →
      (∃ e m, s.opened = some e ∧ readAlone (Member.parser options) line = some m ∧
        m.trivia? = none ∧ s' = { s with
          opened := some (e.extend (m.mapSpan place) (place (wholeSpan line)).stop) }) ∨
      ∃ e, readAlone (Entity.parser options) line = some e ∧ s' = s.start (e.mapSpan place)) := by
  rcases step_inversion hstep with ⟨e, m, ho, hr, rfl⟩ | ⟨e, he, rfl⟩ | ⟨-, l, -, rfl⟩ |
    ⟨-, l, -, rfl⟩ | ⟨-, -, -, rfl⟩
  · refine ⟨_, rows_extend ho _ _, fun hr' ↦ .inl ⟨e, m, ho, hr, ?_, rfl⟩⟩
    cases m <;> first | rfl | cases hr'
  · refine ⟨⟨(place (wholeSpan line)).start, none⟩, ?_, fun _ ↦ .inr ⟨e, he, rfl⟩⟩
    have hitems : (s.start (e.mapSpan place)).items =
      s.items ++ [(Item.entity e).mapSpan place] := rfl
    rw [rows_of_items hitems, (Entity.head_isLine hl he).mapSpan_rows]
    rfl
  · exact ⟨_, rows_of_items (push_items s _), fun hr ↦ by cases hr⟩
  · exact ⟨_, rows_of_items (push_items s _), fun hr ↦ by cases hr⟩
  · exact ⟨_, rows_of_items (push_items s _), fun hr ↦ by cases hr⟩

theorem rows_run {ls : List (List Char)} {p : Position} (hls : Linewise ls)
    (hrun : run options inPlace p ls s = some s') : s.rows <+: s'.rows := by
  induction ls generalizing p s with
  | nil =>
    cases hrun
    exact List.prefix_rfl
  | cons line rest ih =>
    obtain ⟨s₁, hstep, hrun⟩ := run_cons_eq_some_iff.1 hrun
    obtain ⟨r, hrows, -⟩ := rows_step hls hstep
    have hmore := ih hls.2 hrun
    rw [hrows] at hmore
    exact (List.prefix_append s.rows [r]).trans hmore

theorem row_of_run {p : Position} (hls : Linewise (line :: rest))
    (hstep : s.step options place line = some s') {t : Stage}
    (hrun : run options inPlace p rest s' = some t) :
    t.rows[s.rows.length]? = s'.rows[s.rows.length]? := by
  obtain ⟨r, hrows, -⟩ := rows_step hls hstep
  obtain ⟨more, hmore⟩ := rows_run hls.2 hrun
  rw [← hmore, List.getElem?_append_left (by simp [hrows])]

theorem length_rows {before : List Char} (hbefore : Ended before)
    (hrun : run options inPlace .start (lines before) {} = some s) :
    s.rows.length = before.count '\n' := by
  have hcovers := covers_nil.run (lines_linewise before) hrun
  have hline := after_lines_line hbefore.terminated .start
  rw [lines_flatten, Position.after_line] at hline
  rw [hcovers.length]
  exact (Nat.add_left_cancel hline).symm

theorem member?_of_header {e : Entity} (hl : Linewise (line :: rest))
    (he : readAlone (Entity.parser options) line = some e) (place : Span → Span) (s : Stage) :
    s.member? options place line = none := by
  rw [Entity.readAlone_eq_head hl] at he
  obtain ⟨d, hr⟩ := Reader.ok_of_value? he
  have hstart : line.head?.any isTypeStart := Entity.head_start hr
  cases line with
  | nil => cases hstart
  | cons x tail => exact member?_of_mayStart (Member.mayStart_of_typeStart hstart tail) place s

theorem step_remarked (h : Remarked line line') {p : Position} {r : Row}
    (hstep : s.step options (inPlace p) line = some s') (hrow : s'.rows[s.rows.length]? = some r)
    (hdeclares : r.text? = none) : s.step options (inPlace p) line' = some s' := by
  obtain ⟨hl, hl'⟩ := h.terminated
  obtain ⟨r', hrows, hdeclared⟩ := rows_step hl.linewise hstep
  rw [hrows, List.getElem?_concat_length] at hrow
  cases hrow
  rcases hdeclared hdeclares with ⟨e, m, ho, hm, htrivia, rfl⟩ | ⟨e, he, rfl⟩
  · apply step_of_member
    rw [member?_of_opened ho, Member.readAlone_remarked h hm htrivia, inPlace_wholeSpan,
      inPlace_wholeSpan, hl.location_after, hl'.location_after]
    rfl
  · have hnone : s.member? options (inPlace p) line' = none := by
      rw [Entity.readAlone_remarked h] at he
      exact member?_of_header hl'.linewise he _ s
    rw [step, hnone, header?, ← Entity.readAlone_remarked h, he]
    rfl

theorem run_location {p q : Position} (h : p.location = q.location) (ls : List (List Char))
    (s : Stage) : run options inPlace p ls s = run options inPlace q ls s := by
  induction ls generalizing p q s with
  | nil => rfl
  | cons line rest ih =>
    have hplace : inPlace p = inPlace q := congrArg Span.within h
    have hafter : (p.after line).location = (q.after line).location :=
      Position.location_after_congr h line
    rw [run_cons, run_cons, hplace]
    congr 1
    funext s
    exact ih hafter s

end Stage

namespace Document

/-- A comment at the end of a line, behind at least one space, is without effect wherever the line
declares something: it is the header of an entity, or a member that is no blank line or comment. The
document stays as it is, with all its places. -/
theorem remarks_inert {text : String} {d : Document} (h : parse options text = .ok d)
    {before body after : List Char} (htext : text.toList = before ++ (body ++ '\n' :: after))
    (hbefore : Ended before) (hbody : '\n' ∉ body) {row : Row}
    (hrow : d.rows[before.count '\n']? = some row) (hdeclares : row.text? = none)
    {gap remark : List Char} (hgap : Gap gap) (hremark : '\n' ∉ remark) :
    parse options (String.ofList (before ++
      (body ++ (gap ++ (Keyword.comment.toList ++ remark)) ++ '\n' :: after))) = .ok d := by
  obtain ⟨s, hrun, rfl⟩ := parse_eq_ok_iff.1 h
  have hremarked : Remarked (body ++ ['\n'])
      (body ++ (gap ++ (Keyword.comment.toList ++ remark)) ++ ['\n']) :=
    ⟨body, gap, remark, hbody, hgap, hremark, rfl, rfl⟩
  rw [List.append_cons] at htext ⊢
  revert htext hremarked
  generalize body ++ ['\n'] = line,
    body ++ (gap ++ (Keyword.comment.toList ++ remark)) ++ ['\n'] = line'
  intro htext hremarked
  obtain ⟨hl, hl'⟩ := hremarked.terminated
  have hlines {line : List Char} (hl : Terminated line) :
      lines (before ++ (line ++ after)) = lines before ++ line :: lines after := by
    rw [hbefore.lines_append, lines_terminated_append hl]
  -- the machine up to the line, on the line, and behind it
  have hall := lines_linewise text.toList
  rw [htext, hlines hl] at hrun hall
  rw [Stage.run_append] at hrun
  obtain ⟨s₀, hdone, hrun⟩ := Option.bind_eq_some_iff.1 hrun
  obtain ⟨s₁, hstep, hmore⟩ := Stage.run_cons_eq_some_iff.1 hrun
  have hadded : s₁.rows[s₀.rows.length]? = some row := by
    rw [← Stage.row_of_run hall.right_of_append hstep hmore, Stage.length_rows hbefore hdone]
    exact hrow
  have hlocation (p : Position) : (p.after line).location = (p.after line').location :=
    (hl.location_after p).trans (hl'.location_after p).symm
  refine parse_eq_ok_iff.2 ⟨s, ?_, ?_⟩
  · rw [String.toList_ofList, hlines hl', Stage.run_append, hdone]
    refine Stage.run_cons_eq_some_iff.2
      ⟨s₁, Stage.step_remarked hremarked hstep hadded hdeclares, ?_⟩
    rwa [← Stage.run_location (hlocation _)]
  · rw [String.toList_ofList, htext, wholeSpan, wholeSpan, Position.spanTo, Position.spanTo]
    simp only [Position.after_append]
    rw [Position.location_after_congr (hlocation _)]

theorem remark_of_field : ∃ d, parse default "A\n  b C default\n" = .ok d ∧
    d.rows[1]? = some ⟨⟨2, 3⟩, none⟩ ∧ parse default "A\n  b C default -- = d\n" = .ok d := by
  have hread : (match parse default "A\n  b C default\n" with
      | .ok d => d.rows[1]?
      | .error _ => none) = some ⟨⟨2, 3⟩, none⟩ := by decide +kernel
  cases h : parse default "A\n  b C default\n" with
  | error e =>
    rw [h] at hread
    cases hread
  | ok d =>
    rw [h] at hread
    have htext : "A\n  b C default\n".toList =
      "A\n".toList ++ ("  b C default".toList ++ '\n' :: []) := by decide
    have hremark : '\n' ∉ " = d".toList := by decide
    have hrow : d.rows["A\n".toList.count '\n']? = some ⟨⟨2, 3⟩, none⟩ := hread
    have hremarked :=
      remarks_inert h htext (.inr (by decide)) (by decide) hrow rfl gap_space hremark
    exact ⟨d, rfl, hread, hremarked⟩

end Document

end EntityModels
