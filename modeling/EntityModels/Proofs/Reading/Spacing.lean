import Mathlib.Data.List.TakeWhile
import EntityModels.Proofs.Grammar.Results
import EntityModels.Proofs.Grammar.Spacing
import EntityModels.Proofs.Reading.FatalFields

namespace EntityModels

variable {options : Options} {line line' : List Char} {rest rest' : List (List Char)}

theorem Member.readAlone_plain (h : squeeze line = squeeze line') :
    (readAlone (parser options) line).map plain = (readAlone (parser options) line').map plain := by
  rw [readAlone_eq, readAlone_eq, List.map_findSome?, List.map_findSome?]
  congr 1
  funext kind
  exact (kind.reader_blind options).value?_eq h

theorem Entity.readAlone_plain (h : squeeze line = squeeze line') (hl : Linewise (line :: rest))
    (hl' : Linewise (line' :: rest')) : (readAlone (parser options) line).map plain =
      (readAlone (parser options) line').map plain := by
  rw [readAlone_eq_head hl, readAlone_eq_head hl']
  exact head_blind.value?_eq h

theorem BlankLine.readAlone_plain (h : squeeze line = squeeze line') :
    (readAlone reader line).map plain = (readAlone reader line').map plain := by
  rw [readAlone_ofReader, readAlone_ofReader]
  exact reader_blind.value?_eq h

theorem CommentLine.readAlone_plain (h : squeeze line = squeeze line') :
    (readAlone reader line).map plain = (readAlone reader line').map plain := by
  rw [readAlone_ofReader, readAlone_ofReader]
  exact reader_blind.value?_eq h

theorem map_eq_of_map_eq {α γ δ : Type} {found found' : Option α} {f : α → γ} {g g' : α → δ}
    (h : found.map f = found'.map f) (hg : ∀ a b, f a = f b → g a = g' b) :
    found.map g = found'.map g' := by
  cases found with
  | none =>
    rw [Option.map_eq_none_iff.1 h.symm]
    rfl
  | some a =>
    obtain ⟨b, rfl, hb⟩ := Option.map_eq_some_iff.1 h.symm
    exact congrArg some (hg a b hb.symm)

namespace Stage

/-- The stage without places, and with the space in its blank lines and comments drawn together. -/
def plain (s : Stage) : Stage := ⟨s.complete.map Item.plain, s.opened.map Entity.plain⟩

variable {s s' : Stage} {place place' : Span → Span}

theorem items_plain (s : Stage) : s.plain.items = s.items.map Item.plain := by
  obtain ⟨complete, opened⟩ := s
  cases opened <;> simp [plain, items, Item.plain, Entity.plain, Item.mapSpan, Item.mapText]

theorem push_plain (s : Stage) (item : Item) : (s.push item).plain = s.plain.push item.plain := by
  rw [push, push, items_plain]
  simp [plain]

theorem start_plain (s : Stage) (e : Entity) : (s.start e).plain = s.plain.start e.plain := by
  rw [start, start, items_plain]
  rfl

theorem extend_plain (e : Entity) (m : Member) (stop : Location) :
    (e.extend m stop).plain = e.plain.extend m.plain Span.nowhere.stop := by
  simp only [Entity.plain, Entity.mapSpan, Entity.mapText, Entity.extend, Member.plain,
    List.map_append, List.map_cons, List.map_nil]
  rfl

theorem opened_isSome_of_plain (h : s.plain = s'.plain) :
    s.opened.isSome = s'.opened.isSome := by
  have hopened : s.opened.map Entity.plain = s'.opened.map Entity.plain := congrArg Stage.opened h
  rw [← Option.isSome_map, hopened, Option.isSome_map]

theorem member?_plain (h : squeeze line = squeeze line') (hs : s.plain = s'.plain) :
    (s.member? options place line).map plain = (s'.member? options place' line').map plain := by
  have hcomplete : s.complete.map Item.plain = s'.complete.map Item.plain :=
    congrArg Stage.complete hs
  have hopened : s.opened.map Entity.plain = s'.opened.map Entity.plain := congrArg Stage.opened hs
  cases ho : s.opened with
  | none =>
    rw [ho] at hopened
    have ho' : s'.opened = none := Option.map_eq_none_iff.1 hopened.symm
    rw [member?_of_closed ho, member?_of_closed ho']
  | some e =>
    rw [ho] at hopened
    obtain ⟨e', ho', he⟩ := Option.map_eq_some_iff.1 hopened.symm
    rw [member?_of_opened ho, member?_of_opened ho', Option.map_map, Option.map_map]
    refine map_eq_of_map_eq (Member.readAlone_plain h) fun m m' hm ↦ ?_
    simp only [Function.comp, plain, Option.map_some, extend_plain, Member.plain_mapSpan, hcomplete,
      he, hm]

theorem header?_plain (h : squeeze line = squeeze line') (hl : Linewise (line :: rest))
    (hl' : Linewise (line' :: rest')) (hs : s.plain = s'.plain) :
    (s.header? options place line).map plain = (s'.header? options place' line').map plain := by
  have hmap (s : Stage) (place : Span → Span) (line : List Char) : s.header? options place line =
      (readAlone (Entity.parser options) line).map fun e ↦ s.start (e.mapSpan place) := by
    rw [header?]
    cases readAlone (Entity.parser options) line <;> rfl
  rw [hmap, hmap, Option.map_map, Option.map_map]
  refine map_eq_of_map_eq (Entity.readAlone_plain h hl hl') fun e e' he ↦ ?_
  simp only [Function.comp, start_plain, Entity.plain_mapSpan, hs, he]

theorem push_plain_eq (hs : s.plain = s'.plain) {item item' : Item} (h : item.plain = item'.plain) :
    (s.push (item.mapSpan place)).plain = (s'.push (item'.mapSpan place')).plain := by
  rw [push_plain, push_plain, Item.plain_mapSpan, Item.plain_mapSpan, hs, h]

theorem trivia?_plain (h : squeeze line = squeeze line') (hs : s.plain = s'.plain) :
    (s.trivia? place line).map plain = (s'.trivia? place' line').map plain := by
  rw [trivia?, trivia?, opened_isSome_of_plain hs]
  split
  · rfl
  · simp only [Option.orElse_eq_orElse, Option.orElse_eq_or, Option.map_or, Option.map_map]
    congr 1
    · refine map_eq_of_map_eq (BlankLine.readAlone_plain h) fun l l' hl ↦ ?_
      have hitem : (Item.blank l).plain = (Item.blank l').plain := congrArg Item.blank hl
      exact push_plain_eq hs hitem
    · refine map_eq_of_map_eq (CommentLine.readAlone_plain h) fun l l' hl ↦ ?_
      have hitem : (Item.comment l).plain = (Item.comment l').plain := congrArg Item.comment hl
      exact push_plain_eq hs hitem

theorem trailing?_plain (h : squeeze line = squeeze line') (hs : s.plain = s'.plain) :
    (s.trailing? options place line).map plain = (s'.trailing? options place' line').map plain := by
  have hne : line ≠ [] ↔ line' ≠ [] :=
    not_congr (squeeze_eq_nil_iff.symm.trans (h ▸ squeeze_eq_nil_iff))
  have hblank {text : List Char} : text.all isHorizontalSpace ↔
      (squeeze text).dropWhile isHorizontalSpace = [] := by
    rw [← squeeze_dropWhile_space, squeeze_eq_nil_iff, List.dropWhile_eq_nil_iff, List.all_eq_true]
  have hall : line.all isHorizontalSpace ↔ line'.all isHorizontalSpace := by
    rw [hblank, hblank, h]
  rw [trailing?, trailing?]
  by_cases hend : options.trailingBlank ∧ line ≠ [] ∧ line.all isHorizontalSpace
  · rw [if_pos hend, if_pos ⟨hend.1, hne.1 hend.2.1, hall.1 hend.2.2⟩, Option.map_some,
      Option.map_some, push_plain, push_plain, hs]
    simp only [Item.plain, Item.mapSpan, Item.mapText, BlankLine.mapSpan, BlankLine.mapText,
      String.toList_ofList, h, noSpan]
  · rw [if_neg hend, if_neg fun hend' ↦ hend ⟨hend'.1, hne.2 hend'.2.1, hall.2 hend'.2.2⟩]

theorem step_plain (h : squeeze line = squeeze line') (hl : Linewise (line :: rest))
    (hl' : Linewise (line' :: rest')) (hs : s.plain = s'.plain) :
    (s.step options place line).map plain = (s'.step options place' line').map plain := by
  have hmap (s : Stage) (place : Span → Span) (line : List Char) :
      (s.step options place line).map plain = ((s.member? options place line).map plain <|>
        (s.header? options place line).map plain <|> (s.trivia? place line).map plain <|>
          (s.trailing? options place line).map plain) := by
    simp only [step, Option.orElse_eq_orElse, Option.orElse_eq_or, Option.map_or]
  have hheader : (s.header? options place line).map plain =
      (s'.header? options place' line').map plain := header?_plain h hl hl' hs
  rw [hmap, hmap, member?_plain h hs, hheader, trivia?_plain h hs, trailing?_plain h hs]

theorem run_plain {ls ls' : List (List Char)} {place place' : Position → Span → Span}
    (h : ls.map squeeze = ls'.map squeeze) (hl : Linewise ls) (hl' : Linewise ls') (p p' : Position)
    (hs : s.plain = s'.plain) :
    (run options place p ls s).map plain = (run options place' p' ls' s').map plain := by
  induction ls generalizing ls' p p' s s' with
  | nil =>
    obtain rfl : ls' = [] := List.map_eq_nil_iff.1 h.symm
    exact congrArg some hs
  | cons line rest ih =>
    obtain ⟨line', rest', rfl, hline, hrest⟩ := List.map_eq_cons_iff.1 h.symm
    have hstep : (s.step options (place p) line).map plain =
        (s'.step options (place' p') line').map plain := step_plain hline.symm hl hl' hs
    rw [run_cons, run_cons]
    cases hr : s.step options (place p) line with
    | none =>
      rw [hr] at hstep
      rw [Option.map_eq_none_iff.1 hstep.symm]
      rfl
    | some t =>
      rw [hr] at hstep
      obtain ⟨t', hr', ht⟩ := Option.map_eq_some_iff.1 hstep.symm
      rw [hr']
      exact ih hrest.symm hl.2 hl'.2 _ _ ht.symm

theorem exists_run_of_plain {ls ls' : List (List Char)} (h : ls.map squeeze = ls'.map squeeze)
    (hl : Linewise ls) (hl' : Linewise ls') (hr : run options inPlace .start ls {} = some s) :
    ∃ s', run options inPlace .start ls' {} = some s' ∧ s.plain = s'.plain := by
  have hboth : (run options inPlace .start ls {}).map plain =
      (run options inPlace .start ls' {}).map plain := run_plain h hl hl' _ _ rfl
  rw [hr] at hboth
  obtain ⟨s', hr', hs⟩ := Option.map_eq_some_iff.1 hboth.symm
  exact ⟨s', hr', hs.symm⟩

end Stage

def withReturns (text : List Char) : List Char :=
  text.flatMap fun x ↦ if x = '\n' then ['\r', '\n'] else [x]

/-- The same line, or the same behind another indentation. -/
def Reindented (line line' : List Char) : Prop :=
  line = line' ∨ ∃ gap gap' body, Gap gap ∧ Gap gap' ∧ line = gap ++ body ∧ line' = gap' ++ body

/-- The same line, or the same with blanks at its end. -/
def Padded (line line' : List Char) : Prop :=
  line = line' ∨ ∃ body blanks, (∀ x ∈ blanks, isHorizontalSpace x) ∧ line = body ++ ['\n'] ∧
    line' = body ++ blanks ++ ['\n']

theorem squeeze_withReturns (text : List Char) : squeeze (withReturns text) = squeeze text := by
  induction text with
  | nil => rfl
  | cons x text ih =>
    by_cases hx : x = '\n'
    · subst hx
      have hreturn : ∀ x ∈ ['\r'], isHorizontalSpace x := List.all_eq_true.1 (by decide)
      exact (squeeze_blanks hreturn _).trans (squeeze_append_congr ih ['\n'])
    · have hcons : withReturns (x :: text) = x :: withReturns text := by
        rw [withReturns, List.flatMap_cons, if_neg hx]
        rfl
      rw [hcons]
      exact squeeze_append_congr ih [x]

theorem Reindented.squeeze_eq (h : Reindented line line') : squeeze line = squeeze line' := by
  rcases h with rfl | ⟨gap, gap', body, hgap, hgap', rfl, rfl⟩
  · rfl
  · rw [squeeze_run hgap.1 hgap.2, squeeze_run hgap'.1 hgap'.2]

theorem Padded.squeeze_eq (h : Padded line line') : squeeze line = squeeze line' := by
  rcases h with rfl | ⟨body, blanks, hblanks, rfl, rfl⟩
  · rfl
  · rw [List.append_assoc]
    exact squeeze_append_congr (squeeze_blanks hblanks []).symm body

theorem squeeze_eq_of_forall₂ {change : List Char → List Char → Prop}
    (hchange : ∀ line line', change line line' → squeeze line = squeeze line') {s t : List Char}
    (h : List.Forall₂ change (lines s) (lines t)) : squeeze s = squeeze t := by
  apply squeeze_eq_of_lines
  generalize lines s = ls, lines t = ls' at h
  induction h with
  | nil => rfl
  | cons hline _ ih => rw [List.map_cons, List.map_cons, hchange _ _ hline, ih]

namespace Document

/-- The same document, but for places and space, or failures on the same line that weigh the
same. -/
def ReadAlike (options : Options) (s t : String) : Prop :=
  (∃ d d', parse options s = .ok d ∧ parse options t = .ok d' ∧ d.plain = d'.plain) ∨
    ∃ e e', parse options s = .error e ∧ parse options t = .error e' ∧
      e.location.line = e'.location.line ∧ e.fatal = e'.fatal

theorem fatal_of_refusal {opened : Bool} {e e' : Failure} (h : squeeze line = squeeze line')
    (hr : refusal options opened line = some e) (hr' : refusal options opened line' = some e')
    (he : e.fatal) : e'.fatal := by
  obtain ⟨rfl, c, hc⟩ := field_of_refusal hr he
  obtain ⟨e'', c', hc', hfatal⟩ := Field.reader_blind.of_error (d := .ofText line') hc h
  rw [hfatal] at he
  cases hr'.symm.trans (refusal_of_field hc' he)
  exact he

/-- A line that is refused is refused when its space is changed, and by a failure that weighs the
same. -/
theorem refusal_plain {s s' : Stage} {e : Failure} (h : squeeze line = squeeze line')
    (hl : Linewise (line :: rest)) (hl' : Linewise (line' :: rest')) (hs : s.plain = s'.plain)
    (hr : refusal options s.opened.isSome line = some e) :
    ∃ e', refusal options s'.opened.isSome line' = some e' ∧ e.fatal = e'.fatal := by
  have hstep : (s.step options (Stage.inPlace .start) line).map Stage.plain =
      (s'.step options (Stage.inPlace .start) line').map Stage.plain := Stage.step_plain h hl hl' hs
  have hsome : (refusal options s.opened.isSome line).isSome =
      (refusal options s'.opened.isSome line').isSome := by
    rw [Stage.refusal_isSome hl s .start, Stage.refusal_isSome hl' s' .start,
      ← Option.isNone_map (f := Stage.plain), hstep, Option.isNone_map]
  rw [hr] at hsome
  obtain ⟨e', hr'⟩ := Option.isSome_iff_exists.1 hsome.symm
  refine ⟨e', hr', ?_⟩
  rw [Stage.opened_isSome_of_plain hs] at hr
  rw [Bool.eq_iff_iff]
  exact ⟨fatal_of_refusal h hr hr', fatal_of_refusal h.symm hr' hr⟩

theorem plain_items (s : Stage) (span : Span) :
    (Document.mk s.items span).plain = ⟨s.plain.items, .nowhere⟩ := by
  rw [Stage.items_plain]
  simp only [plain, mapSpan, mapText, List.map_map]
  rfl

theorem readAlike_of_squeeze {s t : String} (h : squeeze s.toList = squeeze t.toList) :
    ReadAlike options s t := by
  have hlines : (lines s.toList).map squeeze = (lines t.toList).map squeeze := by
    rw [← lines_squeeze, h, lines_squeeze]
  have hs := lines_linewise s.toList
  have ht := lines_linewise t.toList
  cases hparse : parse options s with
  | ok d =>
    obtain ⟨stage, hrun, rfl⟩ := parse_eq_ok_iff.1 hparse
    obtain ⟨stage', hrun', hplain⟩ := Stage.exists_run_of_plain hlines hs ht hrun
    refine .inl ⟨_, _, hparse, parse_eq_ok_iff.2 ⟨stage', hrun', rfl⟩, ?_⟩
    rw [plain_items, plain_items, hplain]
  | error e =>
    obtain ⟨done, line, rest, stage, e, hls, -, hrun, hr, rfl, hnumber⟩ :=
      exists_of_parse_eq_error hparse
    rw [hls] at hs
    -- the same line of the other text, and the lines in front of it
    obtain ⟨done', more', hls', hdones, hmore⟩ := List.map_eq_append_iff.1 <|
      hlines.symm.trans (by rw [hls, List.map_append])
    obtain ⟨line', rest', rfl, hline, -⟩ := List.map_eq_cons_iff.1 hmore
    rw [hls'] at ht
    obtain ⟨stage', hrun', hplain⟩ :=
      Stage.exists_run_of_plain hdones.symm hs.of_append.1 ht.of_append.1 hrun
    obtain ⟨e', hr', hfatal⟩ :=
      refusal_plain hline.symm hs.right_of_append ht.right_of_append hplain hr
    refine .inr ⟨_, _, hparse, parse_eq_error_iff.2 <| Stage.refused_iff.2
      ⟨done', line', rest', stage', e', hls', hrun', hr', rfl⟩, ?_, hfatal⟩
    have hlength : done'.length = done.length := by simpa using congrArg List.length hdones
    rw [hnumber, line_of_refusal (ht.of_append.2 (by simp)) hr', hlength]

/-- Horizontal space counts where it stands between other things, and not for its amount. Texts that
differ in no more than that are read alike: so are those with carriage returns, with another
indentation, or with blanks at the ends of their lines. -/
theorem spacing_insignificant (options : Options) :
    (∀ s t : String, squeeze s.toList = squeeze t.toList → ReadAlike options s t) ∧
      (∀ s : String, ReadAlike options s (String.ofList (withReturns s.toList))) ∧
      (∀ s t : String, List.Forall₂ Reindented (lines s.toList) (lines t.toList) →
        ReadAlike options s t) ∧
      ∀ s t : String, List.Forall₂ Padded (lines s.toList) (lines t.toList) →
        ReadAlike options s t := by
  refine ⟨fun s t ↦ readAlike_of_squeeze, fun s ↦ readAlike_of_squeeze ?_, fun s t h ↦
    readAlike_of_squeeze (squeeze_eq_of_forall₂ (fun _ _ ↦ Reindented.squeeze_eq) h), fun s t h ↦
      readAlike_of_squeeze (squeeze_eq_of_forall₂ (fun _ _ ↦ Padded.squeeze_eq) h)⟩
  rw [String.toList_ofList, squeeze_withReturns]

theorem spacing_of_field :
    (∃ d d', parse default "A  json\r\n\tb   Int\tMaybe \r\n --  c\t\n" = .ok d ∧
      parse default "A json\n  b Int Maybe\n\t-- c\n" = .ok d' ∧ d.plain = d'.plain ∧
        d.entities.map (fun e ↦ e.fields.map fun f ↦ f.name.text) = [["b"]]) ∧
      ReadAlike default "A\n b Int\n" "A\n\t\tb Int\n" ∧
      ReadAlike default "A\n b Int\n" "A \n b Int\t\n" := by
  obtain ⟨hsqueeze, -, hindent, hpad⟩ := spacing_insignificant default
  have hread : (match parse default "A  json\r\n\tb   Int\tMaybe \r\n --  c\t\n" with
      | .ok d => d.entities.map fun e ↦ e.fields.map fun f ↦ f.name.text
      | .error _ => []) = [["b"]] := by decide +kernel
  have hlines : lines "A\n b Int\n".toList = ["A\n".toList, " b Int\n".toList] := by decide +kernel
  refine ⟨?_, hindent _ _ ?_, hpad _ _ ?_⟩
  · rcases hsqueeze "A  json\r\n\tb   Int\tMaybe \r\n --  c\t\n" "A json\n  b Int Maybe\n\t-- c\n"
      (by decide +kernel) with ⟨d, d', hd, hd', hplain⟩ | ⟨e, e', he, -⟩
    · rw [hd] at hread
      exact ⟨d, d', hd, hd', hplain, hread⟩
    · rw [he] at hread
      cases hread
  · have hlines' : lines "A\n\t\tb Int\n".toList = ["A\n".toList, "\t\tb Int\n".toList] := by
      decide +kernel
    rw [hlines, hlines']
    refine .cons (.inl rfl) <| .cons (.inr ⟨[' '], ['\t', '\t'], "b Int\n".toList, gap_space, ?_,
      by decide, by decide⟩) .nil
    exact ⟨List.cons_ne_nil _ _, List.all_eq_true.1 (by decide)⟩
  · have hlines' : lines "A \n b Int\t\n".toList = ["A \n".toList, " b Int\t\n".toList] := by
      decide +kernel
    rw [hlines, hlines']
    refine .cons (.inr ⟨"A".toList, [' '], gap_space.2, by decide, by decide⟩) <|
      .cons (.inr ⟨" b Int".toList, ['\t'], List.all_eq_true.1 (by decide), by decide, by decide⟩)
        .nil

end Document

end EntityModels
