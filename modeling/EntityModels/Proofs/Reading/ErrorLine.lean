import EntityModels.Proofs.Reading.Refusal

namespace EntityModels

namespace Document

variable {options : Options} {done : List (List Char)} {line : List Char} {s : Stage} {e : Failure}

/-- A text that begins with these lines is refused with the failure of the last one. -/
theorem parse_of_refused (hdone : ∀ l ∈ done, Terminated l) (hline : Terminated line)
    (hrun : Stage.run options Stage.inPlace .start done {} = some s)
    (hr : refusal options s.opened.isSome line = some e) {text : String}
    (htext : done.flatten ++ line <+: text.toList) :
    parse options text = .error (e.within (Position.start.after done.flatten)) := by
  obtain ⟨more, htext⟩ := htext
  refine parse_eq_error_iff.2 <|
    Stage.refused_iff.2 ⟨done, line, lines more, s, e, ?_, hrun, hr, rfl⟩
  rw [← htext, List.append_assoc, lines_flatten_append hdone, lines_terminated_append hline]

theorem offset_of_refusal {opened : Bool} (h : refusal options opened line = some e)
    (done : List (List Char)) :
    byteLength done.flatten ≤ (e.within (Position.start.after done.flatten)).offset ∧
      (e.within (Position.start.after done.flatten)).offset ≤
        byteLength (done.flatten ++ line.takeWhile (· != '\n')) := by
  have hoffset : (e.within (Position.start.after done.flatten)).offset =
      byteLength done.flatten + e.offset := by
    change (Position.start.after done.flatten).offset + e.offset = _
    rw [Position.after_offset]
    exact congrArg (· + e.offset) (Nat.zero_add _)
  have hle := (refusal_along h).offset_le
  rw [hoffset, byteLength_append]
  change e.offset ≤ 0 + byteLength (line.takeWhile (· != '\n')) at hle
  omega

/-- An error points at the first line that does not fit. The lines before it are a document of their
own, the error is on that line, and it is the same whatever follows the line. -/
theorem error_at_first_offending_line {options : Options} {text : String} {e : Failure}
    (h : parse options text = .error e) : ∃ done line rest,
      lines text.toList = done ++ line :: rest ∧ e.location.line = done.length + 1 ∧
      (∃ d, parse options (String.ofList done.flatten) = .ok d) ∧
      byteLength done.flatten ≤ e.offset ∧
      e.offset ≤ byteLength (done.flatten ++ line.takeWhile (· != '\n')) ∧
      (Terminated line → ∀ t : String, done.flatten ++ line <+: t.toList →
        parse options t = .error e) := by
  obtain ⟨done, line, rest, s, e', hls, hdone, hrun, hr, rfl, hnumber⟩ :=
    exists_of_parse_eq_error h
  obtain ⟨hfrom, hto⟩ := offset_of_refusal hr done
  refine ⟨done, line, rest, hls, hnumber, ?_, hfrom, hto, fun hline t ht ↦ ?_⟩
  · exact ⟨_, (parse_lines_iff hdone).2 ⟨s, hrun, rfl⟩⟩
  · exact parse_of_refused hdone hline hrun hr ht

theorem error_at_field_without_type : ∃ e, parse default "A\n  b Int\n  c\nB\n" = .error e ∧
    e.location.line = 3 ∧ (∃ d, parse default "A\n  b Int\n" = .ok d) ∧
      10 ≤ e.offset ∧ e.offset ≤ 13 ∧ parse default "A\n  b Int\n  c\n -- more" = .error e := by
  have hlines : lines "A\n  b Int\n  c\nB\n".toList =
      ["A\n".toList, "  b Int\n".toList, "  c\n".toList, "B\n".toList] := by decide +kernel
  have h : parse default "A\n  b Int\n  c\nB\n" = .error
      ⟨.structuralMismatch, "whitespace before field type", "end of line", ⟨3, 4, 13⟩, false⟩ := by
    let header : Stage := ⟨[], some ⟨⟨"A", ⟨1, 1⟩, ⟨1, 2⟩⟩, false, none, [], ⟨1, 1⟩, ⟨2, 1⟩⟩⟩
    let place := Stage.inPlace (Position.start.after "A\n".toList)
    have hheader : Stage.step default (Stage.inPlace .start) "A\n".toList {} = some header := by
      decide +kernel
    have hfield : header.step default place "  b Int\n".toList =
        some ((header.step default place "  b Int\n".toList).getD {}) := by decide +kernel
    rw [parse_eq_error_iff, hlines]
    exact .later hheader <| .later hfield <| .here (e := ⟨.structuralMismatch,
      "whitespace before field type", "end of line", ⟨1, 4, 3⟩, false⟩) (by decide +kernel)
  obtain ⟨done, line, rest, hls, hnumber, hbefore, hfrom, hto, hafter⟩ :=
    error_at_first_offending_line h
  rw [hlines] at hls
  match done, hnumber with
  | [_, _], _ =>
    cases hls
    refine ⟨_, h, rfl, hbefore, hfrom, hto, hafter ⟨"  c".toList, ?_, ?_⟩ _ ?_⟩
    · decide
    · decide
    · exact ⟨" -- more".toList, by decide⟩

end Document

end EntityModels
