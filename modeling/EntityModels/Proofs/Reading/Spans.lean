import EntityModels.Grammar.Block
import EntityModels.Proofs.Grammar.Spans
import EntityModels.Proofs.Reading.Blocks

namespace EntityModels

variable {options : Options} {s t : ParserState}

theorem BlankLine.trailing_placed {c d : Cursor} {line : BlankLine}
    (h : trailing c = .ok (some line) d) : Placed c d [line.span] [⟨line.span, line.text⟩] := by
  rw [trailing_apply] at h
  split at h
  · cases h
    have hrest : c.rest = (String.ofList c.rest).toList ++ [] := by
      rw [String.toList_ofList, List.append_nil]
    refine .text hrest ?_
    rw [String.toList_ofList]
    rfl
  · cases h

theorem Document.nextItem_placed {item : Item} (h : nextItem options s = .ok (some item) t) :
    Placed s.cursor t.cursor [item.span] item.labels ∧ item.Nested := by
  obtain ⟨next, s₁, h₁, hitem⟩ := bind_ok h
  cases h₁
  split at hitem
  · cases hitem
  obtain ⟨line, s₂, h₂, hitem⟩ := bind_ok hitem
  have htrailing := Parser.ofReader_ok h₂
  cases line with
  | some line =>
    cases hitem
    unfold trailing at htrailing
    split at htrailing
    · have hplaced := BlankLine.trailing_placed htrailing
      exact ⟨hplaced, hplaced.start_le_stop⟩
    · cases htrailing
  | none =>
    obtain ⟨item', s₃, h₃, hsome⟩ := bind_ok hitem
    cases hsome
    obtain ⟨hplaced, hnested⟩ := Item.required_placed h₃
    have hforward : Forward (trailing options) := .ite BlankLine.trailing_forward (.pure _)
    exact ⟨hplaced.behind (hforward.leads htrailing), hnested⟩

theorem Block.nextItem_placed {item : Item} (h : nextItem options s = .ok (some item) t) :
    Placed s.cursor t.cursor [item.span] item.labels ∧ item.Nested := by
  obtain ⟨closed, s₁, h₁, hitem⟩ := bind_ok h
  cases h₁
  split at hitem
  · cases hitem
  obtain ⟨next, s₂, h₂, hitem⟩ := bind_ok hitem
  cases h₂
  split at hitem
  · cases hitem
  obtain ⟨item', s₃, h₃, hsome⟩ := bind_ok hitem
  cases hsome
  exact Item.required_placed h₃

theorem Document.nested_of_items {next : Parser (Option Item)} {hf : Forward next}
    (hnext : ∀ s item t, next s = .ok (some item) t →
      Placed s.cursor t.cursor [item.span] item.labels ∧ item.Nested) {d : Document}
    (h : (do
      let start ← Reader.position
      let items ← collect next hf
      let stop ← Reader.position
      return ⟨items, start.spanTo stop⟩ : Parser Document) s = .ok d t) :
    d.Nested ∧ ∀ label ∈ d.labels, s.cursor.Holds label := by
  obtain ⟨start, s₁, h₁, hitems⟩ := bind_ok h
  obtain ⟨items, s₂, h₂, hstop⟩ := bind_ok hitems
  obtain ⟨stop, s₃, h₃, hdocument⟩ := bind_ok hstop
  cases h₁
  cases h₃
  cases hdocument
  have hplaced := collect_placed (fun _ _ _ hs ↦ (hnext _ _ _ hs).1) h₂
  exact ⟨⟨hplaced.inOrder, forall_of_collect (fun _ _ _ hs ↦ (hnext _ _ _ hs).2) h₂⟩, hplaced.held⟩

namespace Document

variable {text : String} {d : Document}

theorem nested_of_parse (h : parse options text = .ok d) :
    d.Nested ∧ ∀ label ∈ d.labels, (Cursor.ofText text.toList).Holds label := by
  unfold parse at h
  split at h
  · next t hread =>
    cases h
    exact nested_of_items (fun _ _ _ ↦ nextItem_placed) hread
  · cases h

theorem nested_of_block (h : Block.parse options text = .ok d) :
    d.Nested ∧ ∀ label ∈ d.labels, (Cursor.ofText text.toList).Holds label := by
  unfold Block.parse at h
  cases hafter : Block.afterOpening options.markers.opening text.toList .start with
  | error e =>
    rw [hafter] at h
    cases h
  | ok inside =>
    rw [hafter] at h
    have hleads := Block.leadsTo_of_afterOpening hafter
    dsimp only [bind, Except.bind] at h
    split at h
    · next t hread =>
      cases h
      obtain ⟨hnested, hheld⟩ := nested_of_items (fun _ _ _ ↦ Block.nextItem_placed) hread
      exact ⟨hnested, fun label hl ↦ (hheld label hl).of_leadsTo hleads⟩
    · cases h

/-- Names and verbatim lines stand where their spans say, every node lies within its parent and
behind the node in front of it, and a walk meets each node once, in the order of the text. -/
theorem spans_faithful (h : parse options text = .ok d ∨ Block.parse options text = .ok d) :
    (∀ label ∈ d.labels, label.span.covered text.toList = label.text.toList) ∧ d.Nested ∧
      (d.visits.map fun v ↦ v.span.start).Pairwise (· ≤ ·) ∧ d.visits.Perm d.nodes := by
  obtain ⟨hnested, hheld⟩ := h.elim nested_of_parse nested_of_block
  exact ⟨fun label hl ↦ (hheld label hl).covered, hnested, hnested.ordered.ascends,
    d.visits_perm_nodes⟩

theorem spans_of_constraint : ∃ d, parse default "A\n  b Int\n  C b\n" = .ok d ∧
    (∀ label ∈ d.labels, label.span.covered "A\n  b Int\n  C b\n".toList = label.text.toList) ∧
      d.labels.map Label.text = ["A", "b", "Int", "C", "b"] ∧
      (d.visits.map fun v ↦ v.span.start).Pairwise (· ≤ ·) := by
  have hlabels : (match parse default "A\n  b Int\n  C b\n" with
      | .ok d => d.labels.map Label.text
      | .error _ => []) = ["A", "b", "Int", "C", "b"] := by decide +kernel
  split at hlabels
  · next d hd =>
    obtain ⟨hcovered, -, hascends, -⟩ := spans_faithful (.inl hd)
    exact ⟨d, hd, hcovered, hlabels, hascends⟩
  · cases hlabels

end Document

end EntityModels
