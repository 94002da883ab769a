import EntityModels.Parsing.Collect
import EntityModels.Proofs.Tree.Nesting

namespace EntityModels

/-- The text of the label stands in the unread text where its span says. -/
def Cursor.Holds (c : Cursor) (label : Label) : Prop :=
  ∃ pre post, c.rest = pre ++ (label.text.toList ++ post) ∧ label.span =
    (c.position.after pre).spanTo ((c.position.after pre).after label.text.toList)

/-- The spans lie in order between the cursors, and the labels are held by the text. -/
structure Placed (c d : Cursor) (spans : List Span) (labels : List Label) : Prop where
  leads : c.LeadsTo d
  inOrder : InOrder c.position.location spans d.position.location
  held : ∀ label ∈ labels, c.Holds label

section

variable {c d e : Cursor} {spans more : List Span} {labels others : List Label}

theorem Cursor.Holds.of_leadsTo {label : Label} (h : c.LeadsTo d) (k : d.Holds label) :
    c.Holds label := by
  obtain ⟨text, hrest, hposition⟩ := h
  obtain ⟨pre, post, hd, hspan⟩ := k
  refine ⟨text ++ pre, post, ?_, ?_⟩
  · rw [hrest, hd, List.append_assoc]
  · rw [hspan, hposition, Position.after_append]

theorem Cursor.Holds.covered {text : List Char} {label : Label}
    (h : (Cursor.ofText text).Holds label) : label.span.covered text = label.text.toList := by
  obtain ⟨pre, post, hrest, hspan⟩ := h
  have htext : text = pre ++ (label.text.toList ++ post) := hrest
  rw [htext, hspan]
  exact Span.covered_spanTo pre label.text.toList post

namespace Placed

theorem nil (h : c.LeadsTo d) : Placed c d [] [] := ⟨h, h.location_le, List.forall_mem_nil _⟩

theorem append (h : Placed c d spans labels) (k : Placed d e more others) :
    Placed c e (spans ++ more) (labels ++ others) :=
  ⟨h.leads.trans k.leads, h.inOrder.append k.inOrder, List.forall_mem_append.2
    ⟨h.held, fun label hl ↦ (k.held label hl).of_leadsTo h.leads⟩⟩

theorem behind (k : Placed d e spans labels) (h : c.LeadsTo d) : Placed c e spans labels :=
  (nil h).append k

theorem before (h : Placed c d spans labels) (k : d.LeadsTo e) : Placed c e spans labels := by
  have happend := h.append (nil k)
  rwa [List.append_nil, List.append_nil] at happend

theorem wrap (h : Placed c d spans labels) :
    Placed c d [c.position.spanTo d.position] labels :=
  ⟨h.leads, ⟨Location.le_refl _, h.leads.location_le, Location.le_refl _⟩, h.held⟩

theorem text {text : String} {rest : List Char} (h : c.rest = text.toList ++ rest)
    (hd : d = c.past text.toList rest) : Placed c d [c.position.spanTo d.position]
      [⟨c.position.spanTo d.position, text⟩] := by
  subst hd
  refine ⟨.past h, (nil (.past h)).wrap.inOrder, List.forall_mem_singleton.2 ⟨[], rest, h, rfl⟩⟩

end Placed

end

/-- What is read again and again lies one behind the other. -/
theorem collect_placed {σ α : Type} [HasCursor σ] {step : EStateM Failure σ (Option α)}
    {hf : Forward step} {span : α → Span} {labels : α → List Label}
    (h : ∀ s a t, step s = .ok (some a) t →
      Placed (HasCursor.cursor s) (HasCursor.cursor t) [span a] (labels a))
    {s t : σ} {as : List α} (hs : collect step hf s = .ok as t) :
    Placed (HasCursor.cursor s) (HasCursor.cursor t) (as.map span) (as.flatMap labels) := by
  fun_induction collect step hf s generalizing as t with
  | case1 | case4 => cases hs
  | case2 s u hu =>
    cases hs
    exact .nil ((hf s).1 _ _ hu)
  | case5 s a u hu =>
    cases hs
    exact .nil ((hf s).1 _ _ hu)
  | case3 s a u hu _ as v hv ih =>
    cases hs
    exact (h s a u hu).append (ih hv)

end EntityModels
