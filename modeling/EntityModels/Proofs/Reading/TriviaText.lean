import EntityModels.Proofs.Grammar.Results
import EntityModels.Proofs.Reading.BlankEnd
import EntityModels.Proofs.Reading.RoundTrip

namespace EntityModels

def TriviaLine (line : List Char) : Prop :=
  (∃ blanks, (∀ c ∈ blanks, isHorizontalSpace c) ∧ line = blanks ++ ['\n']) ∨
    ∃ blanks body, (∀ c ∈ blanks, isHorizontalSpace c) ∧ '\n' ∉ body ∧
      line = blanks ++ (Keyword.comment.toList ++ (body ++ ['\n']))

/-- The text has no other lines than blank lines and comments. Where the options allow it, the last
one may be a blank end. -/
def TriviaText (options : Options) (text : List Char) : Prop :=
  ∀ line ∈ lines text, TriviaLine line ∨
    options.trailingBlank ∧ (lines text).getLast? = some line ∧ Blank line

theorem TriviaLine.of_blank {l : BlankLine} {line : List Char} (h : l.WellFormed)
    (ht : l.text.toList = line) : TriviaLine line := by
  obtain ⟨blanks, hblanks, htext⟩ := h
  exact .inl ⟨blanks, hblanks, ht ▸ htext⟩

theorem TriviaLine.of_comment {l : CommentLine} {line : List Char} (h : l.Produced)
    (ht : l.text.toList = line) : TriviaLine line := by
  obtain ⟨blanks, hblanks, hbody, htext⟩ := h
  exact .inr ⟨blanks, l.body.toList, hblanks, hbody, ht ▸ htext⟩

theorem Blank.linewise {line : List Char} (h : Blank line) : Linewise [line] :=
  ⟨.inr ⟨rfl, h.1, Stage.newline_of_blank h.2⟩, trivial⟩

namespace Stage

variable {options : Options} {line : List Char} {s s' : Stage} {p : Position}

theorem step_trivia (h : TriviaLine line) (ho : s.opened = none) :
    ∃ item : Item, item.entity? = none ∧
      s.step options (inPlace p) line = some (s.push item) := by
  rcases h with ⟨blanks, hblanks, hline⟩ | ⟨blanks, body, hblanks, hbody, hline⟩
  · let l : BlankLine := ⟨String.ofList line, wholeSpan line⟩
    have hl : l.WellFormed := ⟨blanks, hblanks, by rw [String.toList_ofList, hline]⟩
    obtain ⟨found, -, hstep⟩ := @step_blank options (inPlace p) s l hl ho
    rw [String.toList_ofList] at hstep
    exact ⟨.blank found, rfl, hstep⟩
  · let l : CommentLine := ⟨String.ofList line, wholeSpan line⟩
    have hl : l.WellFormed := ⟨blanks, body, hblanks, hbody, by rw [String.toList_ofList, hline]⟩
    obtain ⟨found, -, hstep⟩ := @step_comment options (inPlace p) s l hl ho
    rw [String.toList_ofList] at hstep
    exact ⟨.comment found, rfl, hstep⟩

theorem step_of_blank (h : Blank line) (s : Stage) (p : Position) :
    s.step options (inPlace p) line = s.trailing? options (inPlace p) line := by
  have hstrict : s.step options.strictEnd (inPlace p) line = none := by
    have hsome := @refusal_isSome options.strictEnd line [] h.linewise s p
    rw [Document.refusal_of_blank h] at hsome
    simpa using hsome.symm
  cases ho : options.trailingBlank with
  | false =>
    have hoptions : options = options.strictEnd := by rw [Options.strictEnd, ← ho]
    rw [hoptions, hstrict, trailing?_strictEnd]
  | true =>
    have hoptions : options = options.laxEnd := by rw [Options.laxEnd, ← ho]
    rw [hoptions, step_lax, hstrict]
    rfl

/-- So far each line is an item, to the letter. -/
structure Verbatim (options : Options) (s : Stage) (done : List (List Char)) : Prop where
  closed : s.opened = none
  items : s.items.map Item.trivia? = done.map fun line ↦ some (String.ofList line)
  trivia : ∀ line ∈ done, TriviaLine line ∨ options.trailingBlank ∧ Blank line

def kept (s : Stage) : List Char := (s.items.filterMap Item.trivia?).flatMap String.toList

/-- There is an entity, and for this alone less is kept than there was. -/
structure Lossy (s : Stage) (done : List (List Char)) : Prop where
  declares : ∃ e, Item.entity e ∈ s.items
  less : s.kept.length < done.flatten.length

variable {done : List (List Char)}

theorem kept_push {item : Item} {text : String} (h : item.trivia? = some text) :
    (s.push item).kept = s.kept ++ text.toList := by
  simp [kept, push_items, h]

theorem kept_of_opened {e : Entity} (ho : s.opened = some e) :
    s.kept = (s.complete.filterMap Item.trivia?).flatMap String.toList := by
  have he : [Item.entity e].filterMap Item.trivia? = [] := rfl
  simp [kept, items, ho, he]

theorem Verbatim.kept_eq (h : s.Verbatim options done) : s.kept = done.flatten := by
  have hkept : s.items.filterMap Item.trivia? = done.map String.ofList := by
    have hid := congrArg (List.filterMap id) h.items
    simpa [List.filterMap_map, Function.comp_def] using hid
  rw [kept, hkept, List.flatMap_map]
  simp [List.flatMap_def]

theorem Lossy.of_opened {e : Entity} (ho : s.opened = some e)
    (h : s.kept.length < done.flatten.length) : s.Lossy done :=
  ⟨⟨e, by simp [items, ho]⟩, h⟩

theorem Lossy.entities_ne (h : s.Lossy done) : s.items.filterMap Item.entity? ≠ [] := by
  obtain ⟨e, he⟩ := h.declares
  intro hnil
  have hnone := List.filterMap_eq_nil_iff.1 hnil _ he
  cases hnone

theorem Verbatim.push (h : s.Verbatim options done) {item : Item} {text : String}
    (hitem : item.trivia? = some text) (ht : text.toList = line)
    (hline : TriviaLine line ∨ options.trailingBlank ∧ Blank line) :
    (s.push item).Verbatim options (done ++ [line]) := by
  refine ⟨rfl, ?_, fun l hl ↦ ?_⟩
  · simp [push_items, h.items, hitem, ← ht]
  · rcases List.mem_append.1 hl with hl | hl
    · exact h.trivia l hl
    · obtain rfl := List.mem_singleton.1 hl
      exact hline

theorem Lossy.push (h : s.Lossy done) {item : Item} {text : String}
    (hitem : item.trivia? = some text) (ht : text.toList = line) :
    (s.push item).Lossy (done ++ [line]) := by
  obtain ⟨e, he⟩ := h.declares
  have hless := h.less
  refine ⟨⟨e, by simp [push_items, he]⟩, ?_⟩
  rw [kept_push hitem, ht]
  simpa using hless

/-- With one line more everything is kept still, or there is an entity. -/
theorem step_kept (hl : Linewise [line]) (h : s.Verbatim options done ∨ s.Lossy done)
    (hs : s.step options (inPlace p) line = some s') :
    s'.Verbatim options (done ++ [line]) ∨ s'.Lossy (done ++ [line]) := by
  have hpos := List.length_pos_iff.2 hl.ne_nil
  have hpush {item : Item} {text : String} (hitem : item.trivia? = some text)
      (ht : text.toList = line) (hline : TriviaLine line ∨ options.trailingBlank ∧ Blank line) :
      (s.push item).Verbatim options (done ++ [line]) ∨ (s.push item).Lossy (done ++ [line]) :=
    h.imp (·.push hitem ht hline) (·.push hitem ht)
  have hkept : s.kept.length < (done ++ [line]).flatten.length := by
    have hle : s.kept.length ≤ done.flatten.length := by
      rcases h with h | h
      · rw [h.kept_eq]
      · exact h.less.le
    simp only [List.flatten_append, List.length_append, List.flatten_singleton]
    omega
  rcases step_inversion hs with ⟨e, m, ho, -, rfl⟩ | ⟨e, -, rfl⟩ | ⟨-, l, hr, rfl⟩ |
    ⟨-, l, hr, rfl⟩ | ⟨ho, hne, hall, rfl⟩
  · refine .inr (.of_opened rfl ?_)
    rw [kept_of_opened rfl]
    rw [kept_of_opened ho] at hkept
    exact hkept
  · refine .inr (.of_opened rfl ?_)
    rw [kept_of_opened rfl]
    exact hkept
  · have htext := (BlankLine.reader_isLine hl hr).verbatim _ rfl
    rw [readAlone_ofReader] at hr
    obtain ⟨d, hr⟩ := Reader.ok_of_value? hr
    exact hpush rfl htext (.inl (.of_blank (BlankLine.reader_returns _ _ _ hr) htext))
  · have htext := (CommentLine.reader_isLine hl hr).verbatim _ rfl
    rw [readAlone_ofReader] at hr
    obtain ⟨d, hr⟩ := Reader.ok_of_value? hr
    exact hpush rfl htext (.inl (.of_comment (CommentLine.reader_returns _ _ _ hr) htext))
  · exact hpush rfl String.toList_ofList (.inr ⟨ho, hne, hall⟩)

variable {ls : List (List Char)}

theorem run_kept (hls : Linewise (done ++ ls)) (h : s.Verbatim options done ∨ s.Lossy done)
    (hrun : run options inPlace p ls s = some s') :
    s'.Verbatim options (done ++ ls) ∨ s'.Lossy (done ++ ls) := by
  induction ls generalizing done s p with
  | nil =>
    cases hrun
    rwa [List.append_nil]
  | cons line rest ih =>
    obtain ⟨s'', hstep, hrun⟩ := run_cons_eq_some_iff.1 hrun
    have hstep' := step_kept hls.right_of_append.alone h hstep
    rw [List.append_cons] at hls ⊢
    exact ih hls hstep' hrun

theorem run_trivia (ho : s.opened = none)
    (h : ∀ line ∈ ls, TriviaLine line ∨ options.trailingBlank ∧ Blank line) (p : Position) :
    ∃ s', run options inPlace p ls s = some s' ∧
      s'.items.filterMap Item.entity? = s.items.filterMap Item.entity? := by
  induction ls generalizing s p with
  | nil => exact ⟨s, rfl, rfl⟩
  | cons line rest ih =>
    obtain ⟨item, hitem, hstep⟩ : ∃ item : Item, item.entity? = none ∧
        s.step options (inPlace p) line = some (s.push item) := by
      rcases h line List.mem_cons_self with ht | ⟨htrailing, hb⟩
      · exact step_trivia ht ho
      · exact ⟨.blank ⟨String.ofList line, inPlace p (wholeSpan line)⟩, rfl,
          (step_of_blank hb s p).trans (if_pos ⟨htrailing, hb⟩)⟩
    obtain ⟨s', hrun, hs'⟩ := ih (s := s.push item) rfl (fun l hl ↦ h l (.tail line hl))
      (p.after line)
    refine ⟨s', ?_, ?_⟩
    · rw [run_cons, hstep]
      exact hrun
    · rw [hs', push_items]
      simp [hitem]

end Stage

theorem TriviaText.of_lines {options : Options} {text : List Char}
    (h : ∀ line ∈ lines text, TriviaLine line ∨ options.trailingBlank ∧ Blank line) :
    TriviaText options text := by
  intro line hl
  refine (h line hl).imp_right fun ⟨htrailing, hb⟩ ↦ ⟨htrailing, ?_, hb⟩
  obtain ⟨before, rest, hsplit⟩ := List.append_of_mem hl
  have hlines := lines_linewise text
  rw [hsplit] at hlines ⊢
  rw [hb.eq_nil hlines.right_of_append, List.getLast?_concat]

namespace Document

/-- Trivia is lossless, and nothing else is. A text has no other lines than blank lines and comments
if and only if it is a document without entities, and if and only if it is a document of which the
trivia is the text. Each line is one item then. -/
theorem triviaText_eq_iff (options : Options) (text : String) :
    (TriviaText options text.toList ↔ ∃ d, parse options text = .ok d ∧ d.entities = []) ∧
    (TriviaText options text.toList ↔ ∃ d, parse options text = .ok d ∧ d.triviaText = text) ∧
    ∀ d, parse options text = .ok d → d.entities = [] →
      d.items.length = (lines text.toList).length := by
  have hls := lines_linewise text.toList
  have hkept {d : Document} (hd : parse options text = .ok d) :
      ∃ s : Stage, d = ⟨s.items, wholeSpan text.toList⟩ ∧
        (s.Verbatim options (lines text.toList) ∨ s.Lossy (lines text.toList)) := by
    obtain ⟨s, hrun, rfl⟩ := parse_eq_ok_iff.1 hd
    have hstart : Stage.Verbatim options {} [] := ⟨rfl, rfl, fun _ h ↦ by cases h⟩
    exact ⟨s, rfl, @Stage.run_kept options {} s _ [] _ hls (.inl hstart) hrun⟩
  have htext (s : Stage) : (triviaText ⟨s.items, wholeSpan text.toList⟩).toList = s.kept := by
    rw [triviaText, String.toList_join, Stage.kept, List.flatMap_def]
  have hverbatim {d : Document} (hd : parse options text = .ok d) (he : d.entities = []) :
      ∃ s : Stage, d = ⟨s.items, wholeSpan text.toList⟩ ∧
        s.Verbatim options (lines text.toList) := by
    obtain ⟨s, rfl, hs | hs⟩ := hkept hd
    · exact ⟨s, rfl, hs⟩
    · exact absurd he hs.entities_ne
  have hread (h : TriviaText options text.toList) :
      ∃ d, parse options text = .ok d ∧ d.entities = [] := by
    obtain ⟨s, hrun, hs⟩ := Stage.run_trivia (s := {}) rfl
      (fun line hl ↦ (h line hl).imp_right fun ht ↦ ⟨ht.1, ht.2.2⟩) .start
    exact ⟨_, parse_eq_ok_iff.2 ⟨s, hrun, rfl⟩, hs⟩
  refine ⟨⟨hread, ?_⟩, ⟨fun h ↦ ?_, ?_⟩, fun d hd he ↦ ?_⟩
  · rintro ⟨d, hd, he⟩
    obtain ⟨s, rfl, hs⟩ := hverbatim hd he
    exact .of_lines hs.trivia
  · obtain ⟨d, hd, he⟩ := hread h
    obtain ⟨s, rfl, hs⟩ := hverbatim hd he
    refine ⟨_, hd, String.toList_inj.1 ?_⟩
    rw [htext, hs.kept_eq, lines_flatten]
  · rintro ⟨d, hd, ht⟩
    obtain ⟨s, rfl, hs | hs⟩ := hkept hd
    · exact .of_lines hs.trivia
    · -- with an entity in it the document keeps less than the text
      have hless := hs.less
      rw [← htext, ht, lines_flatten] at hless
      omega
  · obtain ⟨s, rfl, hs⟩ := hverbatim hd he
    simpa using congrArg List.length hs.items

theorem comment_triviaText_eq :
    let d : Document := ⟨[.comment ⟨"--\n", ⟨⟨1, 1⟩, ⟨2, 1⟩⟩⟩, .blank ⟨" ", ⟨⟨2, 1⟩, ⟨2, 2⟩⟩⟩],
      ⟨⟨1, 1⟩, ⟨2, 2⟩⟩⟩
    parse (default : Options).laxEnd "--\n " = .ok d ∧ d.entities = [] ∧
      d.items.length = (lines "--\n ".toList).length ∧
        TriviaText (default : Options).laxEnd "--\n ".toList := by
  intro d
  have hd : parse (default : Options).laxEnd "--\n " = .ok d :=
    parse_eq_ok_iff.2 ⟨⟨d.items, none⟩, by decide, rfl⟩
  obtain ⟨hentities, -, hlength⟩ := triviaText_eq_iff (default : Options).laxEnd "--\n "
  exact ⟨hd, rfl, hlength d hd rfl, hentities.2 ⟨d, hd, rfl⟩⟩

end Document

end EntityModels
