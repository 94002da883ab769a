import EntityModels.Text.Cursor

namespace EntityModels

/-- The lines of a text, each with the line feed that ends it. -/
def lines : List Char → List (List Char)
  | [] => []
  | c :: text =>
    if c = '\n' then [c] :: lines text
    else match lines text with
      | [] => [[c]]
      | line :: rest => (c :: line) :: rest

/-- A line with its line feed. -/
def Terminated (line : List Char) : Prop := ∃ body, '\n' ∉ body ∧ line = body ++ ['\n']

/-- What can be left of a text behind its last line feed. -/
def Unterminated (line : List Char) : Prop := line ≠ [] ∧ '\n' ∉ line

/-- Lines as a text has them: only the last one may be without its line feed. -/
def Linewise : List (List Char) → Prop
  | [] => True
  | line :: rest => (Terminated line ∨ rest = [] ∧ Unterminated line) ∧ Linewise rest

def firstLine (text : List Char) : List Char :=
  text.takeWhile (· != '\n') ++ (text.dropWhile (· != '\n')).take 1

def afterLine (text : List Char) : List Char := (text.dropWhile (· != '\n')).drop 1

def Cursor.nextLine (c : Cursor) : Cursor := c.past (firstLine c.rest) (afterLine c.rest)

theorem firstLine_afterLine (text : List Char) : firstLine text ++ afterLine text = text := by
  rw [firstLine, afterLine, List.append_assoc, List.take_append_drop,
    List.takeWhile_append_dropWhile]

theorem Terminated.ne_nil {line : List Char} (h : Terminated line) : line ≠ [] := by
  obtain ⟨body, -, rfl⟩ := h
  simp

theorem Terminated.newline_mem {line : List Char} (h : Terminated line) : '\n' ∈ line := by
  obtain ⟨body, -, rfl⟩ := h
  simp

theorem lines_of_notMem {text : List Char} (hne : text ≠ []) (h : '\n' ∉ text) :
    lines text = [text] := by
  induction text with
  | nil => exact absurd rfl hne
  | cons c text ih =>
    have hc : c ≠ '\n' := fun hc ↦ h (by simp [hc])
    cases text with
    | nil => simp [lines, hc]
    | cons d text =>
      have ht := ih (by simp) fun hm ↦ h (List.mem_cons_of_mem c hm)
      rw [lines, if_neg hc, ht]

theorem lines_terminated_append {line : List Char} (h : Terminated line) (text : List Char) :
    lines (line ++ text) = line :: lines text := by
  obtain ⟨body, hb, rfl⟩ := h
  induction body with
  | nil => simp [lines]
  | cons c body ih =>
    have hc : c ≠ '\n' := fun hc ↦ hb (by simp [hc])
    have ht := ih fun hm ↦ hb (List.mem_cons_of_mem c hm)
    rw [List.cons_append, List.cons_append, lines, if_neg hc, ht]

@[simp] theorem lines_flatten (text : List Char) : (lines text).flatten = text := by
  induction text with
  | nil => rfl
  | cons c text ih =>
    rw [lines]
    split
    · simp [ih]
    · split
      · next h => simp_all
      · next line rest h => simp_all

theorem lines_linewise (text : List Char) : Linewise (lines text) := by
  induction text with
  | nil => trivial
  | cons c text ih =>
    rw [lines]
    split
    · next hc => exact ⟨.inl ⟨[], by simp, by simp [hc]⟩, ih⟩
    · next hc =>
      split
      · exact ⟨.inr ⟨rfl, by simp, by simpa using Ne.symm hc⟩, trivial⟩
      · next line rest h =>
        rw [h] at ih
        refine ⟨?_, ih.2⟩
        rcases ih.1 with ⟨body, hb, rfl⟩ | ⟨hr, -, hu⟩
        · exact .inl ⟨c :: body, by simp [hb, Ne.symm hc], rfl⟩
        · exact .inr ⟨hr, by simp, by simp [hu, Ne.symm hc]⟩

theorem Terminated.linewise {line : List Char} (h : Terminated line) : Linewise [line] :=
  ⟨.inl h, trivial⟩

theorem Linewise.lines_flatten {ls : List (List Char)} (h : Linewise ls) :
    lines ls.flatten = ls := by
  induction ls with
  | nil => rfl
  | cons line rest ih =>
    obtain ⟨ht | ⟨rfl, hne, hu⟩, hr⟩ := h
    · rw [List.flatten_cons, lines_terminated_append ht, ih hr]
    · simpa using lines_of_notMem hne hu

theorem Linewise.ne_nil {line : List Char} {rest : List (List Char)}
    (h : Linewise (line :: rest)) : line ≠ [] := by
  rcases h.1 with ht | ⟨-, hne, -⟩
  · exact ht.ne_nil
  · exact hne

/-- A line of a text is a text of one line. -/
theorem Linewise.alone {line : List Char} {rest : List (List Char)}
    (h : Linewise (line :: rest)) : Linewise [line] := by
  rcases h.1 with ht | ⟨-, hu⟩
  · exact ⟨.inl ht, trivial⟩
  · exact ⟨.inr ⟨rfl, hu⟩, trivial⟩

theorem Linewise.newline_mem {line : List Char} {rest : List (List Char)}
    (h : Linewise (line :: rest)) : '\n' ∈ line ∨ rest.flatten = [] := by
  rcases h.1 with ht | ⟨rfl, -⟩
  · exact .inl ht.newline_mem
  · exact .inr rfl

theorem firstLine_of_terminated {line : List Char} (h : Terminated line) (text : List Char) :
    firstLine (line ++ text) = line ∧ afterLine (line ++ text) = text := by
  obtain ⟨body, hb, rfl⟩ := h
  have hp : ∀ c ∈ body, (c != '\n') = true := fun c hc ↦ by
    simpa using fun hn : c = '\n' ↦ hb (hn ▸ hc)
  simp [firstLine, afterLine, List.takeWhile_append_of_pos hp, List.dropWhile_append_of_pos hp]

theorem takeWhile_of_all {test : Char → Bool} {text : List Char} (h : ∀ c ∈ text, test c = true) :
    text.takeWhile test = text ∧ text.dropWhile test = [] := by
  have ht := @List.takeWhile_append_of_pos _ _ text [] h
  have hd := @List.dropWhile_append_of_pos _ _ text [] h
  simp only [List.append_nil, List.takeWhile_nil, List.dropWhile_nil] at ht hd
  exact ⟨ht, hd⟩

theorem takeWhile_of_head {test : Char → Bool} {text : List Char}
    (h : text.head?.any test = false) : text.takeWhile test = [] ∧ text.dropWhile test = text := by
  cases text with
  | nil => exact ⟨rfl, rfl⟩
  | cons c text =>
    have hc : test c = false := h
    simp [hc]

theorem firstLine_of_notMem {text : List Char} (h : '\n' ∉ text) :
    firstLine text = text ∧ afterLine text = [] := by
  have hp : ∀ c ∈ text, (c != '\n') = true := fun c hc ↦ by
    simpa using fun hn : c = '\n' ↦ h (hn ▸ hc)
  obtain ⟨ht, hd⟩ := takeWhile_of_all hp
  simp [firstLine, afterLine, hd, ht]

theorem firstLine_append {text : List Char} (h : '\n' ∉ text) (rest : List Char) :
    firstLine (text ++ rest) = text ++ firstLine rest := by
  have hp : ∀ c ∈ text, (c != '\n') = true := fun c hc ↦ by
    simpa using fun hn : c = '\n' ↦ h (hn ▸ hc)
  rw [firstLine, firstLine, List.takeWhile_append_of_pos hp, List.dropWhile_append_of_pos hp,
    List.append_assoc]

theorem firstLine_of_mem {text : List Char} (h : '\n' ∈ text) :
    (text.dropWhile (· != '\n')).head? = some '\n' ∧
      firstLine text = text.takeWhile (· != '\n') ++ ['\n'] := by
  have hd : (text.dropWhile (· != '\n')).head? = some '\n' := by
    induction text with
    | nil => cases h
    | cons c text ih =>
      by_cases hc : c = '\n'
      · simp [hc]
      · have ht := ih ((List.mem_cons.1 h).resolve_left (Ne.symm hc))
        simp [hc, ht]
  obtain ⟨rest, hr⟩ := List.head?_eq_some_iff.1 hd
  refine ⟨hd, ?_⟩
  rw [firstLine, hr]
  rfl

theorem firstLine_newline (rest : List Char) : firstLine ('\n' :: rest) = ['\n'] := rfl

theorem notMem_takeWhile {test : Char → Bool} (h : test '\n' = false) (text : List Char) :
    '\n' ∉ text.takeWhile test := by
  intro hm
  have := List.all_eq_true.1 List.all_takeWhile _ hm
  rw [h] at this
  cases this

theorem head?_dropWhile_any (test : Char → Bool) (text : List Char) :
    (text.dropWhile test).head?.any test = false := by
  have hnot := List.head?_dropWhile_not test text
  cases hd : (text.dropWhile test).head? with
  | none => rfl
  | some x =>
    rw [hd] at hnot
    exact hnot

theorem Linewise.firstLine_flatten {line : List Char} {rest : List (List Char)}
    (h : Linewise (line :: rest)) : firstLine (line :: rest).flatten = line ∧
      afterLine (line :: rest).flatten = rest.flatten := by
  rcases h.1 with ht | ⟨rfl, -, hu⟩
  · exact firstLine_of_terminated ht rest.flatten
  · rw [List.flatten_cons, List.flatten_nil, List.append_nil]
    exact firstLine_of_notMem hu

theorem Linewise.nextLine_eq {line : List Char} {rest : List (List Char)}
    (h : Linewise (line :: rest)) {c : Cursor} (hc : c.rest = (line :: rest).flatten) :
    c.nextLine = ⟨rest.flatten, c.position.after line⟩ := by
  rw [Cursor.nextLine, hc, h.firstLine_flatten.1, h.firstLine_flatten.2, Cursor.past]

theorem Linewise.offset_lt {line : List Char} {rest : List (List Char)}
    (h : Linewise (line :: rest)) (p : Position) : p.offset < (p.after line).offset := by
  obtain ⟨c, text, rfl⟩ := List.exists_cons_of_ne_nil h.ne_nil
  have := c.utf8Size_pos
  rw [Position.after_offset, byteLength_cons]
  omega

def Ended (text : List Char) : Prop := text = [] ∨ text.getLast? = some '\n'

theorem Ended.of_terminated {ls : List (List Char)} (h : ∀ line ∈ ls, Terminated line) :
    Ended ls.flatten := by
  induction ls with
  | nil => exact .inl rfl
  | cons line rest ih =>
    obtain ⟨body, -, hbody⟩ := h line List.mem_cons_self
    have hlast : line.getLast? = some '\n' := by simp [hbody]
    refine .inr ?_
    rw [List.flatten_cons, List.getLast?_append, hlast]
    rcases ih fun l hl ↦ h l (List.mem_cons_of_mem line hl) with hr | hr
    · rw [hr]
      rfl
    · rw [hr]
      rfl

theorem Linewise.terminated {ls : List (List Char)} (h : Linewise ls) (he : Ended ls.flatten) :
    ∀ line ∈ ls, Terminated line := by
  induction ls with
  | nil => intro line hl; cases hl
  | cons line rest ih =>
    obtain ⟨ht | ⟨rfl, hne, hu⟩, hr⟩ := h
    · have her : Ended rest.flatten := by
        by_cases hnil : rest.flatten = []
        · exact .inl hnil
        · refine .inr ?_
          rcases he with he | he
          · rw [List.flatten_cons, List.append_eq_nil_iff] at he
            exact absurd he.2 hnil
          · obtain ⟨c, hc⟩ := Option.ne_none_iff_exists'.1 (mt List.getLast?_eq_none_iff.1 hnil)
            rw [List.flatten_cons, List.getLast?_append, hc] at he
            rw [hc]
            exact he
      intro l hl
      rcases List.mem_cons.1 hl with rfl | hl
      · exact ht
      · exact ih hr her l hl
    · rw [List.flatten_cons, List.flatten_nil, List.append_nil] at he
      rcases he with he | he
      · exact absurd he hne
      · exact absurd (List.mem_of_getLast? he) hu

theorem Linewise.append {ls ms : List (List Char)} (h : ∀ line ∈ ls, Terminated line)
    (hm : Linewise ms) : Linewise (ls ++ ms) := by
  induction ls with
  | nil => exact hm
  | cons line rest ih =>
    refine ⟨.inl (h line List.mem_cons_self), ?_⟩
    exact ih fun l hl ↦ h l (List.mem_cons_of_mem line hl)

theorem lines_flatten_append {ls : List (List Char)} (h : ∀ line ∈ ls, Terminated line)
    (text : List Char) : lines (ls.flatten ++ text) = ls ++ lines text := by
  have hall := (Linewise.append h (lines_linewise text)).lines_flatten
  rwa [List.flatten_append, lines_flatten] at hall

theorem Ended.terminated {text : List Char} (h : Ended text) :
    ∀ line ∈ lines text, Terminated line :=
  (lines_linewise text).terminated ((lines_flatten text).symm ▸ h)

theorem Ended.lines_append {text : List Char} (h : Ended text) (more : List Char) :
    lines (text ++ more) = lines text ++ lines more := by
  have happend := lines_flatten_append h.terminated more
  rwa [lines_flatten] at happend

theorem Linewise.right_of_append {ls ms : List (List Char)} (h : Linewise (ls ++ ms)) :
    Linewise ms := by
  induction ls with
  | nil => exact h
  | cons line rest ih => exact ih h.2

theorem Linewise.of_append {ls ms : List (List Char)} (h : Linewise (ls ++ ms)) :
    Linewise ls ∧ (ms ≠ [] → ∀ line ∈ ls, Terminated line) := by
  induction ls with
  | nil => exact ⟨trivial, fun _ line hl ↦ by cases hl⟩
  | cons line rest ih =>
    obtain ⟨hrest, hterminated⟩ := ih h.2
    rcases h.1 with ht | ⟨hnil, hu⟩
    · refine ⟨⟨.inl ht, hrest⟩, fun hne l hl ↦ ?_⟩
      rcases List.mem_cons.1 hl with rfl | hl
      · exact ht
      · exact hterminated hne l hl
    · obtain ⟨rfl, rfl⟩ := List.append_eq_nil_iff.1 hnil
      exact ⟨⟨.inr ⟨rfl, hu⟩, trivial⟩, fun hne ↦ absurd rfl hne⟩

end EntityModels
