import EntityModels.Proofs.Text.Lines

namespace EntityModels

open Unicode

/-- The text with one space for each run of horizontal space, and none in front of a line feed. -/
def squeeze : List Char → List Char
  | [] => []
  | x :: text =>
    if isHorizontalSpace x then
      -- only the last character of a run counts, and only if it is not the last of the line
      if text.head?.any isWhiteSpace then squeeze text else ' ' :: squeeze text
    else x :: squeeze text

variable {text : List Char}

theorem squeeze_cons_of_not_space {x : Char} (h : isHorizontalSpace x = false) (text : List Char) :
    squeeze (x :: text) = x :: squeeze text := by
  rw [squeeze, h]
  rfl

theorem squeeze_newline (text : List Char) : squeeze ('\n' :: text) = '\n' :: squeeze text :=
  squeeze_cons_of_not_space isHorizontalSpace_newline text

theorem squeeze_cons_of_space {x : Char} (h : isHorizontalSpace x) (text : List Char) :
    squeeze (x :: text) =
      if text.head?.any isWhiteSpace then squeeze text else ' ' :: squeeze text := by
  rw [squeeze, if_pos h]

theorem isHorizontalSpace_of_not_whiteSpace {x : Char} (h : isWhiteSpace x = false) :
    isHorizontalSpace x = false := by
  rw [isHorizontalSpace, h]
  rfl

/-- A test that does not tell white space apart has the same answer for the first character. -/
theorem head?_any_squeeze {test : Char → Bool} {b : Bool} (h : ∀ x, isWhiteSpace x → test x = b)
    (text : List Char) : (squeeze text).head?.any test = text.head?.any test := by
  induction text with
  | nil => rfl
  | cons x text ih =>
    cases hx : isHorizontalSpace x with
    | false =>
      rw [squeeze_cons_of_not_space hx]
      rfl
    | true =>
      have hb : test x = b := h x (isHorizontalSpace_iff.1 hx).1
      rw [squeeze_cons_of_space hx, List.head?_cons, Option.any_some, hb]
      split
      · next hnext =>
        rw [ih]
        cases text with
        | nil => cases hnext
        | cons y text => exact h y hnext
      · exact h ' ' (by decide)

theorem takeWhile_squeeze {test : Char → Bool} (h : ∀ x, isWhiteSpace x → test x = false)
    (text : List Char) : (squeeze text).takeWhile test = text.takeWhile test ∧
      (squeeze text).dropWhile test = squeeze (text.dropWhile test) := by
  induction text with
  | nil => exact ⟨rfl, rfl⟩
  | cons x text ih =>
    cases hx : test x with
    | true =>
      have hspace : isHorizontalSpace x = false := by
        refine isHorizontalSpace_of_not_whiteSpace (Bool.eq_false_iff.2 fun hw ↦ ?_)
        rw [h x hw] at hx
        cases hx
      rw [squeeze_cons_of_not_space hspace]
      simp [hx, ih]
    | false =>
      have hstop : (squeeze (x :: text)).head?.any test = false := by
        rw [head?_any_squeeze h]
        exact hx
      obtain ⟨htake, hdrop⟩ := takeWhile_of_head hstop
      rw [htake, hdrop, List.takeWhile_cons_of_neg (by simp [hx]),
        List.dropWhile_cons_of_neg (by simp [hx])]
      exact ⟨rfl, rfl⟩

theorem isPrefixOf?_squeeze {word : List Char} (h : ∀ x ∈ word, isWhiteSpace x = false)
    (text : List Char) : word.isPrefixOf? (squeeze text) = (word.isPrefixOf? text).map squeeze := by
  induction word generalizing text with
  | nil => rfl
  | cons x word ih =>
    have hx := h x List.mem_cons_self
    have hcons (y : Char) (text : List Char) : (x :: word).isPrefixOf? (y :: text) =
        if x == y then word.isPrefixOf? text else none := rfl
    cases text with
    | nil => rfl
    | cons y text =>
      cases hy : isHorizontalSpace y with
      | false =>
        rw [squeeze_cons_of_not_space hy, hcons, hcons,
          ih fun z hz ↦ h z (List.mem_cons_of_mem x hz)]
        split <;> rfl
      | true =>
        have hne {z : Char} (hz : isWhiteSpace z) : ¬(x == z) = true := by
          rw [beq_iff_eq]
          rintro rfl
          rw [hx] at hz
          cases hz
        have hwhite : (squeeze (y :: text)).head?.any isWhiteSpace := by
          rw [head?_any_squeeze (b := true) fun _ hz ↦ hz]
          exact (isHorizontalSpace_iff.1 hy).1
        rw [hcons, if_neg (hne (isHorizontalSpace_iff.1 hy).1)]
        cases hs : squeeze (y :: text) with
        | nil => rfl
        | cons z more =>
          rw [hs] at hwhite
          rw [hcons, if_neg (hne hwhite)]
          rfl

theorem squeeze_dropWhile_space (text : List Char) :
    squeeze (text.dropWhile isHorizontalSpace) = (squeeze text).dropWhile isHorizontalSpace := by
  have hspace : isHorizontalSpace ' ' = true := by decide
  induction text with
  | nil => rfl
  | cons x text ih =>
    cases hx : isHorizontalSpace x with
    | false =>
      rw [squeeze_cons_of_not_space hx, List.dropWhile_cons_of_neg (by simp [hx]),
        List.dropWhile_cons_of_neg (by simp [hx]), squeeze_cons_of_not_space hx]
    | true =>
      rw [squeeze_cons_of_space hx, List.dropWhile_cons_of_pos hx, ih]
      split
      · rfl
      · rw [List.dropWhile_cons_of_pos hspace]

theorem head?_dropWhile_squeeze (text : List Char) :
    ((squeeze text).dropWhile isHorizontalSpace).head? =
      (text.dropWhile isHorizontalSpace).head? := by
  rw [← squeeze_dropWhile_space]
  have hhead := head?_dropWhile_any isHorizontalSpace text
  generalize text.dropWhile isHorizontalSpace = behind at hhead
  cases behind with
  | nil => rfl
  | cons x behind =>
    rw [squeeze_cons_of_not_space hhead]
    rfl

/-- Space that is there stays there, unless it ends the line. -/
theorem head?_any_space_squeeze (text : List Char) :
    (squeeze text).head?.any isHorizontalSpace =
      (text.head?.any isHorizontalSpace &&
        (text.dropWhile isHorizontalSpace).head? != some '\n') := by
  induction text with
  | nil => rfl
  | cons x text ih =>
    cases hx : isHorizontalSpace x with
    | false =>
      rw [squeeze_cons_of_not_space hx]
      simp [hx]
    | true =>
      rw [squeeze_cons_of_space hx, List.dropWhile_cons_of_pos hx, List.head?_cons,
        Option.any_some, hx, Bool.true_and]
      cases text with
      | nil => rfl
      | cons y text =>
        rw [List.head?_cons, Option.any_some, isWhiteSpace_eq]
        cases hy : isHorizontalSpace y with
        | true => simpa [hy] using ih
        | false =>
          by_cases hn : y = '\n'
          · subst hn
            simpa using ih
          · have hend : isLineEnd y = false := by simpa [isLineEnd] using hn
            have hspace : isHorizontalSpace ' ' = true := by decide
            rw [List.dropWhile_cons_of_neg (by simp [hy]), hend]
            simp [hspace, hn]

theorem squeeze_eq_nil_iff : squeeze text = [] ↔ text = [] := by
  refine ⟨fun h ↦ ?_, fun h ↦ by rw [h]; rfl⟩
  induction text with
  | nil => rfl
  | cons x text ih =>
    rw [squeeze] at h
    split at h
    · split at h
      · next hnext =>
        rw [ih h] at hnext
        cases hnext
      · cases h
    · cases h

theorem newline_mem_squeeze : '\n' ∈ squeeze text ↔ '\n' ∈ text := by
  induction text with
  | nil => rfl
  | cons x text ih =>
    cases hx : isHorizontalSpace x with
    | false => rw [squeeze_cons_of_not_space hx, List.mem_cons, List.mem_cons, ih]
    | true =>
      have hne : '\n' ≠ x := Ne.symm (isHorizontalSpace_iff.1 hx).2
      rw [squeeze_cons_of_space hx, List.mem_cons, or_iff_right hne, ← ih]
      split <;> simp

theorem exists_squeeze_line {body : List Char} (h : '\n' ∉ body) : ∃ short, '\n' ∉ short ∧
    ∀ rest, squeeze (body ++ '\n' :: rest) = short ++ '\n' :: squeeze rest := by
  induction body with
  | nil => exact ⟨[], List.not_mem_nil, squeeze_newline⟩
  | cons x body ih =>
    obtain ⟨hx, hbody⟩ := not_or.1 (mt List.mem_cons.2 h)
    obtain ⟨short, hshort, hsqueeze⟩ := ih hbody
    cases hspace : isHorizontalSpace x with
    | false =>
      refine ⟨x :: short, by simp [hx, hshort], fun rest ↦ ?_⟩
      rw [List.cons_append, squeeze_cons_of_not_space hspace, hsqueeze]
      rfl
    | true =>
      have hhead (rest : List Char) :
          (body ++ '\n' :: rest).head? = (body ++ ['\n']).head? := by cases body <;> rfl
      cases hnext : (body ++ ['\n']).head?.any isWhiteSpace with
      | true =>
        refine ⟨short, hshort, fun rest ↦ ?_⟩
        rw [List.cons_append, squeeze_cons_of_space hspace, hhead, if_pos hnext, hsqueeze]
      | false =>
        refine ⟨' ' :: short, by simp [hshort], fun rest ↦ ?_⟩
        rw [List.cons_append, squeeze_cons_of_space hspace, hhead, hnext, hsqueeze]
        rfl

theorem Terminated.squeeze_append {line : List Char} (h : Terminated line) :
    Terminated (squeeze line) ∧ ∀ rest, squeeze (line ++ rest) = squeeze line ++ squeeze rest := by
  obtain ⟨body, hbody, rfl⟩ := h
  obtain ⟨short, hshort, hsqueeze⟩ := exists_squeeze_line hbody
  have hline : squeeze (body ++ ['\n']) = short ++ ['\n'] := hsqueeze []
  refine ⟨⟨short, hshort, hline⟩, fun rest ↦ ?_⟩
  rw [hline, List.append_assoc, List.append_assoc]
  exact hsqueeze rest

theorem Linewise.squeeze {ls : List (List Char)} (h : Linewise ls) :
    Linewise (ls.map squeeze) ∧ squeeze ls.flatten = (ls.map EntityModels.squeeze).flatten := by
  induction ls with
  | nil => exact ⟨trivial, rfl⟩
  | cons line rest ih =>
    obtain ⟨hline, hrest⟩ := ih h.2
    rcases h.1 with ht | ⟨rfl, hne, hu⟩
    · obtain ⟨hterminated, happend⟩ := ht.squeeze_append
      refine ⟨⟨.inl hterminated, hline⟩, ?_⟩
      rw [List.flatten_cons, happend, hrest]
      rfl
    · refine ⟨⟨.inr ⟨rfl, mt squeeze_eq_nil_iff.1 hne, mt newline_mem_squeeze.1 hu⟩, trivial⟩, ?_⟩
      simp

theorem lines_squeeze (text : List Char) : lines (squeeze text) = (lines text).map squeeze := by
  obtain ⟨hlinewise, hflatten⟩ := (lines_linewise text).squeeze
  rw [lines_flatten] at hflatten
  rw [hflatten, hlinewise.lines_flatten]

theorem squeeze_eq_of_lines {s t : List Char} (h : (lines s).map squeeze = (lines t).map squeeze) :
    squeeze s = squeeze t := by
  rw [← lines_flatten (squeeze s), ← lines_flatten (squeeze t), lines_squeeze, lines_squeeze, h]

theorem firstLine_squeeze (text : List Char) :
    firstLine (squeeze text) = squeeze (firstLine text) ∧
      afterLine (squeeze text) = squeeze (afterLine text) := by
  by_cases hm : '\n' ∈ text
  · have hline : Terminated (firstLine text) :=
      ⟨_, notMem_takeWhile (by decide) text, (firstLine_of_mem hm).2⟩
    obtain ⟨hterminated, happend⟩ := hline.squeeze_append
    have hcut := firstLine_of_terminated hterminated (squeeze (afterLine text))
    rwa [← happend, firstLine_afterLine] at hcut
  · obtain ⟨hfirst, hafter⟩ := firstLine_of_notMem hm
    rw [hfirst, hafter]
    exact firstLine_of_notMem (mt newline_mem_squeeze.1 hm)

theorem squeeze_append_congr {s t : List Char} (h : squeeze s = squeeze t) (pre : List Char) :
    squeeze (pre ++ s) = squeeze (pre ++ t) := by
  induction pre with
  | nil => exact h
  | cons x pre ih =>
    have hnext : (pre ++ s).head?.any isWhiteSpace = (pre ++ t).head?.any isWhiteSpace := by
      rw [← head?_any_squeeze (b := true) fun _ hx ↦ hx, ih,
        head?_any_squeeze (b := true) fun _ hx ↦ hx]
    rw [List.cons_append, List.cons_append, squeeze, squeeze, ih, hnext]

theorem squeeze_run {gap : List Char} (hne : gap ≠ []) (h : ∀ x ∈ gap, isHorizontalSpace x)
    (rest : List Char) : squeeze (gap ++ rest) = squeeze (' ' :: rest) := by
  induction gap with
  | nil => exact absurd rfl hne
  | cons x gap ih =>
    have hx := h x List.mem_cons_self
    rw [List.cons_append, squeeze_cons_of_space hx]
    cases gap with
    | nil => rw [List.nil_append, squeeze_cons_of_space (by decide)]
    | cons y gap =>
      have hy := h y (List.mem_cons_of_mem x List.mem_cons_self)
      have hnext : (y :: gap ++ rest).head?.any isWhiteSpace := (isHorizontalSpace_iff.1 hy).1
      rw [if_pos hnext, ih (by simp) fun z hz ↦ h z (List.mem_cons_of_mem x hz)]

theorem squeeze_blanks {blanks : List Char} (h : ∀ x ∈ blanks, isHorizontalSpace x)
    (rest : List Char) : squeeze (blanks ++ '\n' :: rest) = squeeze ('\n' :: rest) := by
  cases blanks with
  | nil => rfl
  | cons x blanks =>
    rw [squeeze_run (by simp) h, squeeze_cons_of_space (by decide)]
    rfl

example : squeeze " a\t  = b \r\n\tc ".toList = " a = b\n c ".toList := by decide +kernel

end EntityModels
