import EntityModels.Proofs.Grammar.Lexemes
import EntityModels.Proofs.Grammar.Locality
import EntityModels.Proofs.Parsing.Outcome

namespace EntityModels

/-- Nothing but a blank line or a comment begins with a character that begins no declaration. -/
theorem MemberKind.mayStart_eq_false {text : List Char} {x : Char}
    (h : ∀ body, afterIndentation text = some body → body.head? = some x)
    (hfield : isFieldStart x = false) (htype : isTypeStart x = false) (hstrict : x ≠ '!')
    (hlazy : x ≠ '~') {kind : MemberKind} (hblank : kind ≠ blank) (hcomment : kind ≠ comment) :
    kind.mayStart text = false := by
  have hchar {p : Char → Bool} (hp : p x = false) : indentedChar p text = false := by
    rw [indentedChar]
    cases hi : afterIndentation text with
    | none => rfl
    | some body =>
      rw [Option.any_some, h body hi]
      exact hp
  have hword {word : String} {c : Char} {cs : List Char} (hw : word.toList = c :: cs) (hc : c ≠ x) :
      indentedWord word text = false := by
    rw [indentedWord]
    cases hi : afterIndentation text with
    | none => rfl
    | some body =>
      obtain ⟨more, hm⟩ := List.head?_eq_some_iff.1 (h body hi)
      rw [Option.any_some, hw, hm, List.isPrefixOf, beq_eq_false_iff_ne.2 hc]
      rfl
  cases kind with
  | field => exact hchar hfield
  | derive => exact hword (c := 'd') rfl fun he ↦ absurd hfield (he ▸ by decide)
  | primary => exact hword (c := 'P') rfl fun he ↦ absurd htype (he ▸ by decide)
  | foreign => exact hword (c := 'F') rfl fun he ↦ absurd htype (he ▸ by decide)
  | unique =>
    apply hchar
    rw [htype, beq_eq_false_iff_ne.2 hstrict, beq_eq_false_iff_ne.2 hlazy]
    rfl
  | blank => exact absurd rfl hblank
  | comment => exact absurd rfl hcomment

theorem Member.mayStart_eq_false {x : Char} (hspace : Unicode.isWhiteSpace x = false)
    (hdash : x ≠ '-') (tail : List Char) : mayStart (x :: tail) = false := by
  have hh : isHorizontalSpace x = false := by rw [isHorizontalSpace, hspace]; rfl
  have hn : x ≠ '\n' := by
    rintro rfl
    exact absurd hspace (by decide)
  have hindent : afterIndentation (x :: tail) = none := by rw [afterIndentation, hh]; rfl
  have hd : (x :: tail).dropWhile isHorizontalSpace = x :: tail := by
    rw [List.dropWhile_cons_of_neg (by rw [hh]; decide)]
  refine List.any_eq_false.2 fun kind _ ↦ Bool.eq_false_iff.1 ?_
  have hdeclares := @MemberKind.mayStart_eq_false (x :: tail) '\n' (by simp [hindent])
    (by decide) (by decide) (by decide) (by decide) kind
  cases kind with
  | field | derive | primary | foreign | unique => exact hdeclares (by decide) (by decide)
  | blank =>
    rw [MemberKind.mayStart, BlankLine.mayStart, hd]
    simp [hn]
  | comment =>
    rw [MemberKind.mayStart, CommentLine.mayStart, hd]
    simp [Keyword.comment, List.isPrefixOf, Ne.symm hdash]

namespace BlankLine

theorem reader_apply (c : Cursor) : reader c =
    if (c.skip isHorizontalSpace).next? = some '\n' then
      .ok ⟨String.ofList (firstLine c.rest), c.position.spanTo c.nextLine.position⟩ c.nextLine
    else .error (c.skip isHorizontalSpace).unterminated (c.skip isHorizontalSpace) := by
  have hspace : Reader.space c =
      .ok (c.rest.takeWhile isHorizontalSpace) (c.skip isHorizontalSpace) := rfl
  have hnext (d : Cursor) : Reader.next? d = .ok d.next? d := rfl
  have hposition (d : Cursor) : Reader.position d = .ok d.position d := rfl
  simp only [reader, bind_apply, hposition, hspace, hnext]
  by_cases h : (c.skip isHorizontalSpace).next? = some '\n'
  · have halong := Cursor.LeadsAlong.skip c isHorizontalSpace_newline
    have hline : firstLine c.rest = c.rest.takeWhile isHorizontalSpace ++ ['\n'] := by
      have hd : (c.rest.dropWhile isHorizontalSpace).head? = some '\n' := h
      obtain ⟨rest, hr⟩ := List.head?_eq_some_iff.1 hd
      have hcut := @List.takeWhile_append_dropWhile _ isHorizontalSpace c.rest
      rw [← hcut, firstLine_append (notMem_takeWhile isHorizontalSpace_newline _), hr,
        firstLine_newline, List.takeWhile_append_of_pos fun x hx ↦ List.all_eq_true.1
          List.all_takeWhile x hx]
      simp
    have hend : Reader.lineEnd (c.skip isHorizontalSpace) = .ok () c.nextLine := by
      rw [Reader.lineEnd_apply, h, halong.nextLine_eq]
      rfl
    rw [if_pos h, h, hline]
    simp only [bind_apply, hend]
    rfl
  · rw [if_neg h]
    refine congrFun (g := Reader.unterminated) ?_ _
    split
    · next hn => exact absurd hn h
    · rfl

theorem reader_ok {c d : Cursor} {line : BlankLine} (h : reader c = .ok line d) :
    (c.skip isHorizontalSpace).next? = some '\n' ∧
      line = ⟨String.ofList (firstLine c.rest), c.position.spanTo d.position⟩ := by
  rw [reader_apply] at h
  split at h
  · next hn =>
    cases h
    exact ⟨hn, rfl⟩
  · cases h

/-- What is read is the line, to its end. -/
theorem eq_of_ok {c d : Cursor} {line : BlankLine} (h : reader c = .ok line d) :
    line = ⟨String.ofList (firstLine c.rest), c.position.spanTo c.nextLine.position⟩ ∧
      d = c.nextLine := by
  rw [reader_apply] at h
  split at h
  · cases h
    exact ⟨rfl, rfl⟩
  · cases h

theorem mayStart_of_next {c : Cursor} (h : (c.skip isHorizontalSpace).next? = some '\n') :
    mayStart c.rest := by
  have hd : (c.rest.dropWhile isHorizontalSpace).head? = some '\n' := h
  rw [mayStart, hd]
  rfl

theorem trailing_apply (c : Cursor) : trailing c =
    if c.rest ≠ [] ∧ c.rest.all isHorizontalSpace then
      .ok (some ⟨String.ofList c.rest, c.position.spanTo (c.position.after c.rest)⟩)
        ⟨[], c.position.after c.rest⟩
    else .ok none c := by
  have hr : trailing c =
      let d := c.skip isHorizontalSpace
      if (c.rest.takeWhile isHorizontalSpace).isEmpty || d.next?.isSome then .ok none c
      else .ok (some ⟨String.ofList (c.rest.takeWhile isHorizontalSpace),
        c.position.spanTo d.position⟩) d := by
    have settle (b : Bool) (line : BlankLine) (d : Cursor) :
        (.ok (if b then none else some line)
          (if (if b then none else some line).isSome then d else c) :
          EStateM.Result Failure Cursor (Option BlankLine)) =
        if b then .ok none c else .ok (some line) d := by cases b <;> rfl
    exact settle _ _ _
  rw [hr]
  by_cases hall : c.rest.all isHorizontalSpace
  · obtain ⟨htake, hdrop⟩ := takeWhile_of_all (List.all_eq_true.1 hall)
    by_cases hne : c.rest = []
    · simp [hne]
    · simp [Cursor.skip, Cursor.past, Cursor.next?, htake, hdrop, hne, hall]
  · have hdrop : c.rest.dropWhile isHorizontalSpace ≠ [] := by
      obtain ⟨x, hx, hp⟩ := List.all_eq_false.1 (Bool.eq_false_iff.2 hall)
      exact dropWhile_ne_nil hx (Bool.eq_false_iff.2 hp)
    have hsome : (c.skip isHorizontalSpace).next?.isSome := by
      change (c.rest.dropWhile isHorizontalSpace).head?.isSome
      exact List.isSome_head?.2 hdrop
    simp [hsome, hall]

end BlankLine

/-- The failure of a last line that has no line feed: it stands at the end of the text. -/
def Cursor.unended (c : Cursor) : Failure := unterminated ⟨[], c.position.after c.rest⟩

namespace CommentLine

theorem mayStart_iff {c : Cursor} : mayStart c.rest ↔
    ∃ rest, (c.skip isHorizontalSpace).rest = Keyword.comment.toList ++ rest := by
  rw [mayStart, List.isPrefixOf_iff_prefix]
  constructor
  · rintro ⟨rest, hrest⟩
    exact ⟨rest, hrest.symm⟩
  · rintro ⟨rest, hrest⟩
    exact ⟨rest, hrest.symm⟩

/-- Whatever stands behind the dashes, there has to be a line feed. -/
theorem reader_apply {c : Cursor} (h : mayStart c.rest) : reader c =
    if '\n' ∈ c.rest then
      .ok ⟨String.ofList (firstLine c.rest), c.position.spanTo c.nextLine.position⟩ c.nextLine
    else .error c.unended ⟨[], c.position.after c.rest⟩ := by
  have hnext (d : Cursor) : Reader.next? d = .ok d.next? d := rfl
  have hposition (d : Cursor) : Reader.position d = .ok d.position d := rfl
  -- behind the indentation the dashes, and behind these what is left of the line
  let inner := c.skip isHorizontalSpace
  have hspace : Reader.space c = .ok (c.rest.takeWhile isHorizontalSpace) inner := rfl
  obtain ⟨rest, hrest⟩ : ∃ rest, inner.rest = Keyword.comment.toList ++ rest := mayStart_iff.1 h
  let behind := inner.past Keyword.comment.toList rest
  have hword : Reader.keyword Keyword.comment inner = .ok () behind := by
    rw [Reader.keyword_apply, isPrefixOf?_eq_some_iff.2 hrest]
  let stop := behind.skip fun x ↦ !isLineEnd x
  have hbody : Reader.takeWhile (fun x ↦ !isLineEnd x) behind =
      .ok (rest.takeWhile fun x ↦ !isLineEnd x) stop := rfl
  have hcut : c.rest = c.rest.takeWhile isHorizontalSpace ++ (Keyword.comment.toList ++ rest) := by
    rw [← hrest]
    exact List.takeWhile_append_dropWhile.symm
  have hnl := notMem_takeWhile isHorizontalSpace_newline c.rest
  have hword' : '\n' ∉ Keyword.comment.toList := by decide
  have hmem : '\n' ∈ c.rest ↔ '\n' ∈ rest := by
    rw [hcut]
    simp [hnl, hword']
  have halong : c.LeadsAlong stop :=
    (Cursor.LeadsAlong.skip c isHorizontalSpace_newline).trans <|
      (Cursor.LeadsAlong.past hrest hword').trans (.skip behind (by decide))
  simp only [reader, bind_apply, hposition, hspace, hword, hbody, hnext]
  by_cases hm : '\n' ∈ rest
  · obtain ⟨hhead, hline⟩ := firstLine_of_mem hm
    have hstop : stop.next? = some '\n' := hhead
    have hend : Reader.lineEnd stop = .ok () c.nextLine := by
      rw [Reader.lineEnd_apply, hstop, halong.nextLine_eq]
      rfl
    have hfirst : firstLine c.rest = c.rest.takeWhile isHorizontalSpace ++
        Keyword.comment.toList ++ rest.takeWhile (fun x ↦ !isLineEnd x) ++ ['\n'] := by
      rw [congrArg firstLine hcut, firstLine_append hnl, firstLine_append hword', hline]
      simp only [List.append_assoc]
      rfl
    rw [if_pos (hmem.2 hm), hstop, hfirst]
    simp only [Option.isNone_some, Bool.false_eq_true, if_false, bind_apply, hend]
    rfl
  · have hrest : stop.rest = [] := by
      have hall : ∀ x ∈ rest, (!isLineEnd x) = true := fun x hx ↦ by
        simpa [isLineEnd] using fun he : x = '\n' ↦ hm (he ▸ hx)
      exact (takeWhile_of_all hall).2
    obtain ⟨text, -, htext, hposition⟩ := halong
    rw [hrest, List.append_nil] at htext
    have hstop : stop = ⟨[], c.position.after c.rest⟩ := by
      rw [htext, ← hposition, ← hrest]
    rw [if_neg (mt hmem.1 hm), hstop]
    rfl

theorem mayStart_of_ok {c d : Cursor} {line : CommentLine} (h : reader c = .ok line d) :
    mayStart c.rest := by
  obtain ⟨start, c₁, h₁, h⟩ := bind_ok h
  obtain ⟨blanks, c₂, h₂, h⟩ := bind_ok h
  obtain ⟨u, c₃, h₃, -⟩ := bind_ok h
  cases h₁
  cases h₂
  rw [Reader.keyword_apply] at h₃
  cases hp : Keyword.comment.toList.isPrefixOf? (c.skip isHorizontalSpace).rest with
  | some rest => exact mayStart_iff.2 ⟨rest, isPrefixOf?_eq_some_iff.1 hp⟩
  | none => simp [hp] at h₃

theorem eq_of_ok {c d : Cursor} {line : CommentLine} (h : reader c = .ok line d) :
    line = ⟨String.ofList (firstLine c.rest), c.position.spanTo c.nextLine.position⟩ ∧
      d = c.nextLine := by
  rw [reader_apply (mayStart_of_ok h)] at h
  split at h
  · cases h
    exact ⟨rfl, rfl⟩
  · cases h

end CommentLine

end EntityModels
