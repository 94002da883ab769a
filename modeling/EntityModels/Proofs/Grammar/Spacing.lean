import EntityModels.Proofs.Grammar.Disjointness
import EntityModels.Proofs.Grammar.Modifiers
import EntityModels.Proofs.Parsing.Spacing
import EntityModels.Proofs.Tree.Plain

/-!
No production minds how much space there is in a place, or whether there is any at the end of its
line. Where space is asked for, what follows it would not be found at the end of the line either.
-/

namespace EntityModels

open Unicode

variable {γ δ : Type}

namespace Cursor

variable {c d : Cursor}

theorem squeeze_skip (h : squeeze c.rest = squeeze d.rest) :
    squeeze (c.skip isHorizontalSpace).rest = squeeze (d.skip isHorizontalSpace).rest := by
  change squeeze (c.rest.dropWhile _) = squeeze (d.rest.dropWhile _)
  rw [squeeze_dropWhile_space, squeeze_dropWhile_space, h]

theorem next?_skip_eq (h : squeeze c.rest = squeeze d.rest) :
    (c.skip isHorizontalSpace).next? = (d.skip isHorizontalSpace).next? := by
  change (c.rest.dropWhile _).head? = (d.rest.dropWhile _).head?
  rw [← head?_dropWhile_squeeze, h, head?_dropWhile_squeeze]

theorem spaced_eq (h : squeeze c.rest = squeeze d.rest)
    (hn : (c.skip isHorizontalSpace).next? ≠ some '\n') :
    c.next?.any isHorizontalSpace = d.next?.any isHorizontalSpace := by
  have hd : (d.skip isHorizontalSpace).next? ≠ some '\n' := next?_skip_eq h ▸ hn
  have hspaced (c : Cursor) (hn : (c.skip isHorizontalSpace).next? ≠ some '\n') :
      (squeeze c.rest).head?.any isHorizontalSpace = c.next?.any isHorizontalSpace := by
    have hbehind : ((c.rest.dropWhile isHorizontalSpace).head? != some '\n') = true :=
      bne_iff_ne.2 hn
    rw [head?_any_space_squeeze, hbehind, Bool.and_true]
    rfl
  rw [← hspaced c hn, ← hspaced d hd, h]

theorem squeeze_firstLine (h : squeeze c.rest = squeeze d.rest) :
    squeeze (firstLine c.rest) = squeeze (firstLine d.rest) := by
  rw [← (firstLine_squeeze c.rest).1, ← (firstLine_squeeze d.rest).1, h]

theorem squeeze_nextLine (h : squeeze c.rest = squeeze d.rest) :
    squeeze c.nextLine.rest = squeeze d.nextLine.rest := by
  change squeeze (afterLine c.rest) = squeeze (afterLine d.rest)
  rw [← (firstLine_squeeze c.rest).2, ← (firstLine_squeeze d.rest).2, h]

end Cursor

namespace Reader

theorem isIdentChar_of_isWhiteSpace {x : Char} (h : isWhiteSpace x) : isIdentChar x = false := by
  refine Bool.eq_false_iff.2 fun hx ↦ ?_
  rw [isWhiteSpace_of_isIdentChar hx] at h
  cases h

theorem starts_of_isWhiteSpace {kind : IdentKind} {x : Char} (h : isWhiteSpace x) :
    kind.starts x = false := by
  refine Bool.eq_false_iff.2 fun hx ↦ ?_
  have hident : isIdentChar x := by
    cases kind with
    | type => exact isIdentChar_of_isTypeStart hx
    | field => exact isIdentChar_of_isFieldStart hx
  rw [isIdentChar_of_isWhiteSpace h] at hident
  cases hident

theorem isNameBoundary_squeeze (text : List Char) :
    isNameBoundary (squeeze text).head? = isNameBoundary text.head? := by
  have hopen (next : Option Char) : isNameBoundary next =
      !next.any fun x ↦ !(isWhiteSpace x || x == ']') := by cases next <;> simp [isNameBoundary]
  rw [hopen, hopen, head?_any_squeeze (b := false)]
  intro x hx
  rw [hx]
  rfl

theorem space_blind : SpaceBlind (fun _ ↦ ()) space space :=
  fun _ _ hrest ↦ .ok rfl (Cursor.squeeze_skip hrest)

theorem token_blind : SpaceBlind id token token :=
  (SpaceBlind.takeWhile fun _ ↦ isIdentChar_of_isWhiteSpace).bindEq fun _ ↦ .pure rfl

theorem marker_blind : SpaceBlind id marker marker :=
  (SpaceBlind.literal (by decide)).bindEq fun _ ↦ .ite (.pure rfl)
    ((SpaceBlind.literal (by decide)).bindEq fun _ ↦ .ite (.pure rfl) (.pure rfl))

theorem keyword_blind {word : String} (h : word.toList.all fun x ↦ !isWhiteSpace x) :
    SpaceBlind id (keyword word) (keyword word) :=
  (SpaceBlind.literal h).bindEq fun _ ↦ .ite (.pure rfl) (.mismatch _ _)

theorem ident_blind (kind : IdentKind) (expected : String) :
    SpaceBlind Ident.text (ident kind expected) (ident kind expected) := by
  intro c d hrest
  obtain ⟨htake, hdrop⟩ := takeWhile_squeeze (fun _ ↦ isIdentChar_of_isWhiteSpace) c.rest
  obtain ⟨htake', hdrop'⟩ := takeWhile_squeeze (fun _ ↦ isIdentChar_of_isWhiteSpace) d.rest
  have hname : c.rest.takeWhile isIdentChar = d.rest.takeWhile isIdentChar := by
    rw [← htake, hrest, htake']
  have hbehind : squeeze (c.skip isIdentChar).rest = squeeze (d.skip isIdentChar).rest := by
    change squeeze (c.rest.dropWhile _) = squeeze (d.rest.dropWhile _)
    rw [← hdrop, hrest, hdrop']
  have hstarts : c.next?.any kind.starts = d.next?.any kind.starts := by
    change c.rest.head?.any _ = d.rest.head?.any _
    rw [← head?_any_squeeze fun _ ↦ starts_of_isWhiteSpace, hrest,
      head?_any_squeeze fun _ ↦ starts_of_isWhiteSpace]
  have hends : isNameBoundary (c.skip isIdentChar).next? =
      isNameBoundary (d.skip isIdentChar).next? := by
    change isNameBoundary (c.skip isIdentChar).rest.head? = isNameBoundary (d.skip _).rest.head?
    rw [← isNameBoundary_squeeze, hbehind, isNameBoundary_squeeze]
  rw [ident_apply, ident_apply]
  simp only [hname, hstarts, hends]
  split
  · exact .ok rfl hbehind
  · exact .error rfl

theorem finishLine_blind : SpaceBlind id finishLine finishLine := by
  intro c d hrest
  rw [finishLine_apply, finishLine_apply]
  exact .ok rfl (Cursor.squeeze_nextLine hrest)

section

variable {α : Type} {f : α → γ}

/-- At the end of a line it does not matter whether it is the space that is missing or what should
follow it. -/
theorem refused_at_end {r : Reader α} (hr : r.RefusesOver) (purpose : String)
    {c : Cursor} (hn : Over (c.skip isHorizontalSpace).rest) :
    ∃ e d, (expectSpace purpose >>= fun _ ↦ r) c = .error e d ∧ e.fatal = false := by
  rw [bind_apply, expectSpace_apply]
  cases c.next?.any isHorizontalSpace with
  | true => exact hr hn (c.skip isHorizontalSpace).position
  | false => exact ⟨_, _, rfl, rfl⟩

theorem expectSpace_blind {r r' : Reader α} (h : SpaceBlind f r r')
    (hr : r.RefusesOver) (hr' : r'.RefusesOver) (purpose : String) :
    SpaceBlind f (expectSpace purpose >>= fun _ ↦ r) (expectSpace purpose >>= fun _ ↦ r') := by
  intro c d hrest
  by_cases hn : (c.skip isHorizontalSpace).next? = some '\n'
  · have hn' : (d.skip isHorizontalSpace).next? = some '\n' := Cursor.next?_skip_eq hrest ▸ hn
    obtain ⟨e, u, hu, he⟩ := refused_at_end hr purpose (.inl hn)
    obtain ⟨e', u', hu', he'⟩ := refused_at_end hr' purpose (.inl hn')
    rw [hu, hu']
    exact .error (he.trans he'.symm)
  · rw [bind_apply, bind_apply, expectSpace_apply, expectSpace_apply, Cursor.spaced_eq hrest hn]
    cases d.next?.any isHorizontalSpace with
    | true => exact h _ _ (Cursor.squeeze_skip hrest)
    | false => exact .error rfl

theorem someSpace_blind {r : Reader α} {a : α} (h : SpaceBlind f r r)
    (hr : ∀ rest, r.Reads ('\n' :: rest) (· = a) ('\n' :: rest)) :
    SpaceBlind f (someSpace >>= fun found ↦ if found then r else pure a)
      (someSpace >>= fun found ↦ if found then r else pure a) := by
  intro c d hrest
  have hnone {c : Cursor} (hn : (c.skip isHorizontalSpace).next? = some '\n') :
      ∃ e, (someSpace >>= fun found ↦ if found then r else pure a) c = .ok a e ∧
        e.rest = (c.skip isHorizontalSpace).rest := by
    rw [bind_apply, someSpace_apply]
    cases c.next?.any isHorizontalSpace with
    | true =>
      obtain ⟨rest, hbehind⟩ := List.head?_eq_some_iff.1 hn
      obtain ⟨a', e, he, rfl, hstays⟩ := hr rest (c.skip isHorizontalSpace).position
      rw [← hbehind] at he hstays
      exact ⟨e, he, hstays⟩
    | false => exact ⟨_, rfl, rfl⟩
  by_cases hn : (c.skip isHorizontalSpace).next? = some '\n'
  · obtain ⟨e, he, hstays⟩ := hnone hn
    obtain ⟨e', he', hstays'⟩ := hnone (Cursor.next?_skip_eq hrest ▸ hn)
    rw [he, he']
    refine .ok rfl ?_
    rw [hstays, hstays']
    exact Cursor.squeeze_skip hrest
  · rw [bind_apply, bind_apply, someSpace_apply, someSpace_apply, Cursor.spaced_eq hrest hn]
    cases d.next?.any isHorizontalSpace with
    | true => exact h _ _ (Cursor.squeeze_skip hrest)
    | false => exact .ok rfl (Cursor.squeeze_skip hrest)

end

theorem ident_refusesOver (kind : IdentKind) (expected : String) :
    (ident kind expected).RefusesOver := by
  refine fun text h ↦ refuses_ident expected (h.head?_any ?_ ?_)
  · exact starts_of_isWhiteSpace (by decide)
  · cases kind <;> decide

theorem keyword_refusesOver {word : String}
    (hword : word.toList.head?.any fun x ↦ x != '\n' && x != '-') : (keyword word).RefusesOver := by
  refine fun text h ↦ (reads_noLiteral (h.no_word hword)).bindRefuses fun found hfound ↦ ?_
  rw [hfound]
  exact refuses_mismatch _

theorem clauseIdent_refusesOver (marked : Bool) (kind : IdentKind) (expected : String) :
    (clauseIdent marked kind expected).RefusesOver := by
  intro text h
  have hunlike {x : Char} (hnewline : '\n' ≠ x) (hdash : '-' ≠ x) : text.head? ≠ some x := by
    rcases h with h | h
    · rw [h]
      exact fun hx ↦ hnewline (Option.some.inj hx)
    · rw [h]
      exact fun hx ↦ hdash (Option.some.inj hx)
  have hmarker : (strayMarker marked).Reads text (fun _ ↦ True) text := fun p ↦
    ⟨(), _, strayMarker_of_unmarked (c := ⟨text, p⟩) (hunlike (by decide) (by decide))
      (hunlike (by decide) (by decide)) _, trivial, rfl⟩
  exact hmarker.bindRefuses fun _ _ ↦ ident_refusesOver kind expected h

theorem strayMarker_blind (marked : Bool) :
    SpaceBlind id (strayMarker marked) (strayMarker marked) :=
  .ite (marker_blind.bindEq fun _ ↦ .pure rfl) (.pure rfl)

theorem clauseIdent_blind (marked : Bool) (kind : IdentKind) (expected : String) :
    SpaceBlind Ident.text (clauseIdent marked kind expected) (clauseIdent marked kind expected) :=
  (strayMarker_blind marked).bindEq fun _ ↦ ident_blind kind expected

theorem listedIdent_blind (marked : Bool) (kind : IdentKind) (expected : String) :
    SpaceBlind Ident.text (listedIdent marked kind expected) (listedIdent marked kind expected) :=
  have hstop := clauseIdent_refusesOver marked kind expected
  expectSpace_blind (clauseIdent_blind marked kind expected) hstop hstop _

theorem listedIdent_moves {marked : Bool} {kind : IdentKind} {expected : String} {c d : Cursor}
    {a : Ident kind} (h : listedIdent marked kind expected c = .ok a d) :
    c.position.offset < d.position.offset := by
  obtain ⟨u, e, hspace, hident⟩ := bind_ok h
  obtain ⟨hspaced, rfl⟩ := expectSpace_ok.1 hspace
  have hbehind := (clauseIdent_forward marked kind expected).leads hident
  refine Nat.lt_of_lt_of_le ?_ hbehind.offset_le
  refine (Cursor.LeadsTo.skip c _).offset_lt ?_
  obtain ⟨rest, p⟩ := c
  cases rest with
  | nil => cases hspaced
  | cons x rest =>
    have hx : isHorizontalSpace x = true := hspaced
    change ((x :: rest).dropWhile isHorizontalSpace).length < (x :: rest).length
    rw [List.dropWhile_cons_of_pos hx, List.length_cons]
    exact Nat.lt_succ_of_le (List.dropWhile_sublist _).length_le

theorem listedIdent_orNone_moves {marked : Bool} {kind : IdentKind} {expected : String}
    (c : Cursor) (a : Ident kind) (d : Cursor)
    (h : orNone (listedIdent marked kind expected) c = .ok (some a) d) :
    HasCursor.offset c < HasCursor.offset d := by
  unfold orNone at h
  split at h
  · next hlisted =>
    cases h
    exact listedIdent_moves hlisted
  · cases h

theorem names_blind (marked : Bool) (kind : IdentKind) (expected : String) :
    SpaceBlind (List.map Ident.text) (names marked kind expected)
      (names marked kind expected) := by
  refine (listedIdent_blind marked kind expected).bind fun first first' hfirst ↦ ?_
  refine (SpaceBlind.collect _ (listedIdent_blind marked kind expected).orNone
    listedIdent_orNone_moves).bind fun more more' hmore ↦ .pure ?_
  rw [List.map_cons, List.map_cons, hfirst, hmore]

section

variable {K V : Type} {read : K → Reader (Option V)}

theorem firstKind_blind (h : ∀ k, SpaceBlind id (read k) (read k)) (kinds : List K) :
    SpaceBlind id (firstKind read kinds) (firstKind read kinds) := by
  induction kinds with
  | nil => exact .pure rfl
  | cons k kinds ih =>
    refine ((h k).rewindUnless fun _ _ ↦ congrArg _).bindEq fun v ↦ ?_
    cases v with
    | some v => exact .pure rfl
    | none => exact ih.bindEq fun _ ↦ .pure rfl

theorem modifiers_blind [DecidableEq K] (h : ∀ k, SpaceBlind id (read k) (read k))
    (hstop : ∀ k rest, Misses (read k) ('\n' :: rest)) (kinds : List K) :
    SpaceBlind id (modifiers read kinds) (modifiers read kinds) := by
  induction hn : kinds.length using Nat.strongRecOn generalizing kinds with
  | ind n ih =>
    rw [modifiers]
    have hkind := someSpace_blind (firstKind_blind h kinds)
      fun rest ↦ reads_noKind kinds fun k ↦ hstop k rest
    refine (hkind.rewindUnless fun _ _ ↦ congrArg _).bindEq fun found ↦ ?_
    obtain _ | ⟨⟨k, hk⟩, v⟩ := found
    · exact .pure rfl
    · exact (ih _ (hn ▸ length_erase_lt hk) (kinds.erase k) rfl).bindEq fun _ ↦ .pure rfl

end

end Reader

theorem Flag.group_blind : Reader.SpaceBlind id group group := by
  refine Reader.modifiers_blind (fun flag ↦ ?_) (fun flag rest ↦ misses_of_no_keyword ?_) all
  · exact (Reader.SpaceBlind.literal (by cases flag <;> decide)).bindEq fun _ ↦ .pure rfl
  · exact (over_newline rest).no_word (by cases flag <;> decide)

theorem Setting.reader_blind (setting : Setting) :
    Reader.SpaceBlind id setting.reader setting.reader := by
  refine (Reader.SpaceBlind.literal (by cases setting <;> decide)).bindEq fun _ ↦ .ite
    (Reader.space_blind.bind fun _ _ _ ↦ (Reader.SpaceBlind.literal (by decide)).bindEq fun _ ↦ .ite
      (Reader.space_blind.bind fun _ _ _ ↦ Reader.SpaceBlind.position.bind fun _ _ _ ↦
        Reader.token_blind.bindEq fun text ↦ ?_) (.pure rfl)) (.pure rfl)
  cases text with
  | none => exact .pure rfl
  | some text =>
    dsimp only
    cases setting.value? text with
    | some value => exact .pure rfl
    | none => exact .throw rfl

theorem Setting.group_blind : Reader.SpaceBlind id group group := by
  refine Reader.modifiers_blind reader_blind (fun setting rest ↦ misses_of_no_keyword ?_) all
  exact (over_newline rest).no_word (by cases setting <;> decide)

namespace FieldType

theorem maybeSuffix_blind : Reader.SpaceBlind id maybeSuffix maybeSuffix := by
  have hword : Reader.SpaceBlind id (Reader.literal Keyword.maybe) (Reader.literal Keyword.maybe) :=
    .literal (by decide)
  have hsuffix := Reader.someSpace_blind hword fun rest ↦
    Reader.reads_noLiteral ((over_newline rest).no_word (by decide))
  exact hsuffix.rewindUnless fun _ _ ↦ congrArg _

theorem closeBracket_blind (isList : Bool) :
    Reader.SpaceBlind id (closeBracket isList) (closeBracket isList) :=
  .ite ((Reader.keyword_blind (by decide)).committedIf true) (.pure rfl)

theorem reader_blind : Reader.SpaceBlind (mapSpan noSpan) reader reader := by
  refine Reader.SpaceBlind.position.bind fun _ _ _ ↦
    (Reader.SpaceBlind.literal (by decide)).bindEq fun isList ↦
      Reader.marker_blind.bindEq fun marker ↦
        ((Reader.ident_blind _ _).committedIf _).bind fun typeName typeName' hname ↦
          (closeBracket_blind isList).bindEq fun _ ↦ maybeSuffix_blind.bindEq fun isMaybe ↦
            Reader.SpaceBlind.position.bind fun _ _ _ ↦ .pure ?_
  simp only [mapSpan, Ident.mapSpan_noSpan hname]
  rfl

theorem reader_refusesOver : reader.RefusesOver := by
  intro text h
  have hliteral (word : String) (hword : word.toList.head?.any fun x ↦ x != '\n' && x != '-') :
      (Reader.literal word).Reads text (· = false) text :=
    Reader.reads_noLiteral (h.no_word hword)
  have hmarker : Reader.marker.Reads text (· = none) text :=
    (hliteral "!" (by decide)).bindEq <| (hliteral "~" (by decide)).bindEq (.pure rfl)
  refine Reader.Reads.position.bindRefuses fun _ _ ↦ ?_
  refine (hliteral "[" (by decide)).bindRefuses fun isList hlist ↦ ?_
  refine hmarker.bindRefuses fun marker hnone ↦ Reader.Refuses.bind fun p ↦ ?_
  obtain ⟨e, d, hd, he⟩ := Reader.ident_refusesOver .type "type name" h p
  refine ⟨e, d, ?_, he⟩
  rw [hlist, hnone, Reader.committedIf, hd]
  rfl

end FieldType

namespace Reader

/-- What is indented begins with something that is not found at the end of a line. -/
theorem indented_blind {α β : Type} {f : α → γ} {g : β → δ} {r : Reader α}
    {k : Position → α → Reader β} (h : SpaceBlind f r r) (hstop : r.RefusesOver)
    (hk : ∀ start start' a b, f a = f b → SpaceBlind g (k start a) (k start' b)) :
    SpaceBlind g (indentation >>= fun _ ↦ position >>= fun start ↦ r >>= k start)
      (indentation >>= fun _ ↦ position >>= fun start ↦ r >>= k start) := by
  have hrefuses : (position >>= fun start ↦ r >>= k start).RefusesOver :=
    fun text h ↦ Reads.position.bindRefuses fun _ _ ↦ hstop.bind h
  exact expectSpace_blind (SpaceBlind.position.bind fun _ _ _ ↦ h.bind (hk _ _)) hrefuses hrefuses _

theorem namesThenEnd_blind {α : Type} {f : α → γ} {kind : IdentKind}
    {node node' : List (Ident kind) → Position → α}
    (hnode : ∀ given given' stop stop', given.map Ident.text = given'.map Ident.text →
      f (node given stop) = f (node' given' stop')) (marked : Bool) (expected : String) :
    SpaceBlind f (namesThenEnd marked kind expected node)
      (namesThenEnd marked kind expected node') :=
  (names_blind marked kind expected).bind fun _ _ hgiven ↦ SpaceBlind.position.bind fun _ _ _ ↦
    finishLine_blind.bindEq fun _ ↦ .pure (hnode _ _ _ _ hgiven)

end Reader

section

open Reader

theorem Field.reader_blind : SpaceBlind (mapSpan noSpan) reader reader := by
  refine indented_blind (ident_blind _ _) (ident_refusesOver _ _) fun _ _ name name' hname ↦ ?_
  refine expectSpace_blind (FieldType.reader_blind.bind fun type type' htype ↦
    Flag.group_blind.bindEq fun flags ↦ Setting.group_blind.bindEq fun settings ↦
      SpaceBlind.position.bind fun _ _ _ ↦ finishLine_blind.bindEq fun _ ↦ .pure ?_)
        FieldType.reader_refusesOver.bind FieldType.reader_refusesOver.bind _
  simp only [mapSpan, Ident.mapSpan_noSpan hname, htype]
  rfl

variable (marked : Bool)

theorem Derive.reader_blind : SpaceBlind (mapSpan noSpan) (reader marked) (reader marked) := by
  refine indented_blind (keyword_blind (by decide)) (keyword_refusesOver (by decide))
    fun _ _ _ _ _ ↦ namesThenEnd_blind (fun given given' _ _ hgiven ↦ ?_) marked _
  rw [mapSpan, mapSpan, Ident.map_mapSpan_noSpan hgiven]
  rfl

theorem Primary.reader_blind : SpaceBlind (mapSpan noSpan) (reader marked) (reader marked) := by
  refine indented_blind (keyword_blind (by decide)) (keyword_refusesOver (by decide))
    fun _ _ _ _ _ ↦ namesThenEnd_blind (fun given given' _ _ hgiven ↦ ?_) marked _
  rw [mapSpan, mapSpan, Ident.map_mapSpan_noSpan hgiven]
  rfl

theorem Foreign.reader_blind : SpaceBlind (mapSpan noSpan) (reader marked) (reader marked) := by
  refine indented_blind (keyword_blind (by decide)) (keyword_refusesOver (by decide))
    fun _ _ _ _ _ ↦ expectSpace_blind ((clauseIdent_blind _ _ _).bind fun target target' htarget ↦
      namesThenEnd_blind (fun given given' _ _ hgiven ↦ ?_) marked _)
        (clauseIdent_refusesOver _ _ _).bind (clauseIdent_refusesOver _ _ _).bind _
  rw [mapSpan, mapSpan, Ident.mapSpan_noSpan htarget, Ident.map_mapSpan_noSpan hgiven]
  rfl

theorem Unique.reader_blind : SpaceBlind (mapSpan noSpan) (reader marked) (reader marked) := by
  refine indented_blind (clauseIdent_blind _ _ _) (clauseIdent_refusesOver _ _ _)
    fun _ _ name name' hname ↦ namesThenEnd_blind (fun given given' _ _ hgiven ↦ ?_) marked _
  rw [mapSpan, mapSpan, Ident.mapSpan_noSpan hname, Ident.map_mapSpan_noSpan hgiven]
  rfl

end

theorem BlankLine.reader_blind : Reader.SpaceBlind plain reader reader := by
  intro c d hrest
  rw [reader_apply, reader_apply, Cursor.next?_skip_eq hrest]
  split
  · refine .ok ?_ (Cursor.squeeze_nextLine hrest)
    simp only [plain, mapSpan, mapText, String.toList_ofList, Cursor.squeeze_firstLine hrest]
    rfl
  · exact .error rfl

namespace CommentLine

theorem mayStart_eq {c d : Cursor} (h : squeeze c.rest = squeeze d.rest) :
    mayStart c.rest = mayStart d.rest := by
  have hword : ∀ x ∈ Keyword.comment.toList, isWhiteSpace x = false := by
    intro x hx
    obtain rfl : x = '-' := by simpa [Keyword.comment] using hx
    decide
  have hfound (c : Cursor) : mayStart c.rest ↔
      (Keyword.comment.toList.isPrefixOf? (squeeze (c.skip isHorizontalSpace).rest)).isSome := by
    rw [mayStart_iff, isPrefixOf?_squeeze hword, Option.isSome_map, Option.isSome_iff_exists]
    simp only [isPrefixOf?_eq_some_iff]
  rw [Bool.eq_iff_iff, hfound, hfound, Cursor.squeeze_skip h]

theorem reader_blind : Reader.SpaceBlind plain reader reader := by
  intro c d hrest
  by_cases hstart : mayStart c.rest
  · have hmem : '\n' ∈ c.rest ↔ '\n' ∈ d.rest := by
      rw [← newline_mem_squeeze, hrest, newline_mem_squeeze]
    rw [reader_apply hstart, reader_apply (mayStart_eq hrest ▸ hstart)]
    by_cases hm : '\n' ∈ c.rest
    · rw [if_pos hm, if_pos (hmem.1 hm)]
      refine .ok ?_ (Cursor.squeeze_nextLine hrest)
      simp only [plain, mapSpan, mapText, String.toList_ofList, Cursor.squeeze_firstLine hrest]
      rfl
    · rw [if_neg hm, if_neg (mt hmem.2 hm)]
      exact .error rfl
  · have hrefused {c : Cursor} (hstart : ¬mayStart c.rest) :
        ∃ e d, reader c = .error e d ∧ e.fatal = false := by
      cases h : reader c with
      | ok line d => exact absurd (mayStart_of_ok h) hstart
      | error e d => exact ⟨e, d, rfl, reader_mild c e d h⟩
    obtain ⟨e, t, he, hf⟩ := hrefused hstart
    obtain ⟨e', t', he', hf'⟩ := hrefused (mayStart_eq hrest ▸ hstart)
    rw [he, he']
    exact .error (hf.trans hf'.symm)

end CommentLine

theorem MemberKind.reader_blind (options : Options) (kind : MemberKind) :
    Reader.SpaceBlind Member.plain (kind.reader options) (kind.reader options) := by
  cases kind with
  | field => exact Field.reader_blind.bind fun _ _ h ↦ .pure (congrArg Member.field h)
  | derive => exact (Derive.reader_blind _).bind fun _ _ h ↦ .pure (congrArg Member.derive h)
  | primary => exact (Primary.reader_blind _).bind fun _ _ h ↦ .pure (congrArg Member.primary h)
  | foreign => exact (Foreign.reader_blind _).bind fun _ _ h ↦ .pure (congrArg Member.foreign h)
  | unique => exact (Unique.reader_blind _).bind fun _ _ h ↦ .pure (congrArg Member.unique h)
  | blank => exact BlankLine.reader_blind.bind fun _ _ h ↦ .pure (congrArg Member.blank h)
  | comment => exact CommentLine.reader_blind.bind fun _ _ h ↦ .pure (congrArg Member.comment h)

namespace Entity

theorem jsonFlag_blind : Reader.SpaceBlind id jsonFlag jsonFlag :=
  Reader.SpaceBlind.rewindUnless (Reader.space_blind.bind fun _ _ _ ↦ .literal (by decide))
    fun _ _ ↦ congrArg _

theorem sqlTable_blind : Reader.SpaceBlind id sqlTable sqlTable := by
  refine Reader.SpaceBlind.rewindUnless (Reader.space_blind.bind fun _ _ _ ↦
    (Reader.SpaceBlind.literal (by decide)).bindEq fun _ ↦ .ite (Reader.space_blind.bind fun _ _ _ ↦
      (Reader.SpaceBlind.literal (by decide)).bindEq fun _ ↦ .ite (Reader.space_blind.bind
        fun _ _ _ ↦ Reader.token_blind.bindEq fun _ ↦ .pure rfl) (.pure rfl)) (.pure rfl))
          fun _ _ ↦ congrArg _

theorem header_blind : Reader.SpaceBlind (Header.mapSpan noSpan) header header := by
  refine (Reader.ident_blind _ _).bind fun name name' hname ↦ jsonFlag_blind.bindEq fun _ ↦
    sqlTable_blind.bindEq fun _ ↦ Reader.finishLine_blind.bindEq fun _ ↦ .pure ?_
  rw [Header.mapSpan, Header.mapSpan, Ident.mapSpan_noSpan hname]

theorem head_blind : Reader.SpaceBlind plain head head := by
  refine Reader.SpaceBlind.position.bind fun _ _ _ ↦ header_blind.bind fun h h' hheader ↦
    Reader.SpaceBlind.position.bind fun _ _ _ ↦ .pure ?_
  obtain ⟨name, json, table⟩ := h
  obtain ⟨name', json', table'⟩ := h'
  obtain ⟨hname, rfl, rfl⟩ := Header.mk.inj hheader
  simp only [plain, mapSpan, hname]
  rfl

end Entity

end EntityModels
