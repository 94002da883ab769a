import Mathlib.Data.List.TakeWhile
import EntityModels.Proofs.Grammar.Spacing
import EntityModels.Proofs.Parsing.Abreast

namespace EntityModels

open Unicode

/-- The end of a line behind what belongs to it. There may be a comment behind some space. -/
structure Trails (text : List Char) : Prop where
  newline : '\n' ∈ text
  spaced : text.head?.any isWhiteSpace
  behind : Over (text.dropWhile isHorizontalSpace)

namespace Trails

variable {text : List Char}

theorem of_newline (rest : List Char) : Trails ('\n' :: rest) where
  newline := List.mem_cons_self
  spaced := by rfl
  behind := over_newline rest

theorem of_remark {gap rest : List Char} (hgap : Gap gap) (hrest : '\n' ∈ rest) :
    Trails (gap ++ '-' :: rest) := by
  refine ⟨List.mem_append_right gap (List.mem_cons_of_mem '-' hrest), ?_, ?_⟩
  · obtain ⟨x, gap', rfl⟩ := List.exists_cons_of_ne_nil hgap.1
    exact (isHorizontalSpace_iff.1 (hgap.2 x List.mem_cons_self)).1
  · have hdash : Unspaced ('-' :: rest) := .of_head (by decide) rest
    rw [(takeWhile_append_stop hgap.2 hdash).2]
    exact .inr rfl

theorem head?_any {test : Char → Bool} (htest : ∀ x, isWhiteSpace x → test x = false)
    (h : Trails text) : text.head?.any test = false := by
  have hspaced := h.spaced
  cases text with
  | nil => rfl
  | cons x text => exact htest x hspaced

theorem boundary (h : Trails text) : isNameBoundary text.head? := by
  have hspaced := h.spaced
  cases text with
  | nil => rfl
  | cons x text => exact Bool.or_eq_true_iff.2 (.inl hspaced)

theorem prefix_append_iff (h : Trails text) {word : List Char}
    (hword : ∀ x ∈ word, isWhiteSpace x = false) (body : List Char) :
    word <+: body ++ text ↔ word <+: body := by
  refine ⟨fun hprefix ↦ ?_, fun hprefix ↦ hprefix.trans (List.prefix_append body text)⟩
  obtain ⟨rest, hrest⟩ := hprefix
  rcases List.append_eq_append_iff.1 hrest with ⟨tail, hbody, -⟩ | ⟨tail, rfl, htext⟩
  · exact ⟨tail, hbody.symm⟩
  · have hspaced := h.spaced
    cases tail with
    | nil => exact ⟨[], by simp⟩
    | cons x tail =>
      rw [htext, List.cons_append, List.head?_cons, Option.any_some,
        hword x (List.mem_append_right body List.mem_cons_self)] at hspaced
      cases hspaced

end Trails

/-- Two cursors at the same place of a line, which differ only in how the line ends. -/
inductive Level : Cursor → Cursor → Prop
  | mk {body l r : List Char} {p : Position} : Trails l → Trails r →
    Level ⟨body ++ l, p⟩ ⟨body ++ r, p⟩

/-- The same, or two cursors behind everything that belongs to the line. -/
def Loose (c d : Cursor) : Prop := Level c d ∨ Over c.rest ∧ Over d.rest

namespace Level

variable {c d : Cursor} {test : Char → Bool}

theorem position_eq (h : Level c d) : c.position = d.position := by
  cases h
  rfl

theorem newline_mem (h : Level c d) : '\n' ∈ c.rest ∧ '\n' ∈ d.rest := by
  obtain ⟨hl, hr⟩ := h
  exact ⟨List.mem_append_right _ hl.newline, List.mem_append_right _ hr.newline⟩

theorem next?_any (htest : ∀ x, isWhiteSpace x → test x = false) (h : Level c d) :
    c.next?.any test = d.next?.any test := by
  obtain @⟨body, l, r, p, hl, hr⟩ := h
  cases body with
  | nil => exact (hl.head?_any htest).trans (hr.head?_any htest).symm
  | cons x body => rfl

theorem boundary_eq (h : Level c d) : isNameBoundary c.next? = isNameBoundary d.next? := by
  obtain @⟨body, l, r, p, hl, hr⟩ := h
  cases body with
  | nil => exact hl.boundary.trans hr.boundary.symm
  | cons x body => rfl

theorem skip (htest : ∀ x, isWhiteSpace x → test x = false) (h : Level c d) :
    c.rest.takeWhile test = d.rest.takeWhile test ∧ Level (c.skip test) (d.skip test) := by
  obtain @⟨body, l, r, p, hl, hr⟩ := h
  obtain ⟨htake, hdrop⟩ := takeWhile_append_blocked (hl.head?_any htest) body
  obtain ⟨htake', hdrop'⟩ := takeWhile_append_blocked (hr.head?_any htest) body
  refine ⟨htake.trans htake'.symm, ?_⟩
  rw [Cursor.skip, Cursor.skip, Cursor.past, Cursor.past, htake, htake', hdrop, hdrop']
  exact .mk hl hr

theorem behind_space (h : Level c d) :
    c.next?.any isHorizontalSpace = d.next?.any isHorizontalSpace ∧
        Level (c.skip isHorizontalSpace) (d.skip isHorizontalSpace) ∨
      Over (c.skip isHorizontalSpace).rest ∧ Over (d.skip isHorizontalSpace).rest := by
  obtain @⟨body, l, r, p, hl, hr⟩ := h
  cases hbody : body.dropWhile isHorizontalSpace with
  | nil =>
    have hblank := List.dropWhile_eq_nil_iff.1 hbody
    refine .inr ⟨?_, ?_⟩
    · change Over ((body ++ l).dropWhile isHorizontalSpace)
      rw [List.dropWhile_append_of_pos hblank]
      exact hl.behind
    · change Over ((body ++ r).dropWhile isHorizontalSpace)
      rw [List.dropWhile_append_of_pos hblank]
      exact hr.behind
  | cons x rest =>
    have hrun (tail : List Char) : (body ++ tail).takeWhile isHorizontalSpace =
        body.takeWhile isHorizontalSpace ∧
          (body ++ tail).dropWhile isHorizontalSpace = x :: rest ++ tail := by
      have hx : (x :: rest ++ tail).head?.any isHorizontalSpace = false := by
        have hstop := head?_dropWhile_any isHorizontalSpace body
        rwa [hbody] at hstop
      have hsplit : body ++ tail =
          body.takeWhile isHorizontalSpace ++ (x :: rest ++ tail) := by
        rw [← hbody, ← List.append_assoc, List.takeWhile_append_dropWhile]
      rw [hsplit]
      exact takeWhile_append_stop (List.all_eq_true.1 List.all_takeWhile) hx
    refine .inl ⟨?_, ?_⟩
    · cases body with
      | nil => cases hbody
      | cons y body => rfl
    · rw [Cursor.skip, Cursor.skip, Cursor.past, Cursor.past, (hrun l).1, (hrun r).1, (hrun l).2,
        (hrun r).2]
      exact .mk hl hr

end Level

theorem Terminated.location_after {line : List Char} (h : Terminated line) (p : Position) :
    (p.after line).location = ⟨p.line + 1, 1⟩ := by
  obtain ⟨body, hbody, rfl⟩ := h
  have hline : (p.after (body ++ ['\n'])).line = p.line + 1 := by
    rw [Position.after_line, List.count_append, List.count_eq_zero.2 hbody]
    rfl
  exact congrArg₂ Location.mk hline (Position.after_newline_column p body)

theorem Cursor.location_nextLine {c : Cursor} (h : '\n' ∈ c.rest) :
    c.nextLine.position.location = ⟨c.position.line + 1, 1⟩ :=
  Terminated.location_after
    ⟨_, notMem_takeWhile (by decide) c.rest, (firstLine_of_mem h).2⟩ c.position

namespace Reader

variable {α β : Type} {r : Reader α} {post : α → α → Cursor → Cursor → Prop}

/-- The reader does not mind how its line ends. -/
def Heedless (r : Reader α) : Prop := Abreast Level r r fun a b c d ↦ a = b ∧ Level c d

theorem pure_heedless (a : α) : Heedless (pure a) := .pure fun _ _ h ↦ ⟨rfl, h⟩

theorem position_heedless : Heedless position := fun _ _ h ↦ .ok ⟨h.position_eq, h⟩

theorem ident_heedless (kind : IdentKind) (expected : String) :
    Heedless (ident kind expected) := by
  intro c d h
  obtain ⟨htake, hskip⟩ := h.skip fun _ ↦ isIdentChar_of_isWhiteSpace
  have hstarts : c.next?.any kind.starts = d.next?.any kind.starts :=
    h.next?_any fun _ ↦ starts_of_isWhiteSpace
  rw [ident_apply, ident_apply]
  simp only [htake, hstarts, hskip.boundary_eq, h.position_eq, hskip.position_eq]
  split
  · exact .ok ⟨rfl, hskip⟩
  · exact .error rfl

def Solid (word : String) : Prop :=
  (word.toList.all fun x ↦ !isWhiteSpace x) ∧ word.toList.head?.any fun x ↦ x != '\n' && x != '-'

instance (word : String) : Decidable (Solid word) := inferInstanceAs (Decidable (_ ∧ _))

theorem literal_heedless {word : String} (hword : Solid word) : Heedless (literal word) := by
  intro c d h
  have hsolid : ∀ x ∈ word.toList, isWhiteSpace x = false := by simpa using hword.1
  obtain @⟨body, l, r, p, hl, hr⟩ := h
  by_cases hfound : word.toList <+: body
  · obtain ⟨rest, rfl⟩ := hfound
    have hread (tail : List Char) : literal word ⟨word.toList ++ rest ++ tail, p⟩ =
        .ok true ⟨rest ++ tail, p.after word.toList⟩ := by
      rw [literal_apply, List.append_assoc, isPrefixOf?_eq_some_iff.2 rfl]
      rfl
    rw [hread, hread]
    exact .ok ⟨rfl, .mk hl hr⟩
  · have hmissed {tail : List Char} (h : Trails tail) :
        literal word ⟨body ++ tail, p⟩ = .ok false ⟨body ++ tail, p⟩ := by
      rw [literal_apply]
      cases hp : word.toList.isPrefixOf? (body ++ tail) with
      | none => rfl
      | some rest =>
        have hprefix := isPrefixOf?_eq_some_iff.1 hp
        exact absurd ((h.prefix_append_iff hsolid body).1 ⟨rest, hprefix.symm⟩) hfound
    rw [hmissed hl, hmissed hr]
    exact .ok ⟨rfl, .mk hl hr⟩

theorem literal_loose {word : String} (hword : Solid word) :
    Abreast Loose (literal word) (literal word)
      fun a b c d ↦ a = b ∧ if a then Level c d else Loose c d := by
  refine Abreast.of_or ((literal_heedless hword).mono fun a b c d h ↦ ⟨h.1, ?_⟩) ?_
  · cases a
    · exact .inl h.2
    · exact h.2
  · rintro c d ⟨hc, hd⟩
    have hmissed {c : Cursor} (hc : Over c.rest) :=
      reads_noLiteral (hc.no_word hword.2) c.position
    obtain ⟨a, c', hread, rfl, hrest⟩ := hmissed hc
    obtain ⟨b, d', hread', rfl, hrest'⟩ := hmissed hd
    rw [hread, hread']
    exact .ok ⟨rfl, .inr ⟨hrest ▸ hc, hrest' ▸ hd⟩⟩

theorem marker_heedless : Heedless marker :=
  (literal_heedless (by decide)).bindEq fun _ ↦ .ite (fun _ ↦ pure_heedless _) fun _ ↦
    (literal_heedless (by decide)).bindEq fun _ ↦
      .ite (fun _ ↦ pure_heedless _) fun _ ↦ pure_heedless _

theorem keyword_heedless {word : String} (hword : Solid word) : Heedless (keyword word) :=
  (literal_heedless hword).bindEq fun _ ↦
    .ite (fun _ ↦ pure_heedless _) fun _ ↦ .mismatch _ _

theorem strayMarker_heedless (marked : Bool) : Heedless (strayMarker marked) :=
  .ite (fun _ ↦ marker_heedless.bindEq fun _ ↦ pure_heedless _)
    fun _ ↦ pure_heedless _

theorem clauseIdent_heedless (marked : Bool) (kind : IdentKind) (expected : String) :
    Heedless (clauseIdent marked kind expected) :=
  (strayMarker_heedless marked).bindEq fun _ ↦ ident_heedless kind expected

theorem finishLine_abreast : Abreast Level finishLine finishLine
    fun a b c d ↦ a = b ∧ c.position.location = d.position.location := by
  intro c d h
  rw [finishLine_apply, finishLine_apply]
  refine .ok ⟨rfl, ?_⟩
  rw [Cursor.location_nextLine h.newline_mem.1, Cursor.location_nextLine h.newline_mem.2,
    h.position_eq]

theorem space_loose : Abreast Level space space fun _ _ c d ↦ Loose c d :=
  fun _ _ h ↦ .ok (h.behind_space.imp_left And.right)

theorem token_loose : Abreast Loose token token
    fun a b c d ↦ a = b ∧ (a.isSome → Level c d) := by
  refine Abreast.of_or (fun c d h ↦ ?_) ?_
  · obtain ⟨htake, hskip⟩ := h.skip fun _ ↦ isIdentChar_of_isWhiteSpace
    rw [token_apply, token_apply, htake, h.next?_any fun _ ↦ isIdentChar_of_isWhiteSpace]
    exact .ok ⟨rfl, fun _ ↦ hskip⟩
  · rintro c d ⟨hc, hd⟩
    have hmissed {c : Cursor} (hc : Over c.rest) : token c = .ok none (c.skip isIdentChar) := by
      have hnone : c.next?.any isIdentChar = false := hc.head?_any (by decide) (by decide)
      rw [token_apply, hnone]
      rfl
    rw [hmissed hc, hmissed hd]
    exact .ok ⟨rfl, fun h ↦ (by cases h)⟩

theorem spacedWord_abreast {word : String} (hword : Solid word) {k : Bool → Reader α}
    (h : Abreast Level (k true) (k true) post) (h' : Abreast Loose (k false) (k false) post) :
    Abreast Level (space >>= fun _ ↦ literal word >>= k) (space >>= fun _ ↦ literal word >>= k)
      post := by
  refine space_loose.bind fun _ _ ↦ (literal_loose hword).bindEq fun found ↦ ?_
  cases found with
  | true => exact h
  | false => exact h'

theorem none_abreast {pre : Cursor → Cursor → Prop} : Abreast pre (pure none : Reader (Option α))
    (pure none) fun a b c d ↦ a = b ∧ (a.isSome → Level c d) :=
  .pure fun _ _ _ ↦ ⟨rfl, fun h ↦ (by cases h)⟩

/-- What follows the space is not found where the line is over. -/
theorem expectSpace_abreast (h : Abreast Level r r post) (hr : r.RefusesOver) (purpose : String) :
    Abreast Level (expectSpace purpose >>= fun _ ↦ r) (expectSpace purpose >>= fun _ ↦ r) post := by
  intro c d hcd
  rcases hcd.behind_space with ⟨hspaced, hskip⟩ | ⟨hc, hd⟩
  · rw [bind_apply, bind_apply, expectSpace_apply, expectSpace_apply, hspaced]
    cases d.next?.any isHorizontalSpace with
    | true => exact h _ _ hskip
    | false => exact .error rfl
  · obtain ⟨e, u, hu, he⟩ := refused_at_end hr purpose hc
    obtain ⟨e', u', hu', he'⟩ := refused_at_end hr purpose hd
    rw [hu, hu']
    exact .error (he.trans he'.symm)

theorem someSpace_abreast {good : α → Bool} {a : α} (hgood : good a = false)
    (h : Abreast Level r r fun x y c d ↦ x = y ∧ (good x → Level c d))
    (hr : ∀ text, Over text → ∃ rest, r.Reads text (· = a) rest) :
    Abreast Level (someSpace >>= fun found ↦ if found then r else pure a)
      (someSpace >>= fun found ↦ if found then r else pure a)
      fun x y c d ↦ x = y ∧ (good x → Level c d) := by
  intro c d hcd
  rcases hcd.behind_space with ⟨hspaced, hskip⟩ | ⟨hc, hd⟩
  · rw [bind_apply, bind_apply, someSpace_apply, someSpace_apply, hspaced]
    cases d.next?.any isHorizontalSpace with
    | true => exact h _ _ hskip
    | false => exact .ok ⟨rfl, fun _ ↦ hskip⟩
  · have hmissed {c : Cursor} (hc : Over (c.skip isHorizontalSpace).rest) : ∃ e,
        (someSpace >>= fun found ↦ if found then r else pure a) c = .ok a e := by
      rw [bind_apply, someSpace_apply]
      cases c.next?.any isHorizontalSpace with
      | true =>
        obtain ⟨rest, hrest⟩ := hr _ hc
        obtain ⟨a', e, he, rfl, -⟩ := hrest (c.skip isHorizontalSpace).position
        exact ⟨e, he⟩
      | false => exact ⟨_, rfl⟩
    obtain ⟨e, he⟩ := hmissed hc
    obtain ⟨e', he'⟩ := hmissed hd
    rw [he, he']
    refine .ok ⟨rfl, fun ha ↦ ?_⟩
    rw [hgood] at ha
    cases ha

/-- What is indented begins with something that is not found where the line is over. -/
theorem indented_abreast {k : Position → α → Reader β} {post : β → β → Cursor → Cursor → Prop}
    (h : Heedless r) (hr : r.RefusesOver)
    (hk : ∀ start a, Abreast Level (k start a) (k start a) post) :
    Abreast Level (indentation >>= fun _ ↦ position >>= fun start ↦ r >>= k start)
      (indentation >>= fun _ ↦ position >>= fun start ↦ r >>= k start) post := by
  have hrefuses : (position >>= fun start ↦ r >>= k start).RefusesOver :=
    fun text htext ↦ Reads.position.bindRefuses fun _ _ ↦ hr.bind htext
  exact expectSpace_abreast (position_heedless.bindEq fun start ↦ h.bindEq (hk start)) hrefuses _

theorem listedIdent_heedless (marked : Bool) (kind : IdentKind) (expected : String) :
    Heedless (listedIdent marked kind expected) :=
  expectSpace_abreast (clauseIdent_heedless marked kind expected)
    (clauseIdent_refusesOver marked kind expected) _

theorem names_heedless (marked : Bool) (kind : IdentKind) (expected : String) :
    Heedless (names marked kind expected) := by
  refine (listedIdent_heedless marked kind expected).bindEq fun first ↦ ?_
  have hmore := Abreast.collect (listedIdent_forward marked kind expected).orNone
    (listedIdent_forward marked kind expected).orNone
    (listedIdent_heedless marked kind expected).orNone listedIdent_orNone_moves
    listedIdent_orNone_moves
  rw [List.forall₂_eq_eq_eq] at hmore
  exact hmore.bindEq fun _ ↦ pure_heedless _

theorem namesThenEnd_abreast {kind : IdentKind} (node : List (Ident kind) → Position → α)
    (marked : Bool) (expected : String) :
    Abreast Level (namesThenEnd marked kind expected node) (namesThenEnd marked kind expected node)
      fun a b _ _ ↦ a = b :=
  (names_heedless marked kind expected).bindEq fun _ ↦ position_heedless.bindEq fun _ ↦
    finishLine_abreast.bindEq fun _ ↦ .pure fun _ _ _ ↦ rfl

section

variable {K V : Type} {read : K → Reader (Option V)}

theorem firstKind_heedless (h : ∀ k, Abreast Level (read k) (read k)
      fun a b c d ↦ a = b ∧ (a.isSome → Level c d)) (kinds : List K) :
    Heedless (firstKind read kinds) := by
  induction kinds with
  | nil => exact pure_heedless _
  | cons k kinds ih =>
    have hfirst : Heedless (rewindUnless Option.isSome (read k)) :=
      (h k).rewindUnless fun _ _ ↦ congrArg _
    refine hfirst.bindEq fun v ↦ ?_
    cases v with
    | some v => exact pure_heedless _
    | none => exact ih.bindEq fun _ ↦ pure_heedless _

theorem modifiers_heedless [DecidableEq K] (h : ∀ k, Abreast Level (read k) (read k)
      fun a b c d ↦ a = b ∧ (a.isSome → Level c d))
    (hmiss : ∀ k text, Over text → Misses (read k) text) (kinds : List K) :
    Heedless (modifiers read kinds) := by
  induction hn : kinds.length using Nat.strongRecOn generalizing kinds with
  | ind n ih =>
    rw [modifiers]
    have hkind : Abreast Level (spacedKind read kinds) (spacedKind read kinds)
        fun a b c d ↦ a = b ∧ (a.isSome → Level c d) :=
      someSpace_abreast rfl ((firstKind_heedless h kinds).mono fun _ _ _ _ h ↦ ⟨h.1, fun _ ↦ h.2⟩)
        fun text htext ↦ ⟨text, reads_noKind kinds fun k ↦ hmiss k text htext⟩
    have hfound : Heedless (rewindUnless Option.isSome (spacedKind read kinds)) :=
      hkind.rewindUnless fun _ _ ↦ congrArg _
    refine hfound.bindEq fun found ↦ ?_
    obtain _ | ⟨⟨k, hk⟩, v⟩ := found
    · exact pure_heedless _
    · exact (ih _ (hn ▸ length_erase_lt hk) (kinds.erase k) rfl).bindEq fun _ ↦
        pure_heedless _

end

end Reader

section

open Reader

theorem Flag.group_heedless : Heedless group := by
  refine modifiers_heedless (fun flag ↦ ?_) (fun flag text h ↦ misses_of_no_keyword ?_) all
  · exact (literal_heedless (by cases flag <;> decide)).bindEq fun _ ↦
      .pure fun _ _ h ↦ ⟨rfl, fun _ ↦ h⟩
  · exact h.no_word (by cases flag <;> decide)

theorem Setting.reader_abreast (setting : Setting) : Abreast Level setting.reader setting.reader
    fun a b c d ↦ a = b ∧ (a.isSome → Level c d) := by
  have hassigned : Abreast Loose setting.assigned setting.assigned
      fun a b c d ↦ a = b ∧ (a.isSome → Level c d) := by
    refine Abreast.position.bind fun _ _ ↦ token_loose.bindEq fun text ↦ ?_
    cases text with
    | none => exact none_abreast
    | some text =>
      dsimp only
      cases setting.value? text with
      | some value => exact .pure fun _ _ h ↦ ⟨rfl, fun _ ↦ h rfl⟩
      | none => exact .throw rfl
  rw [reader_eq]
  exact (literal_heedless (by cases setting <;> decide)).bindEq fun _ ↦
    .ite (fun _ ↦ spacedWord_abreast (by decide) (space_loose.bind fun _ _ ↦ hassigned)
      none_abreast) fun _ ↦ none_abreast

theorem Setting.group_heedless : Heedless group := by
  refine modifiers_heedless reader_abreast (fun setting text h ↦ misses_of_no_keyword ?_) all
  exact h.no_word (by cases setting <;> decide)

namespace FieldType

theorem maybeSuffix_heedless : Heedless maybeSuffix := by
  have hword : Heedless (Reader.literal Keyword.maybe) := literal_heedless (by decide)
  refine Abreast.rewindUnless ?_ fun a b (hab : a = b) ↦ congrArg id hab
  exact someSpace_abreast rfl (hword.mono fun _ _ _ _ h ↦ ⟨h.1, fun _ ↦ h.2⟩)
    fun text h ↦ ⟨text, reads_noLiteral (h.no_word (by decide))⟩

theorem closeBracket_heedless (isList : Bool) : Heedless (closeBracket isList) :=
  .ite (fun _ ↦ (keyword_heedless (by decide)).committedIf true) fun _ ↦ pure_heedless ()

theorem reader_heedless : Heedless reader :=
  position_heedless.bindEq fun _ ↦ (literal_heedless (by decide)).bindEq fun _ ↦
    marker_heedless.bindEq fun _ ↦ ((ident_heedless _ _).committedIf _).bindEq fun _ ↦
      (closeBracket_heedless _).bindEq fun _ ↦ maybeSuffix_heedless.bindEq fun _ ↦
        position_heedless.bindEq fun _ ↦ pure_heedless _

end FieldType

theorem Field.reader_abreast : Abreast Level reader reader fun a b _ _ ↦ a = b :=
  indented_abreast (ident_heedless _ _) (ident_refusesOver _ _) fun _ _ ↦
    expectSpace_abreast (FieldType.reader_heedless.bindEq fun _ ↦ Flag.group_heedless.bindEq fun _ ↦
      Setting.group_heedless.bindEq fun _ ↦ position_heedless.bindEq fun _ ↦
        finishLine_abreast.bindEq fun _ ↦ .pure fun _ _ _ ↦ rfl)
          FieldType.reader_refusesOver.bind _

section

variable (marked : Bool)

theorem Derive.reader_abreast :
    Abreast Level (reader marked) (reader marked) fun a b _ _ ↦ a = b :=
  indented_abreast (keyword_heedless (by decide)) (keyword_refusesOver (by decide))
    fun _ _ ↦ namesThenEnd_abreast _ marked _

theorem Primary.reader_abreast :
    Abreast Level (reader marked) (reader marked) fun a b _ _ ↦ a = b :=
  indented_abreast (keyword_heedless (by decide)) (keyword_refusesOver (by decide))
    fun _ _ ↦ namesThenEnd_abreast _ marked _

theorem Foreign.reader_abreast :
    Abreast Level (reader marked) (reader marked) fun a b _ _ ↦ a = b :=
  indented_abreast (keyword_heedless (by decide)) (keyword_refusesOver (by decide))
    fun _ _ ↦ expectSpace_abreast ((clauseIdent_heedless marked _ _).bindEq fun _ ↦
      namesThenEnd_abreast _ marked _) (clauseIdent_refusesOver marked _ _).bind _

theorem Unique.reader_abreast :
    Abreast Level (reader marked) (reader marked) fun a b _ _ ↦ a = b :=
  indented_abreast (clauseIdent_heedless marked _ _) (clauseIdent_refusesOver marked _ _)
    fun _ _ ↦ namesThenEnd_abreast _ marked _

end

theorem MemberKind.reader_abreast (options : Options) {kind : MemberKind} (hblank : kind ≠ blank)
    (hcomment : kind ≠ comment) :
    Abreast Level (kind.reader options) (kind.reader options) fun a b _ _ ↦ a = b := by
  have hmember {α : Type} {r : Reader α} (f : α → Member)
      (h : Abreast Level r r fun a b _ _ ↦ a = b) :
      Abreast Level (r >>= fun a ↦ pure (f a)) (r >>= fun a ↦ pure (f a)) fun a b _ _ ↦ a = b :=
    h.bind fun _ _ ↦ .pure fun _ _ hab ↦ congrArg f hab
  cases kind with
  | field => exact hmember .field Field.reader_abreast
  | derive => exact hmember .derive (Derive.reader_abreast _)
  | primary => exact hmember .primary (Primary.reader_abreast _)
  | foreign => exact hmember .foreign (Foreign.reader_abreast _)
  | unique => exact hmember .unique (Unique.reader_abreast _)
  | blank => exact absurd rfl hblank
  | comment => exact absurd rfl hcomment

namespace Entity

theorem jsonFlag_heedless : Heedless jsonFlag := by
  refine Abreast.rewindUnless ?_ fun a b (hab : a = b) ↦ congrArg id hab
  refine space_loose.bind fun _ _ ↦ (literal_loose (by decide)).mono fun a b c d h ↦ ⟨h.1, ?_⟩
  intro (ha : a = true)
  have hlevel := h.2
  rwa [if_pos ha] at hlevel

theorem sqlTable_heedless : Heedless sqlTable := by
  have htoken : Abreast Loose (Reader.token >>= fun text ↦ pure (text.map String.ofList))
      (Reader.token >>= fun text ↦ pure (text.map String.ofList))
      fun a b c d ↦ a = b ∧ (a.isSome → Level c d) :=
    token_loose.bindEq fun _ ↦ .pure fun _ _ h ↦ ⟨rfl, fun ha ↦ h (Option.isSome_map ▸ ha)⟩
  refine Abreast.rewindUnless ?_ fun a b (hab : a = b) ↦ congrArg Option.isSome hab
  exact spacedWord_abreast (by decide) (spacedWord_abreast (by decide)
    (space_loose.bind fun _ _ ↦ htoken) none_abreast) none_abreast

theorem header_abreast : Abreast Level header header
    fun a b c d ↦ a = b ∧ c.position.location = d.position.location :=
  (ident_heedless _ _).bindEq fun _ ↦ jsonFlag_heedless.bindEq fun _ ↦
    sqlTable_heedless.bindEq fun _ ↦ finishLine_abreast.bindEq fun _ ↦
      .pure fun _ _ h ↦ ⟨rfl, h⟩

theorem head_abreast : Abreast Level head head fun a b _ _ ↦ a = b := by
  refine position_heedless.bindEq fun start ↦ header_abreast.bindEq fun header ↦ ?_
  have hstop : Abreast (fun c d ↦ c.position.location = d.position.location) Reader.position
      Reader.position fun a b _ _ ↦ a.location = b.location := fun _ _ h ↦ .ok h
  refine hstop.bind fun stop stop' ↦ .pure fun _ _ h ↦ ?_
  rw [Position.spanTo, Position.spanTo, h]

end Entity

end

end EntityModels
