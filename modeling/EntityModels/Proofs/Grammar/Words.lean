import EntityModels.Proofs.Grammar.Lexemes
import EntityModels.Proofs.Parsing.Reads
import EntityModels.Proofs.Tree.Render
import EntityModels.Proofs.Unicode.Classes

namespace EntityModels

/-- Names and values end in front of this text, and are complete there. -/
def EndsWord (rest : List Char) : Prop :=
  rest.head?.any isIdentChar = false ∧ isNameBoundary rest.head?

def Unspaced (rest : List Char) : Prop := rest.head?.any isHorizontalSpace = false

def Gap (text : List Char) : Prop := text ≠ [] ∧ ∀ x ∈ text, isHorizontalSpace x

/-- Where nothing of a declaration can stand: the line ends here, or a comment may begin. -/
def Over (text : List Char) : Prop := text.head? = some '\n' ∨ text.head? = some '-'

theorem over_newline (rest : List Char) : Over ('\n' :: rest) := .inl rfl

theorem Over.head?_any {text : List Char} {test : Char → Bool} (h : Over text)
    (hnewline : test '\n' = false) (hdash : test '-' = false) : text.head?.any test = false := by
  rcases h with h | h
  · rw [h]
    exact hnewline
  · rw [h]
    exact hdash

theorem Over.no_word {text word : List Char} (h : Over text)
    (hword : word.head?.any fun x ↦ x != '\n' && x != '-') : ¬word <+: text := by
  cases word with
  | nil => cases hword
  | cons x word =>
    rintro ⟨rest, rfl⟩
    have hx : x ≠ '\n' ∧ x ≠ '-' := by simpa using hword
    rcases h with h | h
    · exact hx.1 (Option.some.inj h)
    · exact hx.2 (Option.some.inj h)

theorem gap_space : Gap [' '] := by
  refine ⟨List.cons_ne_nil _ _, fun x hx ↦ ?_⟩
  rw [List.mem_singleton.1 hx]
  decide

theorem EndsWord.of_head {x : Char} (hx : isIdentChar x = false) (hb : isNameBoundary (some x))
    (rest : List Char) : EndsWord (x :: rest) := ⟨hx, hb⟩

theorem endsWord_space (rest : List Char) : EndsWord (' ' :: rest) :=
  .of_head (by decide) (by decide) rest

theorem endsWord_newline (rest : List Char) : EndsWord ('\n' :: rest) :=
  .of_head (by decide) (by decide) rest

theorem endsWord_bracket (rest : List Char) : EndsWord (']' :: rest) :=
  .of_head (by decide) (by decide) rest

theorem Unspaced.of_head {x : Char} (hx : isHorizontalSpace x = false) (rest : List Char) :
    Unspaced (x :: rest) := hx

theorem unspaced_newline (rest : List Char) : Unspaced ('\n' :: rest) := .of_head (by decide) rest

theorem endsWord_spaced {α : Type} (render : α → List Char) (words : List α) {rest : List Char}
    (h : EndsWord rest) : EndsWord (spaced render words ++ rest) := by
  cases words with
  | nil => exact h
  | cons word words => exact endsWord_space _

theorem spaced_cons {α : Type} (render : α → List Char) (word : α) (words : List α)
    (rest : List Char) : spaced render (word :: words) ++ rest =
      ' ' :: (render word ++ (spaced render words ++ rest)) := by
  simp [spaced]

/-- What can be reached over a space, if there is one, has the property. -/
def BehindSpace (P : List Char → Prop) (text : List Char) : Prop :=
  Unspaced text ∨ ∃ body, text = ' ' :: body ∧ Unspaced body ∧ P body

def BehindGap (P : List Char → Prop) (text : List Char) : Prop :=
  Unspaced text ∨ ∃ gap body, text = gap ++ body ∧ Gap gap ∧ Unspaced body ∧ P body

theorem BehindSpace.behindGap {P : List Char → Prop} {text : List Char} (h : BehindSpace P text) :
    BehindGap P text :=
  h.imp_right fun ⟨body, htext, hu, hP⟩ ↦ ⟨[' '], body, htext, gap_space, hu, hP⟩

theorem BehindSpace.spaced {P : List Char → Prop} {α : Type} {render : α → List Char}
    {words : List α} {rest : List Char}
    (h : ∀ word ∈ words, ∀ tail, Unspaced (render word ++ tail) ∧ P (render word ++ tail))
    (hr : BehindSpace P rest) : BehindSpace P (spaced render words ++ rest) := by
  cases words with
  | nil => exact hr
  | cons word words =>
    obtain ⟨hu, hP⟩ := h word List.mem_cons_self (EntityModels.spaced render words ++ rest)
    exact .inr ⟨_, spaced_cons render word words rest, hu, hP⟩

/-- A run of characters ends with the text, if not before, where none of them follows. -/
theorem takeWhile_append_blocked {test : Char → Bool} {rest : List Char}
    (hr : rest.head?.any test = false) (text : List Char) :
    (text ++ rest).takeWhile test = text.takeWhile test ∧
      (text ++ rest).dropWhile test = text.dropWhile test ++ rest := by
  induction text with
  | nil => exact takeWhile_of_head hr
  | cons x text ih =>
    cases hx : test x with
    | true => simp [hx, ih.1, ih.2]
    | false => simp [hx]

theorem takeWhile_append_stop {test : Char → Bool} {text rest : List Char}
    (h : ∀ c ∈ text, test c = true) (hr : rest.head?.any test = false) :
    (text ++ rest).takeWhile test = text ∧ (text ++ rest).dropWhile test = rest := by
  obtain ⟨htake, hdrop⟩ := takeWhile_append_blocked hr text
  obtain ⟨hall, hnone⟩ := takeWhile_of_all h
  rw [htake, hdrop, hall, hnone]
  exact ⟨rfl, rfl⟩

theorem IdentKind.Names.ne_nil {kind : IdentKind} {text : String} (h : kind.Names text) :
    text.toList ≠ [] := by
  intro hnil
  have hstarts := h.starts
  rw [hnil] at hstarts
  cases hstarts

theorem unspaced_word {text : List Char} (hne : text ≠ []) (h : ∀ c ∈ text, isIdentChar c)
    (rest : List Char) : Unspaced (text ++ rest) := by
  obtain ⟨c, cs, rfl⟩ := List.exists_cons_of_ne_nil hne
  exact .of_head (isHorizontalSpace_of_isIdentChar (h c List.mem_cons_self)) _

theorem IdentKind.Names.unspaced {kind : IdentKind} {text : String} (h : kind.Names text)
    (rest : List Char) : Unspaced (text.toList ++ rest) := unspaced_word h.ne_nil h.continues rest

theorem not_prefix_of_head {word text : List Char} {x y : Char} (h : x ≠ y) :
    ¬x :: word <+: y :: text := by
  rw [List.cons_prefix_cons]
  exact fun hp ↦ h hp.1

theorem IdentKind.Names.head_append {kind : IdentKind} {text : String} (h : kind.Names text)
    (rest : List Char) : ∃ c cs, text.toList ++ rest = c :: cs ∧ kind.starts c := by
  obtain ⟨c, cs, hc⟩ := List.exists_cons_of_ne_nil h.ne_nil
  have hstarts := h.starts
  rw [hc] at hstarts
  refine ⟨c, cs ++ rest, ?_, hstarts⟩
  rw [hc, List.cons_append]

theorem IdentKind.Names.head_any {kind : IdentKind} {text : String} (h : kind.Names text)
    (rest : List Char) : (text.toList ++ rest).head?.any kind.starts := by
  obtain ⟨c, cs, hc, hstarts⟩ := h.head_append rest
  rw [hc]
  exact hstarts

theorem IdentKind.Names.begins_unlike {kind : IdentKind} {text : String} (h : kind.Names text)
    {x : Char} (hx : kind.starts x = false) (word rest : List Char) :
    ¬x :: word <+: text.toList ++ rest := by
  obtain ⟨c, cs, hc, hstarts⟩ := h.head_append rest
  rw [hc]
  apply not_prefix_of_head
  rintro rfl
  rw [hx] at hstarts
  cases hstarts

namespace Reader

variable {text rest : List Char}

theorem reads_takeWhile {test : Char → Bool} (h : ∀ c ∈ text, test c = true)
    (hr : rest.head?.any test = false) :
    (takeWhile test).Reads (text ++ rest) (· = text) rest := by
  intro p
  obtain ⟨ht, hd⟩ := takeWhile_append_stop h hr
  exact ⟨_, _, rfl, ht, hd⟩

theorem reads_blanks (h : ∀ c ∈ text, isHorizontalSpace c) (hr : Unspaced rest) :
    space.Reads (text ++ rest) (· = text) rest := reads_takeWhile h hr

theorem reads_noSpace (h : Unspaced text) : space.Reads text (· = []) text :=
  @reads_blanks [] text (by simp) h

theorem reads_space (h : Unspaced rest) : space.Reads (' ' :: rest) (· = [' ']) rest :=
  @reads_blanks [' '] rest gap_space.2 h

theorem reads_gap (hg : Gap text) (h : Unspaced rest) :
    someSpace.Reads (text ++ rest) (· = true) rest := by
  refine (reads_blanks hg.2 h).bindEq (.pure ?_)
  simpa using hg.1

theorem reads_someSpace (h : Unspaced rest) : someSpace.Reads (' ' :: rest) (· = true) rest :=
  reads_gap gap_space h

theorem reads_someSpace_none (h : Unspaced text) : someSpace.Reads text (· = false) text :=
  (reads_noSpace h).bindEq (.pure rfl)

theorem reads_separator (before : String) (h : Unspaced rest) :
    (separator before).Reads (' ' :: rest) (fun _ ↦ True) rest :=
  (reads_someSpace h).bindEq (.pure trivial)

theorem reads_indentation (h : Unspaced rest) :
    indentation.Reads (indent ++ rest) (fun _ ↦ True) rest := by
  have hspaces : space.Reads (indent ++ rest) (· = indent) rest := by
    refine reads_blanks (fun c hc ↦ ?_) h
    obtain rfl : c = ' ' := by simpa [indent] using hc
    decide
  have hsome : someSpace.Reads (indent ++ rest) (· = true) rest := hspaces.bindEq (.pure rfl)
  exact hsome.bindEq (.pure trivial)

/-- The reader fails where a line is over, and not for good. -/
def RefusesOver {α : Type} (r : Reader α) : Prop := ∀ ⦃text⦄, Over text → r.Refuses text

theorem RefusesOver.bind {α β : Type} {r : Reader α} {k : α → Reader β} (h : r.RefusesOver) :
    (r >>= k).RefusesOver := fun _ htext ↦ (h htext).bind

theorem refuses_mismatch {α : Type} (expected : String) :
    (mismatch expected : Reader α).Refuses text :=
  fun p ↦ ⟨_, ⟨text, p⟩, rfl, rfl⟩

theorem refuses_separator (before : String) (h : Unspaced text) :
    (separator before).Refuses text := by
  refine (reads_someSpace_none h).bindRefuses fun found hf ↦ ?_
  rw [hf]
  exact refuses_mismatch _

theorem reads_literal (word : String) (rest : List Char) :
    (literal word).Reads (word.toList ++ rest) (· = true) rest := by
  intro p
  refine ⟨true, (Cursor.mk (word.toList ++ rest) p).past word.toList rest, ?_, rfl, rfl⟩
  rw [literal_apply, isPrefixOf?_eq_some_iff.2 rfl]

theorem reads_noLiteral {word : String} (h : ¬word.toList <+: text) :
    (literal word).Reads text (· = false) text := by
  intro p
  refine ⟨false, ⟨text, p⟩, ?_, rfl, rfl⟩
  have hnone : word.toList.isPrefixOf? text = none := by
    rw [Option.eq_none_iff_forall_ne_some]
    intro rest hr
    exact h ⟨rest, (isPrefixOf?_eq_some_iff.1 hr).symm⟩
  rw [literal_apply, hnone]

theorem reads_keyword (word : String) (rest : List Char) :
    (keyword word).Reads (word.toList ++ rest) (fun _ ↦ True) rest :=
  (reads_literal word rest).bindEq (.pure trivial)

theorem reads_token (hne : text ≠ []) (h : ∀ c ∈ text, isIdentChar c) (hr : EndsWord rest) :
    token.Reads (text ++ rest) (· = some text) rest := by
  refine (reads_takeWhile h hr.1).bindEq (.pure ?_)
  rw [if_neg]
  rwa [List.isEmpty_iff]

theorem reads_ident {kind : IdentKind} {name : String} (expected : String) (h : kind.Names name)
    (hr : EndsWord rest) :
    (ident kind expected).Reads (name.toList ++ rest) (fun a ↦ a.text = name) rest := by
  intro p
  obtain ⟨ht, hd⟩ := takeWhile_append_stop h.continues hr.1
  obtain ⟨c, cs, hc, hstarts⟩ := h.head_append rest
  let behind := (Cursor.mk (name.toList ++ rest) p).skip isIdentChar
  have hboundary : isNameBoundary behind.next? := by
    change isNameBoundary ((name.toList ++ rest).dropWhile isIdentChar).head?
    rw [hd]
    exact hr.2
  have hfirst : (Cursor.mk (name.toList ++ rest) p).next?.any kind.starts := by
    rw [hc]
    exact hstarts
  have hfree : kind.reserved.contains name = false := by
    rw [List.contains_eq_mem]
    exact decide_eq_false h.free
  refine ⟨⟨name, p.spanTo behind.position⟩, behind, ?_, rfl, hd⟩
  rw [ident_apply, ht, String.ofList_toList, hfirst, hboundary]
  simp only [hfree]
  rfl

theorem refuses_ident {kind : IdentKind} (expected : String)
    (h : text.head?.any kind.starts = false) : (ident kind expected).Refuses text := by
  intro p
  have hfirst : (Cursor.mk text p).next?.any kind.starts = false := h
  refine ⟨(Cursor.mk text p).mismatch expected, ⟨text, p⟩, ?_, rfl⟩
  rw [ident_apply, hfirst]
  rfl

theorem refuses_reserved {kind : IdentKind} {word : String} (expected : String)
    (h : ∀ c ∈ word.toList, isIdentChar c) (hw : word ∈ kind.reserved) (hr : EndsWord rest) :
    (ident kind expected).Refuses (word.toList ++ rest) := by
  intro p
  obtain ⟨ht, -⟩ := takeWhile_append_stop h hr.1
  have hreserved : kind.reserved.contains word := by
    rw [List.contains_eq_mem]
    exact decide_eq_true hw
  refine ⟨(Cursor.mk (word.toList ++ rest) p).mismatch expected, ⟨word.toList ++ rest, p⟩, ?_, rfl⟩
  rw [ident_apply, ht, String.ofList_toList]
  simp only [hreserved, Bool.not_true, Bool.and_false]
  rfl

theorem reads_next? (text : List Char) : next?.Reads text (· = text.head?) text :=
  fun p ↦ ⟨_, ⟨text, p⟩, rfl, rfl, rfl⟩

theorem reads_lineEnd (rest : List Char) : lineEnd.Reads ('\n' :: rest) (fun _ ↦ True) rest :=
  fun _ ↦ ⟨(), _, lineEnd_apply _, trivial, rfl⟩

theorem reads_finishLine (rest : List Char) :
    finishLine.Reads ('\n' :: rest) (fun _ ↦ True) rest :=
  (@reads_takeWhile [] ('\n' :: rest) _ (by simp) rfl).bindEq (reads_lineEnd rest)

variable {kind : IdentKind}

theorem reads_clauseIdent {name : String} (expected : String) (h : kind.Names name)
    (hr : EndsWord rest) :
    (clauseIdent false kind expected).Reads (name.toList ++ rest) (fun a ↦ a.text = name) rest := by
  have hmarker : (strayMarker false).Reads (name.toList ++ rest) (fun _ ↦ True)
      (name.toList ++ rest) := .pure trivial
  exact hmarker.bind fun _ _ ↦ reads_ident expected h hr

theorem refuses_clauseIdent (expected : String) (h : text.head?.any kind.starts = false) :
    (clauseIdent false kind expected).Refuses text := by
  have hmarker : (strayMarker false).Reads text (fun _ ↦ True) text := .pure trivial
  exact hmarker.bindRefuses fun _ _ ↦ refuses_ident expected h

theorem reads_listedIdent {name : String} (expected : String) (h : kind.Names name)
    (hr : EndsWord rest) : (listedIdent false kind expected).Reads (' ' :: name.toList ++ rest)
      (fun a ↦ a.text = name) rest := by
  rw [List.cons_append]
  refine (reads_separator expected (h.unspaced rest)).bind fun _ _ ↦ ?_
  exact reads_clauseIdent expected h hr

theorem refuses_listedIdent (expected : String) (h : Unspaced text) :
    (listedIdent false kind expected).Refuses text := (refuses_separator expected h).bind

theorem reads_moreNames (expected : String) {names : List (Ident kind)}
    (h : ∀ name ∈ names, kind.Names name.text) (hr : EndsWord rest) (hs : Unspaced rest) :
    Reads (collect (orNone (listedIdent false kind expected))
        (listedIdent_forward false kind expected).orNone)
      (spaced Ident.render names ++ rest) (fun found ↦ found.map Ident.text = names.map Ident.text)
        rest := by
  induction names with
  | nil =>
    refine (Reads.collectDone (refuses_listedIdent expected hs).orNone).mono ?_
    rintro _ rfl
    rfl
  | cons name names ih =>
    have hname := reads_listedIdent expected (h name List.mem_cons_self)
      (endsWord_spaced Ident.render names hr)
    have hmore := ih fun n hn ↦ h n (List.mem_cons_of_mem name hn)
    have htext : spaced Ident.render (name :: names) ++ rest =
        ' ' :: name.text.toList ++ (spaced Ident.render names ++ rest) := by
      simp [spaced, Ident.render]
    rw [htext]
    refine (Reads.collectCons hname.orNone ?_ hmore).mono ?_
    · simp only [List.cons_append, List.length_cons, List.length_append]
      omega
    · rintro _ ⟨a, as, rfl, ha, has⟩
      rw [List.map_cons, List.map_cons, ha, has]

theorem reads_names (expected : String) {names : List (Ident kind)} (h : IdentKind.NamesAll names)
    (hr : EndsWord rest) (hs : Unspaced rest) :
    (Reader.names false kind expected).Reads (spaced Ident.render names ++ rest)
      (fun found ↦ found.map Ident.text = names.map Ident.text) rest := by
  obtain ⟨hne, hall⟩ := h
  obtain ⟨name, names, rfl⟩ := List.exists_cons_of_ne_nil hne
  have htext : spaced Ident.render (name :: names) ++ rest =
      ' ' :: name.text.toList ++ (spaced Ident.render names ++ rest) := by
    simp [spaced, Ident.render]
  rw [htext]
  refine (reads_listedIdent expected (hall name List.mem_cons_self)
    (endsWord_spaced Ident.render names hr)).bind fun first hfirst ↦ ?_
  refine (reads_moreNames expected (fun n hn ↦ hall n (List.mem_cons_of_mem name hn)) hr hs).bind
    fun more hmore ↦ .pure ?_
  rw [List.map_cons, List.map_cons, hfirst, hmore]

end Reader

end EntityModels
