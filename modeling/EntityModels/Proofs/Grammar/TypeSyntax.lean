import EntityModels.Proofs.Grammar.Commitment

namespace EntityModels

namespace Reader

theorem ident_exact {kind : IdentKind} {name : String} {rest : List Char} {c : Cursor}
    (expected : String) (h : kind.Names name) (hr : EndsWord rest)
    (hc : c.rest = name.toList ++ rest) : ident kind expected c =
      .ok ⟨name, c.position.spanTo (c.position.after name.toList)⟩ (c.past name.toList rest) := by
  obtain ⟨a, hread, rfl⟩ := (reads_ident expected h hr).exact (ident_forward kind expected) hc
  obtain ⟨-, ha, hd⟩ := ident_ok.1 hread
  rw [hread, ha]
  simp only [← hd]
  simp [Cursor.past, ha]

/-- Where no name can be read, the cursor stays. -/
theorem ident_of_no_names {kind : IdentKind} {expected : String} {c : Cursor}
    (h : ∀ name rest, c.rest = name.toList ++ rest → kind.Names name → ¬EndsWord rest) :
    ident kind expected c = .error (c.mismatch expected) c := by
  cases hread : ident kind expected c with
  | ok a d =>
    obtain ⟨hwritten, -, hname, hends⟩ := written_of_ident hread
    exact absurd hends (h _ _ hwritten hname)
  | error e d =>
    rw [ident_apply] at hread
    dsimp only at hread
    split at hread
    · cases hread
    · exact hread.symm

end Reader

namespace FieldType

def opening (isList : Bool) (strictness : Strictness) : List Char :=
  (if isList then ['['] else []) ++ strictness.render

def closing (isList : Bool) : List Char := if isList then [']'] else []

/-- The text goes on with some space and the word for what may be absent. -/
def MaybeAhead (text : List Char) : Prop :=
  ∃ gap tail, text = gap ++ (Keyword.maybe.toList ++ tail) ∧ Gap gap

/-- A bracket and a marker, each if it is there, and the text behind them. -/
structure Opened (text : List Char) (isList : Bool) (strictness : Strictness)
    (rest : List Char) : Prop where
  text_eq : text = opening isList strictness ++ rest
  bracket : isList = false → text.head? ≠ some '['
  marker : strictness = .strict → rest.head? ≠ some '!' ∧ rest.head? ≠ some '~'

theorem exists_opened (text : List Char) :
    ∃ isList strictness rest, Opened text isList strictness rest := by
  obtain ⟨isList, body, htext, hbracket⟩ : ∃ (isList : Bool) (body : List Char),
      text = (if isList then ['['] else []) ++ body ∧
        (isList = false → text.head? ≠ some '[') := by
    by_cases h : text.head? = some '['
    · exact ⟨true, text.tail, by simp [List.cons_head?_tail h], by simp⟩
    · exact ⟨false, text, by simp, fun _ ↦ h⟩
  have htext' (strictness : Strictness) (rest : List Char) (h : body = strictness.render ++ rest) :
      text = opening isList strictness ++ rest := by
    simpa [opening, h] using htext
  by_cases hs : body.head? = some '!'
  · exact ⟨isList, .explicitStrict, body.tail,
      htext' _ _ (by simp [Strictness.render, List.cons_head?_tail hs]), hbracket, by simp⟩
  by_cases hl : body.head? = some '~'
  · exact ⟨isList, .lazy, body.tail,
      htext' _ _ (by simp [Strictness.render, List.cons_head?_tail hl]), hbracket, by simp⟩
  · exact ⟨isList, .strict, body, htext' _ _ (by simp [Strictness.render]), hbracket,
      fun _ ↦ ⟨hs, hl⟩⟩

theorem opened_of_names {isList : Bool} {strictness : Strictness} {name : String}
    (h : IdentKind.type.Names name) (rest : List Char) :
    Opened (opening isList strictness ++ (name.toList ++ rest)) isList strictness
      (name.toList ++ rest) := by
  obtain ⟨x, text, htext, hx⟩ := h.head_append rest
  have hunlike (y : Char) (hy : IdentKind.type.starts y = false) : x ≠ y := by
    rintro rfl
    simp [hx] at hy
  have hbracket := hunlike '[' (by decide)
  have hstrict := hunlike '!' (by decide)
  have hlazy := hunlike '~' (by decide)
  rw [htext]
  refine ⟨rfl, ?_, fun _ ↦ by simp [hstrict, hlazy]⟩
  rintro rfl
  cases strictness <;> simp [opening, Strictness.render, hbracket]

def markerOf : Strictness → Option Char
  | .strict => none
  | .explicitStrict => some '!'
  | .lazy => some '~'

theorem ofMarker_markerOf (strictness : Strictness) :
    Strictness.ofMarker (markerOf strictness) = strictness := by
  cases strictness <;> rfl

namespace Opened

variable {isList : Bool} {strictness : Strictness} {rest : List Char} {c : Cursor}

theorem commits_iff {text : List Char} (h : Opened text isList strictness rest) :
    Commits text ↔ isList || (markerOf strictness).isSome := by
  obtain ⟨rfl, hbracket, hmarker⟩ := h
  cases isList with
  | true => simp [Commits, opening]
  | false =>
    cases strictness with
    | explicitStrict | lazy => simp [Commits, opening, Strictness.render, markerOf]
    | strict =>
      cases rest with
      | nil => simp [Commits, opening, Strictness.render, markerOf]
      | cons x rest => simp_all [Commits, opening, Strictness.render, markerOf]

theorem read_eq (h : Opened c.rest isList strictness rest) : ∃ c₁,
    Reader.literal "[" c = .ok isList c₁ ∧
      Reader.marker c₁ = .ok (markerOf strictness) (c.past (opening isList strictness) rest) := by
  have hc : c.rest = (if isList then ['['] else []) ++ (strictness.render ++ rest) := by
    simpa [opening] using h.text_eq
  refine ⟨_, Reader.Reads.exactEq ?_ (.literal "[") hc, ?_⟩
  · cases isList with
    | true => exact Reader.reads_literal "[" _
    | false =>
      apply Reader.reads_noLiteral
      rintro ⟨tail, htail⟩
      apply h.bracket rfl
      rw [hc, ← htail]
      simp
  · rw [Reader.marker_apply, opening]
    cases strictness with
    | strict => simp [Cursor.next?, Cursor.past, Strictness.render, markerOf, h.marker rfl]
    | explicitStrict | lazy => simp [Cursor.next?, Cursor.past, Strictness.render, markerOf]

end Opened

def spelled (start stop : Position) (isList : Bool) (strictness : Strictness) (name : String)
    (isMaybe : Bool) : FieldType where
  typeName :=
    let first := start.after (opening isList strictness)
    ⟨name, first.spanTo (first.after name.toList)⟩
  strictness := strictness
  isList := isList
  isMaybe := isMaybe
  span := start.spanTo stop

section

variable {isList : Bool} {strictness : Strictness} {name : String} {behind : List Char} {c : Cursor}

theorem reads_closeBracket (isList : Bool) (behind : List Char) :
    (closeBracket isList).Reads (closing isList ++ behind) (· = ()) behind := by
  cases isList with
  | true => exact ((Reader.reads_keyword "]" behind).committedIf true).mono fun _ _ ↦ rfl
  | false => exact .pure rfl

theorem closeBracket_eq (hc : c.rest = closing isList ++ behind) :
    closeBracket isList c = .ok () (c.past (closing isList) behind) :=
  Reader.Reads.exactEq (reads_closeBracket isList behind) (closeBracket_forward isList) hc

def behindName (start : Position) (isList : Bool) (strictness : Strictness) (name : String) :
    Reader FieldType := do
  closeBracket isList
  let isMaybe ← maybeSuffix
  let stop ← Reader.position
  return spelled start stop isList strictness name isMaybe

theorem reader_of_name (hc : c.rest = opening isList strictness ++ (name.toList ++ behind))
    (hname : IdentKind.type.Names name) (hends : EndsWord behind) : reader c =
      behindName c.position isList strictness name
        (c.past (opening isList strictness ++ name.toList) behind) := by
  have hopened : Opened c.rest isList strictness (name.toList ++ behind) :=
    hc ▸ opened_of_names hname behind
  obtain ⟨c₁, hliteral, hmarker⟩ := hopened.read_eq
  have hposition : Reader.position c = .ok c.position c := rfl
  have hident := @Reader.ident_exact _ _ _ (c.past (opening isList strictness) _) "type name"
    hname hends rfl
  rw [Cursor.past_past] at hident
  rw [reader, behindName]
  simp only [bind_apply, hposition, hliteral, hmarker, Reader.committedIf, hident,
    ofMarker_markerOf]
  rfl

def front (isList : Bool) (strictness : Strictness) (name : String) : List Char :=
  opening isList strictness ++ (name.toList ++ closing isList)

theorem unspaced_front {isList : Bool} {strictness : Strictness} {name : String}
    (h : IdentKind.type.Names name) (rest : List Char) :
    Unspaced (front isList strictness name ++ rest) := by
  have hname := h.unspaced (closing isList ++ rest)
  cases isList with
  | true => exact .of_head (x := '[') (by decide) _
  | false =>
    cases strictness with
    | strict => simpa [front, opening, Strictness.render] using hname
    | explicitStrict => exact .of_head (x := '!') (by decide) _
    | lazy => exact .of_head (x := '~') (by decide) _

theorem reader_of_front {isMaybe : Bool} {d : Cursor}
    (hc : c.rest = front isList strictness name ++ behind) (hname : IdentKind.type.Names name)
    (hends : EndsWord (closing isList ++ behind))
    (hmaybe : maybeSuffix (c.past (front isList strictness name) behind) = .ok isMaybe d) :
    reader c = .ok (spelled c.position d.position isList strictness name isMaybe) d := by
  have hrest : c.rest =
      opening isList strictness ++ (name.toList ++ (closing isList ++ behind)) := by
    simpa [front] using hc
  have hclose := @closeBracket_eq isList behind
    (c.past (opening isList strictness ++ name.toList) _) rfl
  have hfront : opening isList strictness ++ name.toList ++ closing isList =
      front isList strictness name := by simp [front]
  rw [Cursor.past_past, hfront] at hclose
  rw [reader_of_name hrest hname hends, behindName]
  simp only [bind_apply, hclose, hmaybe]
  rfl

def spacedMaybe : Reader Bool := do
  if ← Reader.someSpace then Reader.literal Keyword.maybe else return false

theorem reads_maybe {gap : List Char} (hg : Gap gap) (tail : List Char) :
    maybeSuffix.Reads (gap ++ Keyword.maybe.toList ++ tail) (· = true) tail := by
  have hu : Unspaced (Keyword.maybe.toList ++ tail) := .of_head (x := 'M') (by decide) _
  have hread : spacedMaybe.Reads (gap ++ (Keyword.maybe.toList ++ tail)) (· = true) tail :=
    (Reader.reads_gap hg hu).bindEq (Reader.reads_literal _ tail)
  rw [List.append_assoc]
  exact hread.kept fun _ ha ↦ ha

theorem not_maybeAhead {text : List Char}
    (h : BehindGap (fun body ↦ ¬Keyword.maybe.toList <+: body) text) : ¬MaybeAhead text := by
  rintro ⟨gap, tail, rfl, hgap⟩
  rcases h with hu | ⟨gap', body, htext, hgap', hu', hno⟩
  · exact absurd (hu.symm.trans (hgap.head_any _)) Bool.false_ne_true
  · have hu : Unspaced (Keyword.maybe.toList ++ tail) := .of_head (x := 'M') (by decide) _
    obtain ⟨-, hbody⟩ := takeWhile_append_stop hgap.2 hu
    obtain ⟨-, hbody'⟩ := takeWhile_append_stop hgap'.2 hu'
    rw [htext, hbody'] at hbody
    exact hno ⟨tail, hbody.symm⟩

theorem reads_noMaybe {text : List Char} (h : ¬MaybeAhead text) :
    maybeSuffix.Reads text (· = false) text := by
  obtain ⟨mid, hread⟩ : ∃ mid, spacedMaybe.Reads text (· = false) mid := by
    cases hs : text.head?.any isHorizontalSpace with
    | false => exact ⟨text, (Reader.reads_someSpace_none hs).bindEq (.pure rfl)⟩
    | true =>
      obtain ⟨gap, body, rfl, hg, hu⟩ := exists_gap hs
      have hno : ¬Keyword.maybe.toList <+: body := by
        rintro ⟨tail, rfl⟩
        exact h ⟨gap, tail, rfl, hg⟩
      exact ⟨body, (Reader.reads_gap hg hu).bindEq (Reader.reads_noLiteral hno)⟩
  exact hread.givenBack fun _ ha ↦ ha

end

/-- The text at `c` begins with the type, and `d` is where the type ends. -/
def Spells (c : Cursor) (type : FieldType) (d : Cursor) : Prop :=
  ∃ isList strictness name isMaybe suffix,
    type = spelled c.position d.position isList strictness name isMaybe ∧
    IdentKind.type.Names name ∧
    c.rest = front isList strictness name ++ (suffix ++ d.rest) ∧
    d.position = c.position.after (front isList strictness name ++ suffix) ∧
    EndsWord (closing isList ++ (suffix ++ d.rest)) ∧
    (isMaybe = true ↔ MaybeAhead (suffix ++ d.rest)) ∧
    if isMaybe then ∃ gap, Gap gap ∧ suffix = gap ++ Keyword.maybe.toList else suffix = []

variable {c d : Cursor}

theorem Spells.reader_eq {type : FieldType} (h : Spells c type d) : reader c = .ok type d := by
  obtain ⟨isList, strictness, name, isMaybe, suffix, rfl, hname, hc, hd, hends, hmaybe,
    hsuffix⟩ := h
  have hbehind : d = c.past (front isList strictness name ++ suffix) d.rest := by
    simp [Cursor.past, ← hd]
  apply reader_of_front hc hname hends
  rw [hbehind, ← Cursor.past_past _ _ _ (suffix ++ d.rest)]
  cases isMaybe with
  | true =>
    obtain ⟨gap, hg, rfl⟩ := hsuffix
    exact (reads_maybe hg d.rest).exactEq maybeSuffix_forward rfl
  | false =>
    obtain rfl : suffix = [] := hsuffix
    have hno : ¬MaybeAhead d.rest := by simpa using hmaybe
    have hread : maybeSuffix.Reads ([] ++ d.rest) (· = false) d.rest := reads_noMaybe hno
    exact hread.exactEq maybeSuffix_forward rfl

theorem exists_spells_of_front {isList : Bool} {strictness : Strictness} {name : String}
    {behind : List Char} (hc : c.rest = front isList strictness name ++ behind)
    (hname : IdentKind.type.Names name) (hends : EndsWord (closing isList ++ behind)) :
    ∃ type d, Spells c type d := by
  by_cases h : MaybeAhead behind
  · obtain ⟨gap, tail, rfl, hg⟩ := id h
    refine ⟨_, c.past (front isList strictness name ++ (gap ++ Keyword.maybe.toList)) tail,
      isList, strictness, name, true, gap ++ Keyword.maybe.toList, rfl, hname, ?_, rfl, ?_, ?_,
      gap, hg, rfl⟩
    · simpa [Cursor.past] using hc
    · simpa [Cursor.past] using hends
    · simpa [Cursor.past] using h
  · refine ⟨_, c.past (front isList strictness name) behind, isList, strictness, name, false, [],
      rfl, hname, ?_, ?_, ?_, ?_, rfl⟩
    · simpa [Cursor.past] using hc
    · simp [Cursor.past]
    · simpa [Cursor.past] using hends
    · simpa [Cursor.past] using h

/-- What is missing where the text at `c` begins with no type, and the place it is missing from. -/
inductive Lacks (c : Cursor) : Cursor → String → Prop where
  | name {isList : Bool} {strictness : Strictness} {rest : List Char} :
      Opened c.rest isList strictness rest →
      (∀ name behind, rest = name.toList ++ behind → IdentKind.type.Names name →
        ¬EndsWord behind) →
      Lacks c (c.past (opening isList strictness) rest) "type name"
  | bracket {strictness : Strictness} {name : String} {behind : List Char} :
      c.rest = opening true strictness ++ (name.toList ++ behind) →
      IdentKind.type.Names name → EndsWord behind → behind.head? ≠ some ']' →
      Lacks c (c.past (opening true strictness ++ name.toList) behind) "`]`"

theorem closeBracket_error (h : c.rest.head? ≠ some ']') :
    closeBracket true c = .error (c.mismatch "`]`").toFatal c := by
  have hnone : "]".toList.isPrefixOf? c.rest = none := by
    simpa [Reader.isPrefixOf?_singleton] using h
  have hkeyword : Reader.keyword "]" c = .error (c.mismatch "`]`") c := by
    rw [Reader.keyword_apply, hnone]
    rfl
  simp [closeBracket, Reader.committedIf, hkeyword]

theorem Lacks.reader_eq {expected : String} (h : Lacks c d expected) {fatal : Bool}
    (hf : fatal = true ↔ Commits c.rest) :
    reader c = .error { d.mismatch expected with fatal } d := by
  have hposition (e : Cursor) : Reader.position e = .ok e.position e := rfl
  cases h with
  | @name isList strictness rest hopened hno =>
    obtain ⟨c₁, hliteral, hmarker⟩ := hopened.read_eq
    obtain rfl : fatal = (isList || (markerOf strictness).isSome) :=
      Bool.eq_iff_iff.2 (hf.trans hopened.commits_iff)
    have hident := @Reader.ident_of_no_names .type "type name"
      (c.past (opening isList strictness) rest) hno
    rw [reader]
    simp only [bind_apply, hposition, hliteral, hmarker, Reader.committedIf, hident]
    cases isList || (markerOf strictness).isSome <;> rfl
  | @bracket strictness name behind hc hname hends hbracket =>
    have hcommits : Commits c.rest := by simp [Commits, hc, opening]
    obtain rfl : fatal = true := hf.2 hcommits
    have hclose := @closeBracket_error
      (c.past (opening true strictness ++ name.toList) behind) hbracket
    rw [reader_of_name hc hname hends, behindName]
    simp only [bind_apply, hclose]
    rfl

/-- A text begins with a type or lacks a part of one. -/
theorem spells_or_lacks (c : Cursor) :
    (∃ type d, Spells c type d) ∨ ∃ d expected, Lacks c d expected := by
  obtain ⟨isList, strictness, rest, hopened⟩ := exists_opened c.rest
  have hc := hopened.text_eq
  -- a name is looked for first: a bracket that is not closed is noticed only behind one
  by_cases h : ∃ name behind, rest = name.toList ++ behind ∧ IdentKind.type.Names name ∧
      EndsWord behind
  swap
  · refine .inr ⟨_, _, .name hopened fun name behind hrest hname hends ↦ ?_⟩
    exact h ⟨name, behind, hrest, hname, hends⟩
  obtain ⟨name, behind, rfl, hname, hends⟩ := h
  cases isList with
  | false =>
    have hfront : c.rest = front false strictness name ++ behind := by
      simpa [front, closing] using hc
    exact .inl (exists_spells_of_front hfront hname hends)
  | true =>
    by_cases hbracket : behind.head? = some ']'
    · obtain ⟨tail, rfl⟩ : ∃ tail, behind = closing true ++ tail :=
        ⟨behind.tail, (List.cons_head?_tail hbracket).symm⟩
      have hfront : c.rest = front true strictness name ++ tail := by
        simpa [front] using hc
      exact .inl (exists_spells_of_front hfront hname hends)
    · exact .inr ⟨_, _, .bracket hc hname hends hbracket⟩

theorem reader_ok_iff {type : FieldType} : reader c = .ok type d ↔ Spells c type d := by
  constructor
  · intro h
    rcases spells_or_lacks c with ⟨type', d', hspells⟩ | ⟨d', expected, hlacks⟩
    · cases h.symm.trans hspells.reader_eq
      exact hspells
    · obtain ⟨fatal, hf⟩ : ∃ fatal : Bool, fatal = true ↔ Commits c.rest := ⟨_, .rfl⟩
      cases h.symm.trans (hlacks.reader_eq hf)
  · exact Spells.reader_eq

theorem reader_error_iff {e : Failure} : reader c = .error e d ↔
    (∃ expected, Lacks c d expected ∧ e = { d.mismatch expected with fatal := e.fatal }) ∧
      (e.fatal ↔ Commits c.rest) := by
  constructor
  · intro h
    rcases spells_or_lacks c with ⟨type, d', hspells⟩ | ⟨d', expected, hlacks⟩
    · cases h.symm.trans hspells.reader_eq
    · obtain ⟨fatal, hf⟩ : ∃ fatal : Bool, fatal = true ↔ Commits c.rest := ⟨_, .rfl⟩
      cases h.symm.trans (hlacks.reader_eq hf)
      exact ⟨⟨expected, hlacks, rfl⟩, hf⟩
  · rintro ⟨⟨expected, hlacks, he⟩, hf⟩
    rw [he]
    exact hlacks.reader_eq hf

theorem grammatical_of_ok {type : FieldType} (h : reader c = .ok type d) : Grammatical c.rest := by
  obtain ⟨isList, strictness, name, isMaybe, suffix, -, hname, hc, -, hends, -⟩ := reader_ok_iff.1 h
  refine ⟨isList, strictness, name, closing isList ++ (suffix ++ d.rest), ?_, hname, hends, ?_⟩
  · simpa [front, opening] using hc
  · rintro rfl
    rfl

theorem ok_of_grammatical (h : Grammatical c.rest) : ∃ type d, reader c = .ok type d := by
  obtain ⟨isList, strictness, name, rest, htext, hname, hends, hclose⟩ := h
  obtain ⟨tail, rfl⟩ : ∃ tail, rest = closing isList ++ tail := by
    cases isList with
    | false => exact ⟨rest, rfl⟩
    | true => exact ⟨rest.tail, (List.cons_head?_tail (hclose rfl)).symm⟩
  have hfront : c.rest = front isList strictness name ++ tail := by
    simpa [front, opening] using htext
  obtain ⟨type, d, hspells⟩ := exists_spells_of_front hfront hname hends
  exact ⟨type, d, hspells.reader_eq⟩

theorem fatal_iff (c : Cursor) : (∃ e d, reader c = .error e d ∧ e.fatal) ↔
    Commits c.rest ∧ ¬Grammatical c.rest := by
  constructor
  · rintro ⟨e, d, h, hf⟩
    refine ⟨(reader_error_iff.1 h).2.1 hf, fun hg ↦ ?_⟩
    obtain ⟨type, d', hok⟩ := ok_of_grammatical hg
    cases h.symm.trans hok
  · rintro ⟨hcommits, hg⟩
    cases h : reader c with
    | ok type d => exact absurd (grammatical_of_ok h) hg
    | error e d => exact ⟨e, d, rfl, (reader_error_iff.1 h).2.2 hcommits⟩

/-- A type is read of exactly those texts that the grammar lets begin with one, whole, with its
suffix and without what follows. Any other text is refused where the name or the closing bracket is
missing, and for good exactly if it begins with a bracket or a marker. -/
theorem reader_exact (c : Cursor) :
    ((∃ type d, reader c = .ok type d) ↔ Grammatical c.rest) ∧
    (∀ type d, reader c = .ok type d ↔ Spells c type d) ∧
    ∀ e d, reader c = .error e d ↔
      (∃ expected, Lacks c d expected ∧ e = { d.mismatch expected with fatal := e.fatal }) ∧
        (e.fatal ↔ Commits c.rest) :=
  ⟨⟨fun ⟨_, _, h⟩ ↦ grammatical_of_ok h, ok_of_grammatical⟩, fun _ _ ↦ reader_ok_iff,
    fun _ _ ↦ reader_error_iff⟩

end FieldType

end EntityModels
