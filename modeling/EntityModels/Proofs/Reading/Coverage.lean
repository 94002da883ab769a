import EntityModels.Proofs.Parsing.Returns
import EntityModels.Proofs.Reading.Documents
import EntityModels.Proofs.Text.Extent

namespace EntityModels

/-- A line of a text as a document has it: where it begins there, and the whole of its text if it
declares nothing. -/
structure Row where
  start : Location
  text? : Option String
  deriving DecidableEq, Repr

def Member.trivia? : Member → Option String
  | blank line => some line.text
  | comment line => some line.text
  | _ => none

def Member.row (m : Member) : Row := ⟨m.span.start, m.trivia?⟩

def Entity.rows (e : Entity) : List Row := ⟨e.span.start, none⟩ :: e.members.map Member.row

def Item.rows : Item → List Row
  | entity e => e.rows
  | item => [⟨item.span.start, item.trivia?⟩]

def Document.rows (d : Document) : List Row := d.items.flatMap Item.rows

/-- The spans follow each other from one place to the other. -/
def Contiguous : Location → List Span → Location → Prop
  | a, [], b => a = b
  | a, span :: spans, b => span.start = a ∧ Contiguous span.stop spans b

theorem Contiguous.append_iff {spans more : List Span} {a c : Location} :
    Contiguous a (spans ++ more) c ↔ ∃ b, Contiguous a spans b ∧ Contiguous b more c := by
  induction spans generalizing a with
  | nil => simp [Contiguous]
  | cons span spans ih => simp [Contiguous, ih, and_assoc]

theorem Contiguous.concat_iff {spans : List Span} {span : Span} {a b : Location} :
    Contiguous a (spans ++ [span]) b ↔ Contiguous a spans span.start ∧ span.stop = b := by
  rw [append_iff]
  constructor
  · rintro ⟨c, hspans, rfl, hstop⟩
    exact ⟨hspans, hstop⟩
  · rintro ⟨hspans, hstop⟩
    exact ⟨span.start, hspans, rfl, hstop⟩

namespace Reader

theorem Returns.indented {α : Type} (span : α → Span) {k : Position → Reader α}
    (h : ∀ start, Returns (fun a ↦ (span a).start = start.location) (k start)) {c d : Cursor}
    {a : α} (hr : (indentation >>= fun _ ↦ position >>= k) c = .ok a d) :
    (span a).start.line = c.position.line := by
  obtain ⟨u, c₁, h₁, hr⟩ := bind_ok hr
  obtain ⟨start, c₂, h₂, hr⟩ := bind_ok hr
  cases h₂
  rw [h _ _ _ _ hr]
  rw [indentation, expectSpace_apply] at h₁
  split at h₁
  · cases h₁
    have hcount := List.count_eq_zero.2 (notMem_takeWhile isHorizontalSpace_newline c.rest)
    change (c.position.after (c.rest.takeWhile isHorizontalSpace)).line = _
    rw [Position.after_line, hcount]
    rfl
  · cases h₁

end Reader

/-- What is said of a row if it stands for the line of that number. -/
structure Row.Fits (r : Row) (number : Nat) (line : List Char) : Prop where
  onLine : r.start.line = number
  verbatim : ∀ text ∈ r.text?, text.toList = line

theorem Row.Fits.of_none {start : Location} {number : Nat} {line : List Char}
    (h : start.line = number) : Fits ⟨start, none⟩ number line :=
  ⟨h, fun _ ht ↦ by cases ht⟩

theorem Row.Fits.of_text {start : Location} {number : Nat} {line : List Char}
    (h : start.line = number) : Fits ⟨start, some (String.ofList line)⟩ number line := by
  refine ⟨h, fun text ht ↦ ?_⟩
  cases ht
  exact String.toList_ofList

theorem Field.start_line {c d : Cursor} {f : Field} (h : reader c = .ok f d) :
    f.span.start.line = c.position.line := by
  refine Reader.Returns.indented Field.span (fun _ ↦ ?_) h
  iterate 7 refine .bind fun _ ↦ ?_
  exact .pure rfl

theorem Derive.start_line {c d : Cursor} {marked : Bool} {clause : Derive}
    (h : reader marked c = .ok clause d) : clause.span.start.line = c.position.line := by
  refine Reader.Returns.indented Derive.span (fun _ ↦ ?_) h
  iterate 4 refine .bind fun _ ↦ ?_
  exact .pure rfl

theorem Primary.start_line {c d : Cursor} {marked : Bool} {clause : Primary}
    (h : reader marked c = .ok clause d) : clause.span.start.line = c.position.line := by
  refine Reader.Returns.indented Primary.span (fun _ ↦ ?_) h
  iterate 4 refine .bind fun _ ↦ ?_
  exact .pure rfl

theorem Foreign.start_line {c d : Cursor} {marked : Bool} {clause : Foreign}
    (h : reader marked c = .ok clause d) : clause.span.start.line = c.position.line := by
  refine Reader.Returns.indented Foreign.span (fun _ ↦ ?_) h
  iterate 6 refine .bind fun _ ↦ ?_
  exact .pure rfl

theorem Unique.start_line {c d : Cursor} {marked : Bool} {clause : Unique}
    (h : reader marked c = .ok clause d) : clause.span.start.line = c.position.line := by
  refine Reader.Returns.indented Unique.span (fun _ ↦ ?_) h
  iterate 4 refine .bind fun _ ↦ ?_
  exact .pure rfl

theorem MemberKind.row_fits {options : Options} {kind : MemberKind} {c d : Cursor} {m : Member}
    (h : kind.reader options c = .ok m d) : m.row.Fits c.position.line (firstLine c.rest) := by
  cases kind with
  | field =>
    obtain ⟨node, c', hr, hm⟩ := bind_ok h
    cases hm
    exact .of_none (Field.start_line hr)
  | derive =>
    obtain ⟨node, c', hr, hm⟩ := bind_ok h
    cases hm
    exact .of_none (Derive.start_line hr)
  | primary =>
    obtain ⟨node, c', hr, hm⟩ := bind_ok h
    cases hm
    exact .of_none (Primary.start_line hr)
  | foreign =>
    obtain ⟨node, c', hr, hm⟩ := bind_ok h
    cases hm
    exact .of_none (Foreign.start_line hr)
  | unique =>
    obtain ⟨node, c', hr, hm⟩ := bind_ok h
    cases hm
    exact .of_none (Unique.start_line hr)
  | blank =>
    obtain ⟨node, c', hr, hm⟩ := bind_ok h
    cases hm
    rw [(BlankLine.eq_of_ok hr).1]
    exact .of_text rfl
  | comment =>
    obtain ⟨node, c', hr, hm⟩ := bind_ok h
    cases hm
    rw [(CommentLine.eq_of_ok hr).1]
    exact .of_text rfl

section

variable {options : Options} {line : List Char} {rest : List (List Char)}

theorem Linewise.nextLine_ofText (h : Linewise (line :: rest)) :
    (Cursor.ofText line).nextLine = ⟨[], Position.start.after line⟩ :=
  h.alone.nextLine_eq (c := .ofText line) (by simp [Cursor.ofText])

theorem Linewise.firstLine_eq (h : Linewise (line :: rest)) : firstLine line = line := by
  have hfirst := h.alone.firstLine_flatten.1
  rwa [List.flatten_cons, List.flatten_nil, List.append_nil] at hfirst

theorem Member.row_fits_alone (h : Linewise (line :: rest)) {m : Member}
    (hm : readAlone (parser options) line = some m) : m.row.Fits 1 line := by
  obtain ⟨t, ht⟩ := tried_of_readAlone hm
  have hp : parser options (.ofText line) = .ok m t := (Choice.tried_some ht).2
  obtain ⟨choice, hc, s, hs, -, hr⟩ := Choice.firstOr_ok hp
  obtain ⟨kind, -, rfl⟩ := List.mem_map.1 hc
  have hfits := MemberKind.row_fits (Parser.ofReader_ok hr)
  rw [hs] at hfits
  change m.row.Fits 1 (firstLine line) at hfits
  rwa [h.firstLine_eq] at hfits

structure Item.IsLine (item : Item) (line : List Char) : Prop where
  rows : item.rows = [⟨item.span.start, item.trivia?⟩]
  span : item.span = wholeSpan line
  verbatim : ∀ text ∈ item.trivia?, text.toList = line

theorem Item.IsLine.mapSpan_rows {item : Item} (h : item.IsLine line) (f : Span → Span) :
    (item.mapSpan f).rows = [⟨(f (wholeSpan line)).start, item.trivia?⟩] := by
  rw [← h.span]
  have hrows := h.rows
  cases item with
  | entity e =>
    have hmembers : e.members = [] := List.map_eq_nil_iff.1 (List.cons_eq_cons.1 hrows).2
    change Entity.rows (e.mapSpan f) = _
    rw [Entity.rows, Entity.mapSpan, hmembers]
    rfl
  | blank l => rfl
  | comment l => rfl

theorem Item.blank_isLine (line : List Char) :
    IsLine (.blank ⟨String.ofList line, wholeSpan line⟩) line := by
  refine ⟨rfl, rfl, fun text ht ↦ ?_⟩
  cases ht
  exact String.toList_ofList

theorem BlankLine.reader_isLine (h : Linewise (line :: rest)) {l : BlankLine}
    (hl : readAlone reader line = some l) : Item.IsLine (.blank l) line := by
  rw [readAlone_ofReader] at hl
  obtain ⟨d, hr⟩ := Reader.ok_of_value? hl
  have heq : l = ⟨String.ofList (firstLine line), wholeSpan line⟩ := by
    rw [(eq_of_ok hr).1, h.nextLine_ofText]
    rfl
  rw [heq, h.firstLine_eq]
  exact Item.blank_isLine line

theorem CommentLine.reader_isLine (h : Linewise (line :: rest)) {l : CommentLine}
    (hl : readAlone reader line = some l) : Item.IsLine (.comment l) line := by
  rw [readAlone_ofReader] at hl
  obtain ⟨d, hr⟩ := Reader.ok_of_value? hl
  have heq : l = ⟨String.ofList (firstLine line), wholeSpan line⟩ := by
    rw [(eq_of_ok hr).1, h.nextLine_ofText]
    rfl
  rw [heq, h.firstLine_eq]
  refine ⟨rfl, rfl, fun text ht ↦ ?_⟩
  cases ht
  exact String.toList_ofList

theorem Entity.extend_rows (e : Entity) (m : Member) (stop : Location) :
    [Item.entity (e.extend m stop)].flatMap Item.rows =
      [Item.entity e].flatMap Item.rows ++ [m.row] := by
  simp [Item.rows, rows, extend]

theorem Entity.head_ok {c d : Cursor} {e : Entity} (h : head c = .ok e d) :
    e.members = [] ∧ e.span.start = c.position.location := by
  obtain ⟨start, c₁, h₁, h₂⟩ := bind_ok h
  obtain ⟨header, c₂, -, h₃⟩ := bind_ok h₂
  cases h₁
  cases h₃
  exact ⟨rfl, rfl⟩

theorem Entity.head_isLine (h : Linewise (line :: rest)) {e : Entity}
    (he : readAlone (parser options) line = some e) : Item.IsLine (.entity e) line := by
  rw [readAlone_eq_head h] at he
  obtain ⟨d, hr⟩ := Reader.ok_of_value? he
  obtain ⟨hmembers, hstart⟩ := head_ok hr
  have hstop := head_stop hr
  have hd : d = (Cursor.ofText line).nextLine := (@head_endsLine .alone).leads _ _ _ hr
  rw [hd, h.nextLine_ofText] at hstop
  have hspan : e.span = wholeSpan line := by
    rw [wholeSpan, Position.spanTo, ← hstop]
    exact congrArg (Span.mk · e.span.stop) hstart
  refine ⟨?_, hspan, fun text ht ↦ by cases ht⟩
  rw [Item.rows, rows, hmembers]
  rfl

/-- The machine adds a member to the open entity or else an item, and either is the line. -/
theorem Stage.step_cases (h : Linewise (line :: rest)) {place : Span → Span} {s s' : Stage}
    (hs : s.step options place line = some s') :
    (∃ (e : Entity) (m : Member), s.opened = some e ∧ m.row.Fits 1 line ∧ s' =
        { s with opened := some (e.extend (m.mapSpan place) (place (wholeSpan line)).stop) }) ∨
      ∃ item : Item, item.IsLine line ∧ s'.items = s.items ++ [item.mapSpan place] := by
  rcases step_inversion hs with ⟨e, m, ho, hr, rfl⟩ | ⟨e, he, rfl⟩ | ⟨-, l, hl, rfl⟩ |
    ⟨-, l, hl, rfl⟩ | ⟨-, -, -, rfl⟩
  · exact .inl ⟨e, m, ho, Member.row_fits_alone h hr, rfl⟩
  · exact .inr ⟨.entity e, Entity.head_isLine h he, rfl⟩
  · exact .inr ⟨.blank l, BlankLine.reader_isLine h hl, push_items s _⟩
  · exact .inr ⟨.comment l, CommentLine.reader_isLine h hl, push_items s _⟩
  · exact .inr ⟨_, Item.blank_isLine line, push_items s _⟩

end

theorem Location.within_line {base l : Location} (h : l.line = 1) :
    (base.within l).line = base.line := by
  rw [within, if_pos (Nat.le_of_eq h)]

namespace Stage

variable {options : Options} {done : List (List Char)} {line : List Char} {rest : List (List Char)}
  {s s' : Stage}

def rows (s : Stage) : List Row := s.items.flatMap Item.rows

theorem rows_of_items {item : Item} (h : s'.items = s.items ++ [item]) :
    s'.rows = s.rows ++ item.rows := by
  rw [rows, rows, h, List.flatMap_append, List.flatMap_singleton]

theorem rows_extend {e : Entity} (ho : s.opened = some e) (m : Member) (stop : Location) :
    rows { s with opened := some (e.extend m stop) } = s.rows ++ [m.row] := by
  have hitems : s.items = s.complete ++ [.entity e] := by
    rw [items, ho]
    rfl
  rw [rows, rows, hitems, items, List.flatMap_append, List.flatMap_append, List.append_assoc]
  exact congrArg _ (Entity.extend_rows e m stop)

theorem inPlace_wholeSpan (p : Position) (line : List Char) :
    inPlace p (wholeSpan line) = ⟨p.location, (p.after line).location⟩ := by
  rw [Position.after_eq_within p]
  exact (Position.spanTo_within p .start _).symm

/-- The stage has the lines that were read, each as one row, and its items lie side by side. -/
structure Covers (s : Stage) (done : List (List Char)) : Prop where
  length : s.rows.length = done.length
  fits : ∀ k (r : Row), s.rows[k]? = some r → ∃ line, done[k]? = some line ∧ r.Fits (k + 1) line
  contiguous : Contiguous ⟨1, 1⟩ (s.items.map Item.span)
    (Position.start.after done.flatten).location

theorem covers_nil : Covers {} [] := ⟨rfl, fun _ _ h ↦ (by cases h), rfl⟩

theorem Covers.concat (hs : s.Covers done) {r : Row} (hrows : s'.rows = s.rows ++ [r])
    (hr : r.Fits (done.length + 1) line)
    (hc : Contiguous ⟨1, 1⟩ (s'.items.map Item.span)
      (Position.start.after (done ++ [line]).flatten).location) : s'.Covers (done ++ [line]) := by
  refine ⟨?_, fun k r' hk ↦ ?_, hc⟩
  · rw [hrows, List.length_append, List.length_append, hs.length]
    rfl
  · rw [hrows] at hk
    rcases Nat.lt_trichotomy k s.rows.length with hlt | rfl | hgt
    · rw [List.getElem?_append_left hlt] at hk
      obtain ⟨l, hl, hfits⟩ := hs.fits k r' hk
      refine ⟨l, ?_, hfits⟩
      rw [List.getElem?_append_left (hs.length ▸ hlt), hl]
    · rw [List.getElem?_concat_length] at hk
      obtain rfl := Option.some.inj hk
      refine ⟨line, ?_, hs.length ▸ hr⟩
      rw [hs.length, List.getElem?_concat_length]
    · rw [List.getElem?_eq_none] at hk
      · cases hk
      · rw [List.length_append, List.length_singleton]
        exact hgt

theorem after_lines_line (h : ∀ line ∈ done, Terminated line) (p : Position) :
    (p.after done.flatten).line = p.line + done.length := by
  rw [Position.after_line]
  congr 1
  induction done with
  | nil => rfl
  | cons line done ih =>
    obtain ⟨body, hbody, hline⟩ := h line List.mem_cons_self
    rw [List.flatten_cons, List.count_append, ih fun l hl ↦ h l (List.mem_cons_of_mem line hl),
      hline, List.count_append, List.count_eq_zero.2 hbody]
    simp
    omega

theorem Covers.step (hs : s.Covers done) (h : Linewise (done ++ line :: rest))
    (hstep : s.step options (inPlace (Position.start.after done.flatten)) line = some s') :
    s'.Covers (done ++ [line]) := by
  let p := Position.start.after done.flatten
  have hp : p.line = done.length + 1 := by
    rw [after_lines_line (h.of_append.2 (by simp))]
    exact Nat.add_comm 1 _
  have hafter : Position.start.after (done ++ [line]).flatten = p.after line := by
    simp [p]
  have hwhole := inPlace_wholeSpan p line
  rcases step_cases h.right_of_append hstep with ⟨e, m, ho, hm, rfl⟩ | ⟨item, hitem, hitems⟩
  · -- the row is a new one, while of the items only the last grows
    have hitems : s.items = s.complete ++ [.entity e] := by rw [items, ho]; rfl
    let m' := m.mapSpan (inPlace p)
    have hm' : m'.row.Fits p.line line := by
      refine ⟨?_, fun text ht ↦ hm.verbatim text ?_⟩
      · change (m.mapSpan (inPlace p)).span.start.line = _
        rw [Member.mapSpan_span]
        exact Location.within_line hm.onLine
      · cases m <;> exact ht
    refine hs.concat (r := m'.row) (rows_extend ho m' _) (hp ▸ hm') ?_
    · have hc := hs.contiguous
      rw [hitems, List.map_append] at hc
      rw [hafter]
      simp only [items, List.map_append]
      refine Contiguous.concat_iff.2 ⟨(Contiguous.concat_iff.1 hc).1, ?_⟩
      exact congrArg Span.stop hwhole
  · have hspan : (item.mapSpan (inPlace p)).span = ⟨p.location, (p.after line).location⟩ := by
      rw [Item.mapSpan_span, hitem.span, hwhole]
    have hrow : (item.mapSpan (inPlace p)).rows = [⟨p.location, item.trivia?⟩] := by
      rw [hitem.mapSpan_rows, hwhole]
    refine hs.concat (r := ⟨p.location, item.trivia?⟩) ?_ ⟨hp, hitem.verbatim⟩ ?_
    · rw [rows_of_items hitems, hrow]
    · rw [hitems, List.map_append, hafter]
      refine Contiguous.concat_iff.2 ⟨?_, ?_⟩
      · rw [hspan]
        exact hs.contiguous
      · rw [hspan]

theorem Covers.run {ls : List (List Char)} (hs : s.Covers done) (h : Linewise (done ++ ls))
    (hrun : run options inPlace (Position.start.after done.flatten) ls s = some s') :
    s'.Covers (done ++ ls) := by
  induction ls generalizing done s with
  | nil =>
    cases hrun
    rwa [List.append_nil]
  | cons line rest ih =>
    obtain ⟨s'', hstep, hrun⟩ := run_cons_eq_some_iff.1 hrun
    have hafter : (Position.start.after done.flatten).after line =
        Position.start.after (done ++ [line]).flatten := by simp
    have hs' := hs.step h hstep
    rw [hafter] at hrun
    rw [List.append_cons] at h ⊢
    exact ih hs' h hrun

end Stage

theorem Position.lt_after (p : Position) {text : List Char} (h : text ≠ []) :
    compare p (p.after text) = .lt := by
  have hpos := List.length_pos_iff.2 h
  change (compare p.line _).then ((compare p.column _).then _) = _
  by_cases hn : '\n' ∈ text
  · have hline : compare p.line (p.after text).line = .lt := by
      rw [after_line, Nat.compare_eq_lt]
      have := List.count_pos_iff.2 hn
      omega
    rw [hline]
    rfl
  · have hline : compare p.line (p.after text).line = .eq := by
      rw [after_line, List.count_eq_zero.2 hn]
      exact Nat.compare_eq_eq.2 rfl
    have hcolumn : compare p.column (p.after text).column = .lt := by
      rw [after_column p hn, Nat.compare_eq_lt]
      omega
    rw [hline, hcolumn]
    rfl

theorem Member.choice_progress {options : Options} {s t : ParserState} {m : Member}
    (h : (choice options).tried s = .ok (some m) t) :
    HasCursor.offset s < HasCursor.offset t ∧
      compare s.cursor.position t.cursor.position = .lt := by
  have hnext := choice_next h
  have hstart := (Choice.tried_some h).1
  cases hls : lines s.cursor.rest with
  | nil =>
    have hrest := lines_flatten s.cursor.rest
    rw [hls] at hrest
    rw [← hrest] at hstart
    cases hstart
  | cons line rest =>
    have hlines := lines_linewise s.cursor.rest
    rw [hls] at hlines
    have hrest : s.cursor.rest = (line :: rest).flatten := by rw [← hls, lines_flatten]
    have ht := hnext.trans (hlines.nextLine_eq hrest)
    have hposition : t.cursor.position = s.cursor.position.after line := by rw [ht]
    rw [hposition]
    refine ⟨?_, Position.lt_after _ hlines.ne_nil⟩
    change s.cursor.position.offset < t.cursor.position.offset
    rw [hposition]
    exact hlines.offset_lt _

/-- No line is lost, doubled or moved. -/
theorem Document.rows_cover_lines {options : Options} {text : String} {d : Document}
    (h : parse options text = .ok d) :
    d.rows.length = (lines text.toList).length ∧
      (∀ k (r : Row), d.rows[k]? = some r → ∃ line, (lines text.toList)[k]? = some line ∧
        r.start.line = k + 1 ∧ ∀ text ∈ r.text?, text.toList = line) ∧
      Contiguous ⟨1, 1⟩ (d.items.map Item.span) (Position.start.after text.toList).location ∧
      d.span = ⟨⟨1, 1⟩, (Position.start.after text.toList).location⟩ ∧
      ∀ (s t : ParserState) (m : Member), (Member.choice options).tried s = .ok (some m) t →
        HasCursor.offset s < HasCursor.offset t ∧
          compare s.cursor.position t.cursor.position = .lt := by
  obtain ⟨s, hrun, rfl⟩ := parse_eq_ok_iff.1 h
  have hcovers := Stage.covers_nil.run (lines_linewise text.toList) hrun
  rw [List.nil_append] at hcovers
  have hcontiguous := hcovers.contiguous
  rw [lines_flatten] at hcontiguous
  refine ⟨hcovers.length, fun k r hk ↦ ?_, hcontiguous, rfl, fun _ _ _ ↦ Member.choice_progress⟩
  obtain ⟨line, hline, hfits⟩ := hcovers.fits k r hk
  exact ⟨line, hline, hfits.onLine, hfits.verbatim⟩

theorem Document.rows_cover_entity :
    ∃ d, parse default "-- a\nA\n  Primary b\n\n" = .ok d ∧
      d.rows = [⟨⟨1, 1⟩, some "-- a\n"⟩, ⟨⟨2, 1⟩, none⟩, ⟨⟨3, 3⟩, none⟩, ⟨⟨4, 1⟩, some "\n"⟩] ∧
      d.rows.length = (lines "-- a\nA\n  Primary b\n\n".toList).length ∧
      Contiguous ⟨1, 1⟩ (d.items.map Item.span) ⟨5, 1⟩ := by
  let e : Entity :=
    { name := ⟨"A", ⟨2, 1⟩, ⟨2, 2⟩⟩
      derivesJson := false
      sqlTableName := none
      members := [.primary ⟨[⟨"b", ⟨3, 11⟩, ⟨3, 12⟩⟩], ⟨3, 3⟩, ⟨3, 12⟩⟩,
        .blank ⟨"\n", ⟨4, 1⟩, ⟨5, 1⟩⟩]
      span := ⟨⟨2, 1⟩, ⟨5, 1⟩⟩ }
  have h : parse default "-- a\nA\n  Primary b\n\n" = .ok
      ⟨[.comment ⟨"-- a\n", ⟨1, 1⟩, ⟨2, 1⟩⟩, .entity e], ⟨⟨1, 1⟩, ⟨5, 1⟩⟩⟩ :=
    parse_eq_ok_iff.2 ⟨⟨[.comment ⟨"-- a\n", ⟨1, 1⟩, ⟨2, 1⟩⟩], some e⟩, by decide +kernel, rfl⟩
  obtain ⟨hlength, -, hcontiguous, -⟩ := rows_cover_lines h
  exact ⟨_, h, rfl, hlength, hcontiguous⟩

end EntityModels
