import EntityModels.Proofs.Reading.Placement

namespace EntityModels

namespace Block

/-- The marker opens a block behind `pre`: in front of it no marker is found, and where it is found
no other is that comes before it in the list. -/
structure Opens (markers : List String) (pre : List Char) (opening : String) (rest : List Char) :
    Prop where
  none_before : ∀ s t, pre = s ++ t → t ≠ [] →
    ∀ m ∈ markers, ¬m.toList <+: t ++ (opening.toList ++ rest)
  earliest : ∃ before after, markers = before ++ opening :: after ∧
    ∀ m ∈ before, ¬m.toList <+: opening.toList ++ rest

theorem isPrefixOf?_eq_none_iff {s text : List Char} : s.isPrefixOf? text = none ↔ ¬s <+: text := by
  rw [Option.eq_none_iff_forall_ne_some]
  constructor
  · rintro h ⟨rest, hr⟩
    exact h rest (isPrefixOf?_eq_some_iff.2 hr.symm)
  · intro h rest hr
    exact h ⟨rest, (isPrefixOf?_eq_some_iff.1 hr).symm⟩

theorem opened_eq_some_iff {markers : List String} {c d : Cursor} :
    opened markers c = some d ↔ ∃ opening rest, c.rest = opening.toList ++ rest ∧
      (∃ before after, markers = before ++ opening :: after ∧
        ∀ m ∈ before, ¬m.toList <+: opening.toList ++ rest) ∧
          d = c.past opening.toList rest := by
  rw [opened, List.findSome?_eq_some_iff]
  constructor
  · rintro ⟨before, opening, after, hm, hd, hb⟩
    obtain ⟨rest, hr, rfl⟩ := Option.map_eq_some_iff.1 hd
    have hrest := isPrefixOf?_eq_some_iff.1 hr
    refine ⟨opening, rest, hrest, ⟨before, after, hm, fun m hmem ↦ ?_⟩, rfl⟩
    rw [← hrest]
    exact isPrefixOf?_eq_none_iff.1 (Option.map_eq_none_iff.1 (hb m hmem))
  · rintro ⟨opening, rest, hrest, ⟨before, after, hm, hb⟩, rfl⟩
    refine ⟨before, opening, after, hm, ?_, fun m hmem ↦ ?_⟩
    · rw [isPrefixOf?_eq_some_iff.2 hrest]
      rfl
    · rw [Option.map_eq_none_iff, isPrefixOf?_eq_none_iff, hrest]
      exact hb m hmem

theorem opened_eq_none_iff {markers : List String} {c : Cursor} :
    opened markers c = none ↔ ∀ m ∈ markers, ¬m.toList <+: c.rest := by
  simp only [opened, List.findSome?_eq_none_iff, Option.map_eq_none_iff, isPrefixOf?_eq_none_iff]

theorem afterOpening_eq_ok_iff {markers : List String} {text : List Char} {p : Position}
    {c : Cursor} : afterOpening markers text p = .ok c ↔
      ∃ pre opening rest, text = pre ++ (opening.toList ++ rest) ∧ Opens markers pre opening rest ∧
        c = ⟨rest, p.after (pre ++ opening.toList)⟩ := by
  have hhere {text : List Char} {p : Position} {d : Cursor}
      (h : opened markers ⟨text, p⟩ = some d) :
      ∃ pre opening rest, text = pre ++ (opening.toList ++ rest) ∧ Opens markers pre opening rest ∧
        d = ⟨rest, p.after (pre ++ opening.toList)⟩ := by
    obtain ⟨opening, rest, hrest, hearliest, rfl⟩ := opened_eq_some_iff.1 h
    refine ⟨[], opening, rest, hrest, ⟨fun s t hpre hne ↦ ?_, hearliest⟩, rfl⟩
    exact absurd (List.append_eq_nil_iff.1 hpre.symm).2 hne
  constructor
  · intro h
    induction text generalizing p with
    | nil =>
      rw [afterOpening] at h
      split at h
      · next inside hi =>
        cases h
        exact hhere hi
      · cases h
    | cons x text ih =>
      rw [afterOpening] at h
      split at h
      · next inside hi =>
        cases h
        exact hhere hi
      · next hnone =>
        obtain ⟨pre, opening, rest, rfl, hopens, rfl⟩ := ih h
        refine ⟨x :: pre, opening, rest, rfl, ⟨fun s t hpre hne m hm ↦ ?_, hopens.earliest⟩, rfl⟩
        cases s with
        | nil =>
          obtain rfl : x :: pre = t := hpre
          exact opened_eq_none_iff.1 hnone m hm
        | cons y s =>
          obtain ⟨-, hpre'⟩ := List.cons_eq_cons.1 hpre
          exact hopens.none_before s t hpre' hne m hm
  · rintro ⟨pre, opening, rest, rfl, hopens, rfl⟩
    induction pre generalizing p with
    | nil =>
      have hopened : opened markers ⟨opening.toList ++ rest, p⟩ =
          some ⟨rest, p.after opening.toList⟩ :=
        opened_eq_some_iff.2 ⟨opening, rest, rfl, hopens.earliest, rfl⟩
      rw [List.nil_append, List.nil_append]
      -- the function looks at the text, which is empty if the marker is and nothing follows it
      generalize opening.toList ++ rest = text at hopened
      cases text with
      | nil => rw [afterOpening, hopened]
      | cons x text => rw [afterOpening, hopened]
    | cons x pre ih =>
      have hnone : opened markers ⟨x :: (pre ++ (opening.toList ++ rest)), p⟩ = none :=
        opened_eq_none_iff.2 (hopens.none_before [] (x :: pre) rfl (by simp))
      rw [List.cons_append, afterOpening, hnone]
      refine ih ⟨fun s t hpre hne ↦ ?_, hopens.earliest⟩
      exact hopens.none_before (x :: s) t (by rw [hpre]; rfl) hne

theorem leadsTo_of_afterOpening {markers : List String} {text : List Char} {p : Position}
    {c : Cursor} (h : afterOpening markers text p = .ok c) : Cursor.LeadsTo ⟨text, p⟩ c := by
  obtain ⟨pre, opening, rest, rfl, -, rfl⟩ := afterOpening_eq_ok_iff.1 h
  exact ⟨pre ++ opening.toList, by rw [List.append_assoc], rfl⟩

end Block

namespace Stage

variable {options : Options} {line : List Char} {rest : List (List Char)} {σ : ParserState}
  {s : Stage}

theorem gate_block_of_closing (hclose : options.markers.closing.toList <+: σ.cursor.rest) :
    (Block.boundary options).gate σ = .ok (some none) σ := by
  change Block.gate options σ = _
  rw [Block.gate_apply, if_pos (List.isPrefixOf_iff_prefix.2 hclose)]

theorem gate_block_of_open (hopen : ¬options.markers.closing.toList <+: σ.cursor.rest)
    (hne : σ.cursor.rest ≠ []) : (Block.boundary options).gate σ = .ok none σ := by
  change Block.gate options σ = _
  rw [Block.gate_apply, if_neg (mt List.isPrefixOf_iff_prefix.1 hopen), if_neg hne]

theorem rest_ne_nil (h : Linewise (line :: rest)) (hσ : σ.cursor.rest = (line :: rest).flatten) :
    σ.cursor.rest ≠ [] := by
  rw [hσ, List.flatten_cons]
  exact fun he ↦ h.ne_nil (List.append_eq_nil_iff.1 he).1

theorem readItem_block_ok (h : Linewise (line :: rest))
    (hσ : σ.cursor.rest = (line :: rest).flatten) {r : Option Stage} {t : ParserState}
    (hr : s.readItem (Block.boundary options) σ = .ok r t) :
    (∃ item, Item.alone line = some item ∧ r = some (s.add (item.mapSpan σ.move)) ∧
      t.cursor = ⟨rest.flatten, σ.cursor.position.after line⟩ ∧
        ¬options.markers.closing.toList <+: σ.cursor.rest) ∨
      (r = none ∧ t.cursor = σ.cursor ∧ options.markers.closing.toList <+: σ.cursor.rest) := by
  by_cases hclose : options.markers.closing.toList <+: σ.cursor.rest
  · rw [readItem, bind_apply, gate_block_of_closing hclose] at hr
    cases hr
    exact .inr ⟨rfl, rfl, hclose⟩
  · cases hg : (Block.boundary options).gate σ with
    | error e u =>
      rw [readItem, bind_apply, hg] at hr
      cases hr
    | ok found u =>
      obtain ⟨rfl, ⟨-, hprefix⟩ | ⟨rfl, -⟩⟩ := Block.gate_ok hg
      · exact absurd (List.isPrefixOf_iff_prefix.1 hprefix) hclose
      · have hitem := readItem_of_open (s := s) h hσ hg
        cases ha : Item.alone line with
        | none =>
          rw [ha] at hitem
          obtain ⟨e, w, hw⟩ := hitem
          rw [hw] at hr
          cases hr
        | some item =>
          rw [ha] at hitem
          obtain ⟨w, hw, hnext⟩ := hitem
          rw [hw] at hr
          cases hr
          exact .inl ⟨item, rfl, rfl, hnext, hclose⟩

/-- With every line that a block takes it takes the step of the machine; else it ends here. -/
theorem readLine_block_ok (h : Linewise (line :: rest))
    (hσ : σ.cursor.rest = (line :: rest).flatten) {r : Option Stage} {t : ParserState}
    (hr : s.readLine options (Block.boundary options) σ = .ok r t) :
    (∃ s', r = some s' ∧ s.step options σ.move line = some s' ∧
      t.cursor = ⟨rest.flatten, σ.cursor.position.after line⟩ ∧
        (s.opened.isSome ∨ ¬options.markers.closing.toList <+: σ.cursor.rest)) ∨
      (r = none ∧ t.cursor = σ.cursor ∧ options.markers.closing.toList <+: σ.cursor.rest) := by
  cases hm : s.member? options σ.move line with
  | some s' =>
    obtain ⟨u, hu, hnext⟩ := readLine_of_member (Block.boundary options) h hσ hm
    rw [hu] at hr
    cases hr
    obtain ⟨e, m, ho, -⟩ := member?_eq_some hm
    exact .inl ⟨s', rfl, step_of_member hm, hnext, .inl (by rw [ho]; rfl)⟩
  | none =>
    rcases readLine_of_item (Block.boundary options) h hσ hm with ⟨e, u, hu, -⟩ | ⟨u, hu, hc, hstep⟩
    · rw [hu] at hr
      cases hr
    · have hmove : u.move = σ.move := ParserState.move_eq hc
      rw [hu] at hr
      rcases readItem_block_ok h (hc ▸ hσ) hr with ⟨item, ha, rfl, hnext, hopen⟩ |
        ⟨rfl, ht, hclose⟩
      · rw [hc] at hnext hopen
        refine .inl ⟨_, rfl, ?_, hnext, .inr hopen⟩
        rw [hstep, ha, hmove]
        rfl
      · rw [hc] at ht hclose
        exact .inr ⟨rfl, ht, hclose⟩

theorem readLine_block_of_item (h : Linewise (line :: rest))
    (hσ : σ.cursor.rest = (line :: rest).flatten) (hm : s.member? options σ.move line = none)
    (hs : s.step options σ.move line ≠ none) {item : Item} (ha : Item.alone line = some item)
    (hopen : ¬options.markers.closing.toList <+: σ.cursor.rest) :
    ∃ t, s.readLine options (Block.boundary options) σ =
        .ok (some (s.add (item.mapSpan σ.move))) t ∧
      t.cursor = ⟨rest.flatten, σ.cursor.position.after line⟩ := by
  rcases readLine_of_item (Block.boundary options) h hσ hm with ⟨e, u, -, hnone⟩ | ⟨u, hu, hc, -⟩
  · exact absurd hnone hs
  · have hgate : (Block.boundary options).gate u = .ok none u :=
      gate_block_of_open (hc ▸ hopen) (hc ▸ rest_ne_nil h hσ)
    have hitem := readItem_of_open (s := s) h (hc ▸ hσ) hgate
    rw [ha, ParserState.move_eq hc, hc] at hitem
    rw [hu]
    exact hitem

theorem readLine_block_of_step (h : Linewise (line :: rest))
    (hσ : σ.cursor.rest = (line :: rest).flatten) (hn : '\n' ∈ line) {s' : Stage}
    (hs : s.step options σ.move line = some s')
    (hopen : Item.alone line ≠ none → ¬options.markers.closing.toList <+: σ.cursor.rest) :
    ∃ t, s.readLine options (Block.boundary options) σ = .ok (some s') t ∧
      t.cursor = ⟨rest.flatten, σ.cursor.position.after line⟩ := by
  cases hm : s.member? options σ.move line with
  | some s'' =>
    rw [step_of_member hm] at hs
    cases hs
    exact readLine_of_member (Block.boundary options) h hσ hm
  | none =>
    rcases readLine_of_item (Block.boundary options) h hσ hm with ⟨e, u, -, hnone⟩ |
      ⟨-, -, -, hstep⟩
    · rw [hnone] at hs
      cases hs
    · have htrailing : s.trailing? options σ.move line = none := by
        rw [trailing?, if_neg]
        rintro ⟨-, -, hall⟩
        exact newline_of_blank hall hn
      have hsome : s.step options σ.move line ≠ none := by simp [hs]
      rw [hstep, htrailing] at hs
      cases ha : Item.alone line with
      | none =>
        rw [ha] at hs
        cases hs
      | some item =>
        rw [ha] at hs
        cases hs
        exact readLine_block_of_item h hσ hm hsome ha (hopen (by simp [ha]))

/-- A block ends somewhere in front of a closing marker, and up to there the machine runs. -/
theorem readLines_block_ok {ls : List (List Char)} (h : Linewise ls) {σ t : ParserState}
    {s s' : Stage} (hσ : σ.cursor.rest = ls.flatten)
    (hr : s.readLines options (Block.boundary options) ls σ = .ok s' t) :
    ∃ ls₁ ls₂, ls = ls₁ ++ ls₂ ∧ run options inPlace σ.cursor.position ls₁ s = some s' ∧
      t.cursor = ⟨ls₂.flatten, σ.cursor.position.after ls₁.flatten⟩ ∧
        options.markers.closing.toList <+: ls₂.flatten ∧
          (options.markers.closing.toList = [] → s.opened = none → ls₁ = []) := by
  have hself {σ : ParserState} {text : List Char} (hσ : σ.cursor.rest = text) :
      σ.cursor = ⟨text, σ.cursor.position.after []⟩ := by
    subst hσ
    rfl
  induction ls generalizing s σ with
  | nil =>
    rw [readLines, bind_apply] at hr
    cases hg : (Block.boundary options).gate σ with
    | error e u =>
      rw [hg] at hr
      cases hr
    | ok found u =>
      rw [hg] at hr
      cases hr
      obtain ⟨rfl, ⟨-, hclose⟩ | ⟨-, hne⟩⟩ := Block.gate_ok hg
      · rw [hσ, List.isPrefixOf_iff_prefix] at hclose
        exact ⟨[], [], rfl, rfl, hself hσ, hclose, fun _ _ ↦ rfl⟩
      · exact absurd hσ hne
  | cons line rest ih =>
    rw [readLines, bind_apply] at hr
    cases hl : s.readLine options (Block.boundary options) σ with
    | error e u =>
      rw [hl] at hr
      cases hr
    | ok r u =>
      rw [hl] at hr
      rcases readLine_block_ok h hσ hl with ⟨s'', rfl, hstep, hc, hopen⟩ | ⟨rfl, hc, hclose⟩
      · obtain ⟨ls₁, ls₂, rfl, hrun, ht, hclose, -⟩ := ih h.2 (by rw [hc]) hr
        refine ⟨line :: ls₁, ls₂, rfl, ?_, ?_, hclose, fun hnil ho ↦ ?_⟩
        · have hmove : inPlace σ.cursor.position = σ.move := rfl
          rw [run_cons, hmove, hstep, ← hrun, hc]
          rfl
        · rw [ht, hc, List.flatten_cons, Position.after_append]
        · rw [hnil, ho] at hopen
          rcases hopen with hopen | hopen
          · cases hopen
          · exact absurd List.nil_prefix hopen
      · cases hr
        rw [hσ] at hclose
        exact ⟨[], line :: rest, rfl, rfl, hc.trans (hself hσ), hclose, fun _ _ ↦ rfl⟩

end Stage

namespace Block

theorem head?_of_marker {marker line tail : List Char} (h : marker <+: line ++ tail)
    (hmarker : marker ≠ []) (hline : line ≠ []) : line.head? = marker.head? := by
  obtain ⟨post, hpost⟩ := h
  rw [← List.head?_append_of_ne_nil line hline, ← hpost,
    List.head?_append_of_ne_nil marker hmarker]

/-- A marker that begins as no line of a document can. -/
def Distinct (closing : String) : Prop :=
  ∃ x text, closing.toList = x :: text ∧ Unicode.isWhiteSpace x = false ∧ x ≠ '-' ∧
    isTypeStart x = false

theorem Distinct.mayStart_eq_false {closing : String} (h : Distinct closing) {text : List Char}
    (ht : closing.toList <+: text) (options : Options) :
    (Member.choice options).mayStart text = false := by
  obtain ⟨x, more, hx, hspace, hdash, -⟩ := h
  obtain ⟨rest, rfl⟩ := ht
  rw [hx]
  exact Member.mayStart_eq_false hspace hdash (more ++ rest)

theorem Distinct.alone_eq_none {closing : String} (h : Distinct closing) {line tail : List Char}
    (hne : line ≠ []) (ht : closing.toList <+: line ++ tail) : Item.alone line = none := by
  obtain ⟨x, more, hx, hspace, hdash, hupper⟩ := h
  rw [hx] at ht
  obtain ⟨line', rfl⟩ := List.head?_eq_some_iff.1 (head?_of_marker ht (List.cons_ne_nil x more) hne)
  have hh : isHorizontalSpace x = false := by rw [isHorizontalSpace, hspace]; rfl
  have hskip := Cursor.next?_skip (c := .ofText (x :: line')) hh
  refine List.findSome?_eq_none_iff.2 fun kind _ ↦ ?_
  rw [Option.eq_none_iff_forall_ne_some]
  intro item hv
  obtain ⟨d, hr⟩ := Reader.ok_of_value? hv
  rcases (ItemKind.start_of_ok hr).2 with hs | hs | hs
  · have hs' : isTypeStart x = true := hs
    rw [hupper] at hs'
    cases hs'
  · rw [hskip] at hs
    obtain rfl : x = '\n' := Option.some.inj hs
    exact absurd hspace (by decide)
  · rw [hskip] at hs
    exact hdash (Option.some.inj hs)

end Block

theorem Stage.readLine_block_of_closing {options : Options}
    (hclosing : Block.Distinct options.markers.closing) {σ : ParserState}
    (hclose : options.markers.closing.toList <+: σ.cursor.rest) (s : Stage) :
    s.readLine options (Block.boundary options) σ = .ok none σ := by
  have hmember : s.readMember options σ = .ok none σ := by
    cases ho : s.opened with
    | none => exact readMember_of_closed ho σ
    | some e =>
      rw [readMember_of_opened ho, Choice.tried_eq_none (hclosing.mayStart_eq_false hclose options)]
  rw [readLine, bind_apply, hmember]
  simp only [readItem, bind_apply, gate_block_of_closing hclose]
  rfl

/-- With what the machine has in front of such a marker, the loop of lines ends there. -/
theorem Stage.readLines_block_of_run {options : Options}
    (hclosing : Block.Distinct options.markers.closing) {ls₁ ls₂ : List (List Char)}
    (h : Linewise (ls₁ ++ ls₂)) (hclose : options.markers.closing.toList <+: ls₂.flatten)
    {σ : ParserState} (hσ : σ.cursor.rest = (ls₁ ++ ls₂).flatten) {s s' : Stage}
    (hrun : run options inPlace σ.cursor.position ls₁ s = some s') :
    ∃ t, s.readLines options (Block.boundary options) (ls₁ ++ ls₂) σ = .ok s' t ∧
      t.cursor.position = σ.cursor.position.after ls₁.flatten := by
  have hnonempty : ls₂.flatten ≠ [] := by
    obtain ⟨x, more, hx, -⟩ := hclosing
    obtain ⟨post, hpost⟩ := hclose
    rw [← hpost, hx]
    simp
  induction ls₁ generalizing s σ with
  | nil =>
    obtain rfl : s = s' := Option.some.inj hrun
    obtain ⟨line, rest, rfl⟩ := List.exists_cons_of_ne_nil (l := ls₂) (by
      rintro rfl
      exact hnonempty rfl)
    rw [List.nil_append] at hσ
    refine ⟨σ, ?_, rfl⟩
    rw [List.nil_append, readLines, bind_apply, readLine_block_of_closing hclosing (hσ ▸ hclose)]
    rfl
  | cons line rest ih =>
    rw [List.cons_append] at h hσ
    obtain ⟨s'', hstep, hrun⟩ := run_cons_eq_some_iff.1 hrun
    have hn : '\n' ∈ line := by
      refine h.newline_mem.resolve_right fun hnil ↦ ?_
      rw [List.flatten_append, List.append_eq_nil_iff] at hnil
      exact hnonempty hnil.2
    obtain ⟨t, ht, hc⟩ := readLine_block_of_step h hσ hn hstep fun hne hprefix ↦ by
      rw [hσ, List.flatten_cons] at hprefix
      exact hne (hclosing.alone_eq_none h.ne_nil hprefix)
    have hrun' : run options inPlace t.cursor.position rest s'' = some s' := by rw [hc, hrun]
    obtain ⟨u, hu, hposition⟩ := ih h.2 (by rw [hc]) hrun'
    refine ⟨u, ?_, ?_⟩
    · rw [List.cons_append, readLines, bind_apply, ht]
      exact hu
    · rw [hposition, hc, List.flatten_cons, Position.after_append]

namespace Block

theorem parser_apply (options : Options) (inside : Cursor) :
    parser options { cursor := inside } =
      match Stage.readLines options (boundary options) (lines inside.rest) {}
          { cursor := inside } with
      | .ok s t => .ok ⟨s.items, inside.position.spanTo t.cursor.position⟩ t
      | .error e t => .error e t := by
  have hσ : (ParserState.mk inside none).cursor.rest = (lines inside.rest).flatten :=
    (lines_flatten inside.rest).symm
  have hitems := (boundary options).items_eq_readLines options (lines_linewise inside.rest) hσ
  rw [map_apply] at hitems
  rw [parser_eq, bind_apply, position_apply]
  simp only [bind_apply, hitems]
  cases Stage.readLines options (boundary options) (lines inside.rest) {} { cursor := inside } with
  | error e t => rfl
  | ok s t => rfl

theorem parse_apply (options : Options) {text : List Char} {inside : Cursor}
    (h : afterOpening options.markers.opening text .start = .ok inside) :
    parse options (String.ofList text) =
      match Stage.readLines options (boundary options) (lines inside.rest) {}
          { cursor := inside } with
      | .ok s t => .ok ⟨s.items, inside.position.spanTo t.cursor.position⟩
      | .error e _ => .error e := by
  have hinside (f : Cursor → Except Failure Document) : (.ok inside >>= f) = f inside := rfl
  rw [parse, String.toList_ofList, h, hinside, parser_apply]
  cases Stage.readLines options (boundary options) (lines inside.rest) {} { cursor := inside } with
  | error e t => rfl
  | ok s t => rfl

theorem parse_ok {options : Options} {text : List Char} {d : Document}
    (h : parse options (String.ofList text) = .ok d) : ∃ inside s t,
      afterOpening options.markers.opening text .start = .ok inside ∧
        Stage.readLines options (boundary options) (lines inside.rest) {} { cursor := inside } =
          .ok s t ∧
            d = ⟨s.items, inside.position.spanTo t.cursor.position⟩ := by
  cases hafter : afterOpening options.markers.opening text .start with
  | error e =>
    rw [parse, String.toList_ofList, hafter] at h
    cases h
  | ok inside =>
    rw [parse_apply options hafter] at h
    cases hread : Stage.readLines options (boundary options) (lines inside.rest) {}
        { cursor := inside } with
    | error e t =>
      rw [hread] at h
      cases h
    | ok s t =>
      rw [hread] at h
      cases h
      exact ⟨inside, s, t, rfl, hread, rfl⟩

/-- Of every block that is read the part up to the closing marker is a document. -/
theorem document_of_parse {options : Options} {text : List Char} {d : Document}
    (h : parse options (String.ofList text) = .ok d) : ∃ pre opening body post,
      text = pre ++ (opening.toList ++ (body ++ (options.markers.closing.toList ++ post))) ∧
      Opens options.markers.opening pre opening
        (body ++ (options.markers.closing.toList ++ post)) ∧
      Ended body ∧
      ∃ g, Document.parse options (String.ofList body) = .ok g ∧
        d = g.mapSpan (Span.within (Position.start.after (pre ++ opening.toList)).location) := by
  obtain ⟨inside, s, t, hafter, hread, rfl⟩ := parse_ok h
  have hσ : (ParserState.mk inside none).cursor.rest = (lines inside.rest).flatten :=
    (lines_flatten inside.rest).symm
  obtain ⟨ls₁, ls₂, hls, hrun, ht, ⟨post, hpost⟩, hempty⟩ :=
    Stage.readLines_block_ok (lines_linewise inside.rest) hσ hread
  have hlines : Linewise (ls₁ ++ ls₂) := hls ▸ lines_linewise inside.rest
  obtain ⟨pre, opening, rest, htext, hopens, rfl⟩ := afterOpening_eq_ok_iff.1 hafter
  have hrest : rest = ls₁.flatten ++ (options.markers.closing.toList ++ post) := by
    rw [hpost, ← List.flatten_append, ← hls]
    exact (lines_flatten rest).symm
  have hended : Ended ls₁.flatten := by
    by_cases hnil : ls₂ = []
    · subst hnil
      have hclosing := (List.append_eq_nil_iff.1 hpost).1
      rw [hempty hclosing rfl]
      exact .inl rfl
    · exact .of_terminated (hlines.of_append.2 hnil)
  refine ⟨pre, opening, ls₁.flatten, post, hrest ▸ htext, hrest ▸ hopens, hended, ?_⟩
  refine (Document.parse_ofList_iff options hlines.of_append.1 _ _).2 ⟨s, hrun, ?_⟩
  rw [ht]

theorem parse_of_document {options : Options} {pre body post : List Char} {opening : String}
    {g : Document} (hclosing : Distinct options.markers.closing)
    (hopens : Opens options.markers.opening pre opening
      (body ++ (options.markers.closing.toList ++ post)))
    (hended : Ended body) (hg : Document.parse options (String.ofList body) = .ok g) :
    parse options (String.ofList (pre ++ (opening.toList ++
      (body ++ (options.markers.closing.toList ++ post))))) =
        .ok (g.mapSpan (Span.within (Position.start.after (pre ++ opening.toList)).location)) := by
  have hbody : (lines body).flatten = body := lines_flatten body
  have hlines : Linewise (lines body ++ lines (options.markers.closing.toList ++ post)) :=
    .append ((lines_linewise body).terminated (hbody.symm ▸ hended)) (lines_linewise _)
  have hclose : options.markers.closing.toList <+:
      (lines (options.markers.closing.toList ++ post)).flatten := by
    rw [lines_flatten]
    exact List.prefix_append _ post
  obtain ⟨s, hrun, hs⟩ := (Document.parse_ofList_iff options (lines_linewise body)
    (Position.start.after (pre ++ opening.toList)) _).1 ⟨g, hbody.symm ▸ hg, rfl⟩
  let inside : Cursor := ⟨body ++ (options.markers.closing.toList ++ post),
    Position.start.after (pre ++ opening.toList)⟩
  have hσ : (ParserState.mk inside none).cursor.rest =
      (lines body ++ lines (options.markers.closing.toList ++ post)).flatten := by
    rw [List.flatten_append, lines_flatten, lines_flatten]
  have hafter : afterOpening options.markers.opening (pre ++ (opening.toList ++
      (body ++ (options.markers.closing.toList ++ post)))) .start = .ok inside :=
    afterOpening_eq_ok_iff.2 ⟨pre, opening, _, rfl, hopens, rfl⟩
  obtain ⟨t, ht, hposition⟩ := Stage.readLines_block_of_run hclosing hlines hclose hσ hrun
  have hinside : lines inside.rest =
      lines body ++ lines (options.markers.closing.toList ++ post) := by
    have hflat := hlines.lines_flatten
    rw [← hσ] at hflat
    exact hflat
  rw [parse_apply options hafter, hinside, ht, hs]
  simp only [hposition]
  rfl

/-- A block and the document between its markers. The block is that document, moved to the place
behind the opening marker, and the other way round the closing marker may follow every document if
it begins as no line of a document can. -/
theorem parse_agrees (options : Options) :
    (∀ text d, parse options text = .ok d → ∃ pre opening body post,
      text.toList = pre ++ (opening.toList ++
        (body ++ (options.markers.closing.toList ++ post))) ∧
      Opens options.markers.opening pre opening
        (body ++ (options.markers.closing.toList ++ post)) ∧
      Ended body ∧
      ∃ g, Document.parse options (String.ofList body) = .ok g ∧
        d = g.mapSpan (Span.within (Position.start.after (pre ++ opening.toList)).location)) ∧
    ∀ pre opening body post g, Distinct options.markers.closing →
      Opens options.markers.opening pre opening
        (body ++ (options.markers.closing.toList ++ post)) →
      Ended body → Document.parse options (String.ofList body) = .ok g →
      parse options (String.ofList (pre ++ (opening.toList ++
        (body ++ (options.markers.closing.toList ++ post))))) =
        .ok (g.mapSpan (Span.within (Position.start.after (pre ++ opening.toList)).location)) := by
  constructor
  · intro text d h
    apply document_of_parse
    rw [String.ofList_toList]
    exact h
  · intro pre opening body post g hclosing hopens hended hg
    exact parse_of_document hclosing hopens hended hg

theorem blank_block_agrees :
    parse default "a[persistLowerCase|\n|]b" =
        .ok ⟨[.blank ⟨"\n", ⟨⟨1, 20⟩, ⟨2, 1⟩⟩⟩], ⟨⟨1, 20⟩, ⟨2, 1⟩⟩⟩ ∧
      ∃ (pre : List Char) (opening : String) (body post : List Char),
        "a[persistLowerCase|\n|]b".toList =
          pre ++ (opening.toList ++ (body ++ (Markers.blockClose.toList ++ post))) ∧
        Ended body := by
  have hopens : Opens (default : Markers).opening ['a'] Markers.persistLowerCase
      (['\n'] ++ (Markers.blockClose.toList ++ ['b'])) := by
    refine ⟨fun s t hpre hne m hm ↦ ?_, [], [Markers.persistUpperCase], rfl, by simp⟩
    cases s with
    | nil =>
      obtain rfl : ['a'] = t := hpre
      have hm' : m = Markers.persistLowerCase ∨ m = Markers.persistUpperCase := by
        simpa [default] using hm
      rcases hm' with rfl | rfl <;> decide
    | cons x s =>
      obtain ⟨-, hst⟩ := List.cons_eq_cons.1 hpre
      exact absurd (List.append_eq_nil_iff.1 hst.symm).2 hne
  have hbody : Document.parse default (String.ofList ['\n']) =
      .ok ⟨[.blank ⟨"\n", ⟨⟨1, 1⟩, ⟨2, 1⟩⟩⟩], ⟨⟨1, 1⟩, ⟨2, 1⟩⟩⟩ :=
    Document.parse_eq_ok_iff.2 ⟨⟨[.blank ⟨"\n", ⟨⟨1, 1⟩, ⟨2, 1⟩⟩⟩], none⟩, by decide, rfl⟩
  have hdistinct : Distinct Markers.blockClose :=
    ⟨'|', [']'], rfl, by decide, by decide, by decide⟩
  have hblock := (parse_agrees default).2 ['a'] Markers.persistLowerCase ['\n'] ['b'] _ hdistinct
    hopens (.inr rfl) hbody
  obtain ⟨pre, opening, body, post, htext, -, hended, -⟩ := (parse_agrees default).1 _ _ hblock
  exact ⟨hblock, pre, opening, body, post, htext, hended⟩

end Block

end EntityModels
