import EntityModels.Proofs.Reading.MarkedNames

/-!
Blocks with markers in front of names. A block ends in front of its closing marker unless an entity
is open that can still take the line. So the option can only keep a block open that would end: that
happens if the closing marker begins a line that is a member with markers and none without them.
-/

namespace EntityModels

theorem Member.tried_error {options : Options} {s t : ParserState} {e : Failure}
    (h : (choice options).tried s = .error e t) (other : Options) {s' : ParserState}
    (hs : s'.cursor = s.cursor) : ∃ u, (choice other).tried s' = .error e u := by
  obtain ⟨hparser, he⟩ := Choice.tried_error h
  obtain ⟨d, hfield⟩ := (fatal_iff he).1 ⟨t, hparser⟩
  rw [← hs] at hfield
  obtain ⟨u, hu⟩ : ∃ u, parser other s' = .error e u := (fatal_iff he).2 ⟨d, hfield⟩
  have hstart : (choice other).mayStart s'.cursor.rest :=
    List.any_eq_true.2 ⟨.field, List.mem_cons_self, (Field.named_of_fatal hfield he).mayStart⟩
  have hother : (choice other).parser s' = .error e u := hu
  refine ⟨u, ?_⟩
  rw [Choice.tried_eq_attempt hstart, Parser.attempt, hother]
  exact if_pos he

namespace Stage

variable {options : Options} {line : List Char} {rest : List (List Char)} {s s' t t' : Stage}
  {σ τ u : ParserState}

theorem readLine_marked (h : Linewise (line :: rest)) (hσ : σ.cursor.rest = (line :: rest).flatten)
    (hτ : τ.cursor = σ.cursor) (hgrows : s.GrowsTo t) {r : Option Stage}
    (hr : s.readLine options.unmarked (Block.boundary options) σ = .ok r u) :
    (∃ s₁ t₁ v, r = some s₁ ∧
      t.readLine options.marked (Block.boundary options) τ = .ok (some t₁) v ∧ s₁.GrowsTo t₁ ∧
        u.cursor = ⟨rest.flatten, σ.cursor.position.after line⟩ ∧ v.cursor = u.cursor) ∨
      (r = none ∧ u.cursor = σ.cursor ∧ options.markers.closing.toList <+: σ.cursor.rest) := by
  have hτ' : τ.cursor.rest = (line :: rest).flatten := hτ ▸ hσ
  have hmove : τ.move = σ.move := ParserState.move_eq hτ
  cases hm : s.member? options.unmarked σ.move line with
  | some s₁ =>
    obtain ⟨w, hw, hnext⟩ := readLine_of_member (Block.boundary options) h hσ hm
    rw [hw] at hr
    cases hr
    obtain ⟨t₁, ht, h₁⟩ := member?_marked hgrows hm
    have ht' : t.member? options.marked τ.move line = some t₁ := by
      rw [hmove]
      exact ht
    obtain ⟨v, hv, hnext'⟩ := readLine_of_member (Block.boundary options) h hτ' ht'
    exact .inl ⟨s₁, t₁, v, rfl, hv, h₁, hnext, by rw [hnext', hnext, hτ]⟩
  | none =>
    rcases readLine_of_item (Block.boundary options) h hσ hm with ⟨e, w, hw, -⟩ | ⟨w, hw, hc, hstep⟩
    · rw [hw] at hr
      cases hr
    · rw [hw] at hr
      rcases readItem_block_ok h (hc ▸ hσ) hr with ⟨item, ha, rfl, hnext, hopen⟩ |
        ⟨rfl, hu, hclose⟩
      · rw [hc] at hnext hopen
        rw [ha] at hstep
        have hnone := member?_marked_none h hgrows hm hstep
        obtain ⟨t₁, ht₁, -⟩ := step_marked h hgrows hstep
        have hsome : t.step options.marked τ.move line ≠ none := by
          rw [hmove]
          exact ht₁ ▸ Option.some_ne_none t₁
        obtain ⟨v, hv, hnext'⟩ :=
          readLine_block_of_item h hτ' (hmove ▸ hnone) hsome ha (hτ ▸ hopen)
        refine .inl ⟨_, _, v, rfl, hv, ?_, hnext, by rw [hnext', hnext, hτ]⟩
        rw [ParserState.move_eq hc, hmove]
        exact hgrows.add _
      · rw [hc] at hu hclose
        exact .inr ⟨rfl, hu, hclose⟩

/-- The loop without markers is at its end, and the loop with them has come to the same place. -/
structure Meet (options : Options) (s : Stage) (u : ParserState) (left : List (List Char))
    (t : Stage) (τ : ParserState) : Prop where
  lines : Linewise left
  rest : u.cursor.rest = left.flatten
  cursor : τ.cursor = u.cursor
  grows : s.GrowsTo t
  closing : options.markers.closing.toList <+: u.cursor.rest
  /-- There is no line any more, or the closing marker was met in front of the next one. -/
  ended : left = [] ∨ ∃ σ, σ.cursor = u.cursor ∧
    s.readLine options.unmarked (Block.boundary options) σ = .ok none u

theorem readLines_marked {ls : List (List Char)} (hls : Linewise ls)
    (hσ : σ.cursor.rest = ls.flatten) (hτ : τ.cursor = σ.cursor) (hgrows : s.GrowsTo t)
    (hr : s.readLines options.unmarked (Block.boundary options) ls σ = .ok s' u) :
    ∃ left t' τ', Meet options s' u left t' τ' ∧
      t.readLines options.marked (Block.boundary options) ls τ =
        t'.readLines options.marked (Block.boundary options) left τ' := by
  induction ls generalizing s t σ τ with
  | nil =>
    rw [readLines, bind_apply] at hr
    cases hg : (Block.boundary options).gate σ with
    | error e v =>
      rw [hg] at hr
      cases hr
    | ok found v =>
      rw [hg] at hr
      cases hr
      obtain ⟨rfl, ⟨-, hclose⟩ | ⟨-, hne⟩⟩ := Block.gate_ok hg
      · exact ⟨[], t, τ, ⟨trivial, hσ, hτ, hgrows, List.isPrefixOf_iff_prefix.1 hclose, .inl rfl⟩,
          rfl⟩
      · exact absurd hσ hne
  | cons line rest ih =>
    rw [readLines] at hr
    obtain ⟨r, v, hline, hr⟩ := bind_ok hr
    rcases readLine_marked hls hσ hτ hgrows hline with ⟨s₁, t₁, w, rfl, ht, h₁, hv, hw⟩ |
      ⟨rfl, hv, hclose⟩
    · obtain ⟨left, t', τ', hmeet, heq⟩ := ih hls.2 (by rw [hv]) hw h₁ hr
      refine ⟨left, t', τ', hmeet, ?_⟩
      rw [← heq, readLines]
      exact bind_of_ok ht _
    · cases hr
      exact ⟨line :: rest, t, τ, ⟨hls, hv ▸ hσ, hτ.trans hv.symm, hgrows, hv ▸ hclose,
        .inr ⟨σ, hv.symm, hline⟩⟩, rfl⟩

theorem Meet.member?_none (h : Meet options s u (line :: rest) t τ) :
    s.member? options.unmarked u.move line = none := by
  rcases h.ended with hnil | ⟨σ, hσ, hr⟩
  · cases hnil
  · rw [Option.eq_none_iff_forall_ne_some]
    intro s' hm
    have hmove : u.move = σ.move := ParserState.move_eq hσ.symm
    obtain ⟨v, hv, -⟩ := readLine_of_member (Block.boundary options) h.lines
      (by rw [hσ, h.rest]) (hmove ▸ hm)
    cases hv.symm.trans hr

theorem Meet.readMember_ok {left : List (List Char)} (h : Meet options s u (line :: left) t τ)
    {e : Failure} {v : ParserState} : t.readMember options.marked τ ≠ .error e v := by
  intro hm
  rcases h.ended with hnil | ⟨σ, hσ, hr⟩
  · cases hnil
  · rcases h.grows.opened_cases with ⟨-, ho'⟩ | ⟨a, b, ho, ho', -⟩
    · rw [readMember_of_closed ho'] at hm
      cases hm
    · rw [readMember_of_opened ho'] at hm
      cases htried : (Member.choice options.marked).tried τ with
      | ok found w =>
        rw [htried] at hm
        cases found <;> cases hm
      | error e' w =>
        obtain ⟨w', hw'⟩ :=
          Member.tried_error htried options.unmarked (hσ.trans h.cursor.symm)
        rw [readLine, bind_apply, readMember_of_opened ho, hw'] at hr
        cases hr

theorem Meet.readLines_ok {left : List (List Char)} (h : Meet options s u left t τ)
    (hnone : t.opened.isSome →
      readAlone (Member.parser options.marked) (firstLine u.cursor.rest) = none) :
    ∃ v, t.readLines options.marked (Block.boundary options) left τ = .ok t v ∧
      v.cursor = u.cursor := by
  have hgate {v : ParserState} (hv : v.cursor = u.cursor) :
      (Block.boundary options).gate v = .ok (some none) v :=
    gate_block_of_closing (hv ▸ h.closing)
  cases left with
  | nil =>
    refine ⟨τ, ?_, h.cursor⟩
    rw [readLines, bind_of_ok (hgate h.cursor)]
    rfl
  | cons line rest =>
    have hτ : τ.cursor.rest = (line :: rest).flatten := by rw [h.cursor, h.rest]
    have hm : t.member? options.marked τ.move line = none := by
      rcases h.grows.opened_cases with ⟨-, ho⟩ | ⟨-, e, -, ho, -⟩
      · exact member?_of_closed ho _
      · have hfirst := hnone (by rw [ho]; rfl)
        rw [h.rest, h.lines.firstLine_flatten.1] at hfirst
        rw [member?_of_opened ho, hfirst]
        rfl
    rcases readMember_of_none h.lines hτ hm with ⟨e, v, hv, -⟩ | ⟨v, hv, hc, -⟩
    · exact absurd hv h.readMember_ok
    · have hvu : v.cursor = u.cursor := hc.trans h.cursor
      have hitem : t.readItem (Block.boundary options) v = .ok none v := by
        rw [readItem, bind_of_ok (hgate hvu)]
        rfl
      have hline : t.readLine options.marked (Block.boundary options) τ = .ok none v :=
        (bind_of_ok hv _).trans hitem
      exact ⟨v, bind_of_ok hline _, hvu⟩

theorem Meet.exists_line {left : List (List Char)} (h : Meet options s u left t τ) {n : Member}
    (hn : readAlone (Member.parser options.marked) (firstLine u.cursor.rest) = some n) :
    ∃ line rest, left = line :: rest ∧
      readAlone (Member.parser options.marked) line = some n := by
  cases left with
  | nil =>
    rw [h.rest] at hn
    obtain ⟨v, hv⟩ := Member.tried_of_readAlone hn
    cases (Choice.tried_some hv).1
  | cons line rest =>
    rw [h.rest, h.lines.firstLine_flatten.1] at hn
    exact ⟨line, rest, rfl, hn⟩

theorem Meet.closing_indented {left : List (List Char)} (h : Meet options s u left t τ)
    (ho : s.opened.isSome) {n : Member}
    (hn : readAlone (Member.parser options.marked) (firstLine u.cursor.rest) = some n)
    (hne : options.markers.closing.toList ≠ []) :
    options.markers.closing.toList.head?.any isHorizontalSpace := by
  obtain ⟨line, rest, rfl, hline⟩ := h.exists_line hn
  obtain ⟨e, ho⟩ := Option.isSome_iff_exists.1 ho
  have hunmarked := h.member?_none
  rw [member?_of_opened ho, Option.map_eq_none_iff] at hunmarked
  have hclosing := h.closing
  rw [h.rest, List.flatten_cons] at hclosing
  rw [← Block.head?_of_marker hclosing hne h.lines.ne_nil]
  exact Member.indented_of_marked hunmarked hline

variable {place : Position → Span → Span} {p : Position} {ls : List (List Char)} {e : Entity}

/-- A step adds a member to the open entity, or another item. -/
theorem step_adds {place : Span → Span} (h : s.step options place line = some s') :
    (∃ e m stop, s.opened = some e ∧ s' = { s with opened := some (e.extend m stop) }) ∨
      ∃ item, s' = s.add item := by
  rcases step_inversion h with ⟨e, m, ho, -, rfl⟩ | ⟨e, -, rfl⟩ | ⟨-, l, -, rfl⟩ |
    ⟨-, l, -, rfl⟩ | ⟨-, -, -, rfl⟩
  · exact .inl ⟨e, _, _, ho, rfl⟩
  · exact .inr ⟨.entity _, rfl⟩
  · exact .inr ⟨.blank _, rfl⟩
  · exact .inr ⟨.comment _, rfl⟩
  · exact .inr ⟨.blank _, rfl⟩

theorem add_complete (s : Stage) (item : Item) : s.items <+: (s.add item).complete := by
  cases item with
  | entity e => exact List.prefix_rfl
  | blank l => exact List.prefix_append _ _
  | comment l => exact List.prefix_append _ _

theorem add_last {item : Item} (ho : (s.add item).opened = none) (e : Entity) :
    (s.add item).items.getLast? ≠ some (.entity e) := by
  cases item with
  | entity e => cases ho
  | blank l =>
    change (s.push _).items.getLast? ≠ _
    simp [push_items]
  | comment l =>
    change (s.push _).items.getLast? ≠ _
    simp [push_items]

theorem run_complete (hrun : run options place p ls s = some s') : s.complete <+: s'.complete := by
  induction ls generalizing p s with
  | nil =>
    cases hrun
    exact List.prefix_rfl
  | cons line rest ih =>
    obtain ⟨s₁, hstep, hrun⟩ := run_cons_eq_some_iff.1 hrun
    have hcomplete := ih hrun
    rcases step_adds hstep with ⟨e, m, stop, -, rfl⟩ | ⟨item, rfl⟩
    · exact hcomplete
    · exact (List.prefix_append _ _).trans ((s.add_complete item).trans hcomplete)

theorem run_keeps (ho : s.opened = some e) (hrun : run options place p ls s = some s') :
    ∃ e' more, s'.items = s.complete ++ .entity e' :: more ∧ e.members <+: e'.members := by
  induction ls generalizing p s e with
  | nil =>
    cases hrun
    exact ⟨e, [], by rw [items, ho]; rfl, List.prefix_rfl⟩
  | cons line rest ih =>
    obtain ⟨s₁, hstep, hrun⟩ := run_cons_eq_some_iff.1 hrun
    rcases step_adds hstep with ⟨e₁, m, stop, ho₁, rfl⟩ | ⟨item, rfl⟩
    · cases ho.symm.trans ho₁
      obtain ⟨e', more, hitems, hmembers⟩ := ih rfl hrun
      exact ⟨e', more, hitems, (List.prefix_append _ _).trans hmembers⟩
    · obtain ⟨more, hmore⟩ := (s.add_complete item).trans (run_complete hrun)
      refine ⟨e, more ++ s'.opened.toList.map .entity, ?_, List.prefix_rfl⟩
      rw [Stage.items, ← hmore, Stage.items, ho]
      simp

theorem run_last (hrun : run options place p ls s = some s')
    (hs : s.opened = none → ∀ e, s.items.getLast? ≠ some (.entity e)) (ho : s'.opened = none) :
    ∀ e, s'.items.getLast? ≠ some (.entity e) := by
  induction ls generalizing p s with
  | nil =>
    cases hrun
    exact hs ho
  | cons line rest ih =>
    obtain ⟨s₁, hstep, hrun⟩ := run_cons_eq_some_iff.1 hrun
    refine ih hrun fun ho₁ ↦ ?_
    rcases step_adds hstep with ⟨e, m, stop, -, rfl⟩ | ⟨item, rfl⟩
    · cases ho₁
    · exact add_last ho₁

/-- With markers the block does not end here if the next line is a member, and never gets back to
what it would have been. -/
theorem Meet.not_grows {left : List (List Char)} (h : Meet options s u left t τ)
    (ho : s.opened = some e) {n : Member}
    (hn : readAlone (Member.parser options.marked) (firstLine u.cursor.rest) = some n)
    {v : ParserState}
    (hr : t.readLines options.marked (Block.boundary options) left τ = .ok t' v) :
    ¬List.Forall₂ Item.GrowsTo s.items t'.items := by
  intro hgrows
  obtain ⟨line, rest, rfl, hline⟩ := h.exists_line hn
  rcases h.grows.opened_cases with ⟨hnone, -⟩ | ⟨e₁, e', ho₁, ho', he⟩
  · rw [ho] at hnone
    cases hnone
  · cases ho.symm.trans ho₁
    have hτ : τ.cursor.rest = (line :: rest).flatten := by rw [h.cursor, h.rest]
    have hm := @member?_of_opened options.marked line t e' ho' τ.move
    rw [hline] at hm
    obtain ⟨w, hw, hc⟩ := readLine_of_member (Block.boundary options) h.lines hτ hm
    rw [readLines, bind_of_ok hw] at hr
    obtain ⟨ls₁, ls₂, -, hrun, -⟩ := readLines_block_ok h.lines.2 (by rw [hc]) hr
    obtain ⟨e₂, more, hitems, hmembers⟩ := run_keeps rfl hrun
    rw [hitems, items, ho] at hgrows
    have hlast := List.forall₂_drop_append _ _ _ hgrows
    rw [List.drop_left' h.grows.complete.length_eq] at hlast
    obtain ⟨he₂⟩ := (List.forall₂_cons.1 hlast).1
    have hextended := hmembers.length_le
    rw [Entity.extend, List.length_append, ← he.members.length_eq, ← he₂.members.length_eq]
      at hextended
    exact absurd hextended (by simp)

end Stage

namespace Block

variable {options : Options} {text : String} {f : Document}

def unread? (options : Options) (text : String) : Option (List Char) :=
  match afterOpening options.markers.opening text.toList .start with
  | .error _ => none
  | .ok inside =>
    match parser options { cursor := inside } with
    | .ok _ t => some t.cursor.rest
    | .error _ _ => none

/-- The line in front of which the block `f` ends is one more member of its last entity if names may
carry markers. -/
def Overrun (options : Options) (text : String) (f : Document) : Prop :=
  (∃ e, f.items.getLast? = some (.entity e)) ∧ ∃ rest, unread? options.unmarked text = some rest ∧
    (readAlone (Member.parser options.marked) (firstLine rest)).isSome

theorem meet_of_parse (h : parse options.unmarked text = .ok f) : ∃ inside s u left t τ,
    afterOpening options.markers.opening text.toList .start = .ok inside ∧
    f = ⟨s.items, inside.position.spanTo u.cursor.position⟩ ∧
    unread? options.unmarked text = some u.cursor.rest ∧
    Stage.Meet options s u left t τ ∧
    Stage.readLines options.marked (boundary options) (lines inside.rest) {} { cursor := inside } =
      t.readLines options.marked (boundary options) left τ ∧
    (s.opened = none → ∀ e, f.items.getLast? ≠ some (.entity e)) ∧
    (options.markers.closing.toList = [] → s.opened = none) := by
  rw [← String.ofList_toList (s := text)] at h
  obtain ⟨inside, s, u, hafter, hread, rfl⟩ := parse_ok h
  have hinside : (ParserState.mk inside none).cursor.rest = (lines inside.rest).flatten :=
    (lines_flatten inside.rest).symm
  obtain ⟨left, t, τ, hmeet, hmarked⟩ :=
    Stage.readLines_marked (lines_linewise inside.rest) hinside rfl .nil hread
  obtain ⟨ls₁, ls₂, -, hrun, -, -, hempty⟩ :=
    Stage.readLines_block_ok (lines_linewise inside.rest) hinside hread
  refine ⟨inside, s, u, left, t, τ, hafter, rfl, ?_, hmeet, hmarked, ?_, fun hnil ↦ ?_⟩
  · have hparser := parser_apply options.unmarked inside
    rw [hread] at hparser
    have hafter' : afterOpening options.unmarked.markers.opening text.toList .start =
        .ok inside := hafter
    rw [unread?, hafter']
    simp only [hparser]
  · exact Stage.run_last hrun fun _ e he ↦ by cases he
  · rw [hempty hnil rfl] at hrun
    cases hrun
    rfl

theorem parse_marked (h : parse options.unmarked text = .ok f) :
    (∃ g, parse options.marked text = .ok g ∧ f.GrowsTo g) ↔ ¬Overrun options text f := by
  obtain ⟨inside, s, u, left, t, τ, hafter, rfl, hunread, hmeet, hread, hlast, -⟩ := meet_of_parse h
  have hparse := parse_apply options.marked hafter
  have hread' : Stage.readLines options.marked (boundary options.marked) (lines inside.rest) {}
      { cursor := inside } = t.readLines options.marked (boundary options) left τ := hread
  rw [String.ofList_toList, hread'] at hparse
  constructor
  · rintro ⟨g, hg, hgrows⟩ ⟨⟨e, he⟩, rest, hrest, hmember⟩
    obtain rfl : u.cursor.rest = rest := Option.some.inj (hunread.symm.trans hrest)
    obtain ⟨n, hn⟩ := Option.isSome_iff_exists.1 hmember
    rw [hg] at hparse
    cases ho : s.opened with
    | none => exact hlast ho e he
    | some e' =>
      cases hr : t.readLines options.marked (boundary options) left τ with
      | error err v =>
        rw [hr] at hparse
        cases hparse
      | ok t' v =>
        rw [hr] at hparse
        cases hparse
        exact hmeet.not_grows ho hn hr hgrows.items
  · intro hnot
    have hnone (ho : t.opened.isSome) :
        readAlone (Member.parser options.marked) (firstLine u.cursor.rest) = none := by
      rcases hmeet.grows.opened_cases with ⟨-, ho'⟩ | ⟨e, -, ho', -, -⟩
      · rw [ho'] at ho
        cases ho
      · have hlast : s.items.getLast? = some (.entity e) := by
          rw [Stage.items, ho']
          exact List.getLast?_concat
        rw [← Option.not_isSome_iff_eq_none]
        exact fun hmember ↦ hnot ⟨⟨e, hlast⟩, _, hunread, hmember⟩
    obtain ⟨v, hv, hc⟩ := hmeet.readLines_ok hnone
    rw [hv] at hparse
    exact ⟨_, hparse, hmeet.grows.items, by rw [hc]⟩

theorem not_overrun (h : parse options.unmarked text = .ok f)
    (hclosing : options.markers.closing.toList.head?.any isHorizontalSpace = false) :
    ¬Overrun options text f := by
  obtain ⟨inside, s, u, left, t, τ, hafter, rfl, hunread, hmeet, -, hlast, hempty⟩ :=
    meet_of_parse h
  rintro ⟨⟨e, he⟩, rest, hrest, hmember⟩
  obtain rfl : u.cursor.rest = rest := Option.some.inj (hunread.symm.trans hrest)
  obtain ⟨n, hn⟩ := Option.isSome_iff_exists.1 hmember
  have ho : s.opened.isSome := by
    by_contra hnone
    exact hlast (Option.not_isSome_iff_eq_none.1 hnone) e he
  have hindented := hmeet.closing_indented ho hn fun hnil ↦ by
    rw [hempty hnil] at ho
    cases ho
  rw [hclosing] at hindented
  cases hindented

/-- With the closing marker `" !B"` the block ends behind its entity, or else this line is a
uniqueness constraint and the closing marker is missing. -/
theorem parse_marked_overruns :
    let options : Options := { markers := ⟨[Markers.persistLowerCase], " !B"⟩ }
    ∃ f, parse options.unmarked "[persistLowerCase|A\n !B c\n" = .ok f ∧
      ∀ g, parse options.marked "[persistLowerCase|A\n !B c\n" ≠ .ok g := by
  intro options
  have hunmarked : (match parse options.unmarked "[persistLowerCase|A\n !B c\n" with
      | .ok _ => true
      | .error _ => false) = true := by decide +kernel
  have hmarked : (match parse options.marked "[persistLowerCase|A\n !B c\n" with
      | .ok _ => true
      | .error _ => false) = false := by decide +kernel
  split at hunmarked
  · next f hf =>
    refine ⟨f, hf, fun g hg ↦ ?_⟩
    rw [hg] at hmarked
    cases hmarked
  · cases hunmarked

end Block

namespace Document

/-- Names may carry markers where an option says so. What is read without it is read with it, to
the same items, members and spans, except that the list of names of a clause may go on. For
documents there is no exception. A block can go on behind the line in front of which it ended, if
this is a member with markers; then the closing marker is indented, as that member is. -/
theorem parse_marked_grows (options : Options) :
    (∀ text f, parse options.unmarked text = .ok f →
      ∃ g, parse options.marked text = .ok g ∧ f.GrowsTo g) ∧
    (∀ text f, Block.parse options.unmarked text = .ok f →
      ((∃ g, Block.parse options.marked text = .ok g ∧ f.GrowsTo g) ↔
        ¬Block.Overrun options text f)) ∧
    (options.markers.closing.toList.head?.any isHorizontalSpace = false →
      ∀ text f, Block.parse options.unmarked text = .ok f →
        ∃ g, Block.parse options.marked text = .ok g ∧ f.GrowsTo g) :=
  ⟨fun _ _ ↦ parse_marked, fun _ _ ↦ Block.parse_marked,
    fun hclosing _ _ h ↦ (Block.parse_marked h).2 (Block.not_overrun h hclosing)⟩

theorem parse_marked_primary :
    (∃ f g, parse (default : Options).unmarked "A\n  Primary a !b\n" = .ok f ∧
      parse (default : Options).marked "A\n  Primary a !b\n" = .ok g ∧ f.GrowsTo g ∧ f ≠ g) ∧
    ∃ f g, Block.parse (default : Options).unmarked "[persistLowerCase|A\n  Primary a !b\n|]" =
        .ok f ∧
      ¬Block.Overrun default "[persistLowerCase|A\n  Primary a !b\n|]" f ∧
      Block.parse (default : Options).marked "[persistLowerCase|A\n  Primary a !b\n|]" = .ok g ∧
      f.GrowsTo g := by
  obtain ⟨hdocument, hblock, hclosing⟩ := parse_marked_grows default
  have hread : (match parse (default : Options).unmarked "A\n  Primary a !b\n",
      parse (default : Options).marked "A\n  Primary a !b\n" with
      | .ok f, .ok g => f != g
      | _, _ => false) = true := by decide +kernel
  have hinside : (match Block.parse (default : Options).unmarked
      "[persistLowerCase|A\n  Primary a !b\n|]" with
      | .ok _ => true
      | .error _ => false) = true := by decide +kernel
  constructor
  · split at hread
    · next f g hf hg =>
      obtain ⟨g', hg', hgrows⟩ := hdocument _ f hf
      cases hg.symm.trans hg'
      exact ⟨f, g, hf, hg, hgrows, bne_iff_ne.1 hread⟩
    · cases hread
  · split at hinside
    · next f hf =>
      obtain ⟨g, hg⟩ := hclosing (by decide) _ f hf
      exact ⟨f, g, hf, (hblock _ f hf).1 ⟨g, hg⟩, hg⟩
    · cases hinside

end Document

end EntityModels
