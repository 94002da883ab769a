import EntityModels.Proofs.Grammar.Alternatives
import EntityModels.Proofs.Reading.Documents

namespace EntityModels

theorem newline_notMem_word {text : List Char} (h : ∀ c ∈ text, isIdentChar c) : '\n' ∉ text := by
  intro hm
  have hc := h _ hm
  revert hc
  decide

theorem newline_notMem_spaced {α : Type} {render : α → List Char} {words : List α}
    (h : ∀ word ∈ words, '\n' ∉ render word) : '\n' ∉ spaced render words := by
  intro hm
  obtain ⟨word, hword, hm⟩ := List.mem_flatMap.1 hm
  rcases List.mem_cons.1 hm with hspace | hm
  · exact absurd hspace (by decide)
  · exact h word hword hm

theorem newline_notMem_names {kind : IdentKind} {names : List (Ident kind)}
    (h : IdentKind.NamesAll names) : '\n' ∉ spaced Ident.render names :=
  newline_notMem_spaced fun name hn ↦ newline_notMem_word (h.2 name hn).continues

theorem newline_notMem_indent : '\n' ∉ indent := by decide

theorem Field.WellFormed.terminated {f : Field} (h : f.WellFormed) : Terminated f.render := by
  have hname := newline_notMem_word h.name.continues
  have htype : '\n' ∉ f.type.render := by
    have htypeName := newline_notMem_word h.type.continues
    have hstrictness : '\n' ∉ f.type.strictness.render := by cases f.type.strictness <;> decide
    rw [FieldType.render]
    cases f.type.isList <;> cases f.type.isMaybe <;>
      simp [htypeName, hstrictness, Keyword.maybe]
  have hflags : '\n' ∉ spaced Flag.render f.flags := by
    apply newline_notMem_spaced
    intro g _
    rw [Flag.render]
    cases g.1 <;> decide
  have hsettings : '\n' ∉ spaced Setting.render f.settings := by
    apply newline_notMem_spaced
    intro g hg
    have hkeyword : '\n' ∉ g.1.keyword.toList := by cases g.1 <;> decide
    have hvalue := newline_notMem_word (h.admits g hg).word.2.1
    simp [Setting.render, hkeyword, hvalue]
  refine ⟨_, ?_, rfl⟩
  simp [newline_notMem_indent, hname, htype, hflags, hsettings]

theorem newline_notMem_blanks {blanks : List Char} (h : ∀ c ∈ blanks, isHorizontalSpace c) :
    '\n' ∉ blanks := by
  intro hm
  have hspace := h _ hm
  rw [isHorizontalSpace_newline] at hspace
  cases hspace

theorem BlankLine.WellFormed.terminated {line : BlankLine} (h : line.WellFormed) :
    Terminated line.text.toList := by
  obtain ⟨blanks, hblanks, htext⟩ := h
  exact ⟨blanks, newline_notMem_blanks hblanks, htext⟩

theorem CommentLine.WellFormed.terminated {line : CommentLine} (h : line.WellFormed) :
    Terminated line.text.toList := by
  obtain ⟨blanks, body, hblanks, hbody, htext⟩ := h
  refine ⟨blanks ++ (Keyword.comment.toList ++ body), ?_, ?_⟩
  · have hleading := newline_notMem_blanks hblanks
    simp [hleading, hbody, Keyword.comment]
  · simp only [htext, List.append_assoc]

theorem Member.WellFormed.terminated {m : Member} (h : m.WellFormed) : Terminated m.render := by
  cases m with
  | field f => exact Field.WellFormed.terminated h
  | derive clause =>
    refine ⟨_, ?_, rfl⟩
    have hnames := newline_notMem_names h
    simp [newline_notMem_indent, hnames, Keyword.derive]
  | primary clause =>
    refine ⟨_, ?_, rfl⟩
    have hnames := newline_notMem_names h
    simp [newline_notMem_indent, hnames, Keyword.primary]
  | foreign clause =>
    refine ⟨_, ?_, rfl⟩
    have htarget := newline_notMem_word h.1.continues
    have hnames := newline_notMem_names h.2
    simp [newline_notMem_indent, htarget, hnames, Keyword.foreign]
  | unique clause =>
    refine ⟨_, ?_, rfl⟩
    have hname := newline_notMem_word h.1.continues
    have hnames := newline_notMem_names h.2.2
    simp [newline_notMem_indent, hname, hnames]
  | blank line => exact BlankLine.WellFormed.terminated h
  | comment line => exact CommentLine.WellFormed.terminated h

theorem Entity.WellFormed.terminated {e : Entity} (h : e.WellFormed) :
    Terminated e.renderHeader := by
  have hname := newline_notMem_word h.name.continues
  have htable : '\n' ∉ renderTable e.sqlTableName := by
    cases ht : e.sqlTableName with
    | none => exact List.not_mem_nil
    | some text =>
      have htext := newline_notMem_word (h.sqlTableName text ht).continues
      simp [renderTable, Keyword.sql, htext]
  refine ⟨_, ?_, rfl⟩
  cases e.derivesJson <;> simp [hname, htable, Keyword.json]

theorem Item.WellFormed.terminated {item : Item} (h : item.WellFormed) :
    ∀ line ∈ item.renderLines, Terminated line := by
  cases item with
  | entity e =>
    have he : e.WellFormed := h
    intro line hl
    rcases List.mem_cons.1 hl with rfl | hl
    · exact he.terminated
    · obtain ⟨m, hm, rfl⟩ := List.mem_map.1 hl
      exact (he.members m hm).terminated
  | blank b =>
    intro line hl
    obtain rfl := List.mem_singleton.1 hl
    exact BlankLine.WellFormed.terminated h
  | comment c =>
    intro line hl
    obtain rfl := List.mem_singleton.1 hl
    exact CommentLine.WellFormed.terminated h

theorem Member.mapSpan_noSpan (f : Span → Span) (m : Member) :
    (m.mapSpan f).mapSpan noSpan = m.mapSpan noSpan := mapSpan_mapSpan f noSpan m

section

variable {options : Options} {place : Span → Span} {s : Stage}

theorem Member.WellFormed.readAlone (hoptions : options.markedNames = false) {m : Member}
    (h : m.WellFormed) : ∃ found, EntityModels.readAlone (parser options) m.render = some found ∧
      found.mapSpan noSpan = m.mapSpan noSpan := by
  obtain ⟨hstart, hreads, before, after, hall, hbefore⟩ := h.takes hoptions
  obtain ⟨found, t, ht, hfound⟩ := @Choice.firstOr_reads Member (.ofText m.render) MemberKind
    (MemberKind.choice options) (MemberKind.reader options) (fun _ ↦ rfl) before after m.kind
      hbefore hstart _ [] hreads "entity member"
  refine ⟨found, ?_, hfound⟩
  rw [← hall] at ht
  have hparser : parser options (.ofText m.render) = .ok found t := ht
  rw [EntityModels.readAlone, hparser]

theorem Stage.step_member (hoptions : options.markedNames = false) {m : Member} (h : m.WellFormed)
    {e : Entity} (ho : s.opened = some e) : ∃ (found : Member) (stop : Location),
      found.mapSpan noSpan = m.mapSpan noSpan ∧
        s.step options place m.render = some { s with opened := some (e.extend found stop) } := by
  obtain ⟨found, hr, hfound⟩ := h.readAlone hoptions
  refine ⟨found.mapSpan place, (place (wholeSpan m.render)).stop,
    (Member.mapSpan_noSpan place found).trans hfound, ?_⟩
  apply step_of_member
  rw [member?_of_opened ho, hr]
  rfl

theorem Entity.WellFormed.reads_head {e : Entity} (h : e.WellFormed) :
    head.Reads e.renderHeader
      (fun found ↦ found.mapSpan noSpan = { e with members := [] }.mapSpan noSpan) [] := by
  refine Reader.Reads.position.bind fun start _ ↦ ?_
  refine h.reads_header.bind fun found hfound ↦ ?_
  refine Reader.Reads.position.bind fun stop _ ↦ .pure ?_
  obtain ⟨hname, hjson, htable⟩ := hfound
  simp only [mapSpan, Ident.mapSpan_noSpan hname, hjson, htable]
  rfl

theorem Stage.step_header {e : Entity} (h : e.WellFormed) : ∃ found : Entity,
    found.mapSpan noSpan = { e with members := [] }.mapSpan noSpan ∧
      s.step options place e.renderHeader = some (s.start found) := by
  obtain ⟨found, hv, hfound⟩ := h.reads_head.value?
  refine ⟨found.mapSpan place, (Entity.mapSpan_mapSpan place noSpan found).trans hfound, ?_⟩
  have hmember : s.member? options place e.renderHeader = none := by
    simp only [Entity.renderHeader, List.append_assoc]
    obtain ⟨c, cs, hc, hstarts⟩ := h.name.head_append
      ((if e.derivesJson then ' ' :: Keyword.json.toList else []) ++
        (Entity.renderTable e.sqlTableName ++ ['\n']))
    rw [hc]
    exact member?_of_mayStart (Member.mayStart_of_typeStart hstarts _) place s
  have hheader : s.header? options place e.renderHeader = some (s.start (found.mapSpan place)) := by
    rw [header?, Entity.readAlone_eq_head h.terminated.linewise, hv]
    rfl
  rw [step, hmember, hheader]
  rfl

theorem Stage.header?_of_trivia {line : List Char} (ht : Terminated line)
    (h : line.head?.any isTypeStart = false) : s.header? options place line = none := by
  rw [header?, Entity.readAlone_eq_head ht.linewise]
  cases hv : Entity.head.value? (.ofText line) with
  | none => rfl
  | some e =>
    obtain ⟨d, hd⟩ := Reader.ok_of_value? hv
    have hstart : line.head?.any isTypeStart = true := Entity.head_start hd
    rw [h] at hstart
    cases hstart

theorem head_of_blanks {blanks tail : List Char} {x : Char} (h : ∀ c ∈ blanks, isHorizontalSpace c)
    (hx : isTypeStart x = false) : (blanks ++ x :: tail).head?.any isTypeStart = false := by
  cases blanks with
  | nil => exact hx
  | cons c blanks =>
    rw [List.cons_append, List.head?_cons, Option.any_some, Bool.eq_false_iff]
    intro hc
    have hspace := h c List.mem_cons_self
    rw [isHorizontalSpace_of_isTypeStart hc] at hspace
    cases hspace

theorem Stage.step_blank {line : BlankLine} (h : line.WellFormed) (ho : s.opened = none) :
    ∃ found : BlankLine, found.mapSpan noSpan = line.mapSpan noSpan ∧
      s.step options place line.text.toList = some (s.push (.blank found)) := by
  obtain ⟨found, hv, hfound⟩ := h.reads.value?
  have hterminated := h.terminated
  refine ⟨found.mapSpan place, hfound, ?_⟩
  have hheader : s.header? options place line.text.toList = none := by
    obtain ⟨blanks, hblanks, htext⟩ := h
    apply header?_of_trivia hterminated
    rw [htext]
    exact head_of_blanks hblanks (by decide)
  have htrivia : s.trivia? place line.text.toList =
      some (s.push (.blank (found.mapSpan place))) := by
    rw [trivia?, ho, readAlone_ofReader, hv]
    rfl
  rw [step, member?_of_closed ho, hheader, htrivia]
  rfl

theorem Stage.step_comment {line : CommentLine} (h : line.WellFormed) (ho : s.opened = none) :
    ∃ found : CommentLine, found.mapSpan noSpan = line.mapSpan noSpan ∧
      s.step options place line.text.toList = some (s.push (.comment found)) := by
  obtain ⟨found, hv, hfound⟩ := h.reads.value?
  have hterminated := h.terminated
  obtain ⟨blanks, body, hblanks, -, htext⟩ := h
  refine ⟨found.mapSpan place, hfound, ?_⟩
  have hheader : s.header? options place line.text.toList = none := by
    apply header?_of_trivia hterminated
    rw [htext]
    exact head_of_blanks (x := '-') hblanks (by decide)
  have hblank : BlankLine.reader.value? (.ofText line.text.toList) = none := by
    rw [Option.eq_none_iff_forall_ne_some]
    intro l hl
    obtain ⟨d, hd⟩ := Reader.ok_of_value? hl
    have hnext := (BlankLine.reader_ok hd).1
    have hdash : Unspaced (Keyword.comment.toList ++ (body ++ ['\n'])) :=
      .of_head (x := '-') (by decide) _
    change (line.text.toList.dropWhile isHorizontalSpace).head? = some '\n' at hnext
    rw [htext, (takeWhile_append_stop hblanks hdash).2] at hnext
    exact absurd hnext (by simp [Keyword.comment])
  have htrivia : s.trivia? place line.text.toList =
      some (s.push (.comment (found.mapSpan place))) := by
    rw [trivia?, ho, readAlone_ofReader, readAlone_ofReader, hblank, hv]
    rfl
  rw [step, member?_of_closed ho, hheader, htrivia]
  rfl

end

theorem Entity.mapSpan_withMembers {found e : Entity}
    (h : found.mapSpan noSpan = { e with members := [] }.mapSpan noSpan) :
    { found with members := found.members ++ e.members }.mapSpan noSpan = e.mapSpan noSpan := by
  simp only [mapSpan, mk.injEq, List.map_nil] at h ⊢
  obtain ⟨hname, hjson, htable, hmembers, -⟩ := h
  refine ⟨hname, hjson, htable, ?_, rfl⟩
  rw [List.map_append, hmembers, List.nil_append]

namespace Stage

variable {options : Options} {s : Stage}

/-- The lines of the members are added to the open entity, whatever comes after them. -/
theorem run_members (hoptions : options.markedNames = false) {ms : List Member}
    (h : ∀ m ∈ ms, m.WellFormed) {e : Entity} (ho : s.opened = some e) (p : Position)
    (rest : List (List Char)) : ∃ (found : Entity) (q : Position),
      found.mapSpan noSpan = { e with members := e.members ++ ms }.mapSpan noSpan ∧
        run options inPlace p (ms.map Member.render ++ rest) s =
          run options inPlace q rest { s with opened := some found } := by
  induction ms generalizing e s p with
  | nil =>
    refine ⟨e, p, ?_, ?_⟩
    · rw [List.append_nil]
    · rw [List.map_nil, List.nil_append, ← ho]
  | cons m ms ih =>
    obtain ⟨m', stop, hm, hstep⟩ := @step_member options (inPlace p) s hoptions m
      (h m List.mem_cons_self) e ho
    obtain ⟨found, q, hfound, hrun⟩ := ih (fun m' hm' ↦ h m' (.tail m hm'))
      (s := { s with opened := some (e.extend m' stop) }) rfl (p.after m.render)
    refine ⟨found, q, hfound.trans ?_, ?_⟩
    · simp only [Entity.mapSpan, Entity.extend, List.map_append, List.map_cons, hm,
        List.append_assoc, List.cons_append, List.nil_append]
      rfl
    · rw [List.map_cons, List.cons_append, run_cons, hstep]
      exact hrun

theorem opened_eq_none {kind : ItemKind} (hk : kind ≠ .entity)
    (h : s.opened.isSome → kind = .entity) : s.opened = none := by
  rw [← Option.not_isSome_iff_eq_none]
  intro ho
  exact hk (h ho)

theorem run_item (hoptions : options.markedNames = false) {item : Item} (h : item.WellFormed)
    (hfirst : s.opened.isSome → item.kind = .entity) (p : Position) (rest : List (List Char)) :
    ∃ (s' : Stage) (q : Position),
      run options inPlace p (item.renderLines ++ rest) s = run options inPlace q rest s' ∧
        s'.items.map (Item.mapSpan noSpan) = (s.items ++ [item]).map (Item.mapSpan noSpan) ∧
          (s'.opened.isSome → item.kind = .entity) := by
  cases item with
  | entity e =>
    have he : e.WellFormed := h
    obtain ⟨e₀, he₀, hstep⟩ := @step_header options (inPlace p) s e he
    obtain ⟨e₁, q, he₁, hrun⟩ := run_members hoptions he.members (s := s.start e₀) rfl
      (p.after e.renderHeader) rest
    refine ⟨{ s.start e₀ with opened := some e₁ }, q, ?_, ?_, fun _ ↦ rfl⟩
    · rw [Item.renderLines, List.cons_append, run_cons, hstep]
      exact hrun
    · have hentity : e₁.mapSpan noSpan = e.mapSpan noSpan :=
        he₁.trans (Entity.mapSpan_withMembers he₀)
      simp [Stage.items, start, Item.mapSpan, hentity]
  | blank line =>
    obtain ⟨found, hfound, hstep⟩ := @step_blank options (inPlace p) s line h
      (opened_eq_none (fun hk ↦ by cases hk) hfirst)
    refine ⟨s.push (.blank found), p.after line.text.toList, ?_, ?_, fun ho ↦ by cases ho⟩
    · rw [Item.renderLines, List.singleton_append, run_cons, hstep]
      rfl
    · simp [push_items, Item.mapSpan, hfound]
  | comment line =>
    obtain ⟨found, hfound, hstep⟩ := @step_comment options (inPlace p) s line h
      (opened_eq_none (fun hk ↦ by cases hk) hfirst)
    refine ⟨s.push (.comment found), p.after line.text.toList, ?_, ?_, fun ho ↦ by cases ho⟩
    · rw [Item.renderLines, List.singleton_append, run_cons, hstep]
      rfl
    · simp [push_items, Item.mapSpan, hfound]

theorem run_items (hoptions : options.markedNames = false) {items : List Item}
    (h : ∀ item ∈ items, item.WellFormed)
    (hapart : ∀ before e item after, items = before ++ .entity e :: item :: after →
      item.kind = .entity) (hfirst : s.opened.isSome → ∀ item ∈ items.head?, item.kind = .entity)
    (p : Position) : ∃ s', run options inPlace p (items.flatMap Item.renderLines) s = some s' ∧
      s'.items.map (Item.mapSpan noSpan) = (s.items ++ items).map (Item.mapSpan noSpan) := by
  induction items generalizing s p with
  | nil =>
    refine ⟨s, rfl, ?_⟩
    rw [List.append_nil]
  | cons item items ih =>
    obtain ⟨s₁, q, hrun, hitem, hopened⟩ := run_item hoptions (h item List.mem_cons_self)
      (fun ho ↦ hfirst ho item rfl) p (items.flatMap Item.renderLines)
    have hnext : s₁.opened.isSome → ∀ i ∈ items.head?, i.kind = .entity := by
      intro ho i hi
      obtain ⟨after, rfl⟩ := List.head?_eq_some_iff.1 hi
      cases item with
      | entity e => exact hapart [] e i after rfl
      | blank line => cases hopened ho
      | comment line => cases hopened ho
    have hrest : ∀ before e i after, items = before ++ .entity e :: i :: after →
        i.kind = .entity := by
      intro before e i after hi
      exact hapart (item :: before) e i after (by rw [hi, List.cons_append])
    obtain ⟨s', hs', hitems⟩ := ih (fun i hi ↦ h i (.tail item hi)) hrest hnext q
    refine ⟨s', ?_, ?_⟩
    · rw [List.flatMap_cons, hrun, hs']
    · rw [hitems, List.map_append, hitem, ← List.map_append, List.append_assoc,
        List.singleton_append]

end Stage

/-- Every well-formed document is read as it was written, but for the places. -/
theorem Document.parse_render {options : Options} (hoptions : options.markedNames = false)
    {d : Document} (h : d.WellFormed) : ∃ found, parse options d.render = .ok found ∧
      found.mapSpan noSpan = d.mapSpan noSpan := by
  have hterminated : ∀ line ∈ d.items.flatMap Item.renderLines, Terminated line := by
    intro line hl
    obtain ⟨item, hi, hl⟩ := List.mem_flatMap.1 hl
    exact (h.items item hi).terminated line hl
  have hlines : Linewise (d.items.flatMap Item.renderLines) := by
    have happend := @Linewise.append _ [] hterminated trivial
    rwa [List.append_nil] at happend
  obtain ⟨s, hrun, hitems⟩ := Stage.run_items (s := {}) hoptions h.items h.apart
    (fun ho ↦ by cases ho) .start
  refine ⟨⟨s.items, wholeSpan d.render.toList⟩, parse_eq_ok_iff.2 ⟨s, ?_, rfl⟩, ?_⟩
  · rw [render, String.toList_ofList, hlines.lines_flatten]
    exact hrun
  · rw [mapSpan, mapSpan, hitems]
    rfl

def Document.account : Document where
  items := [.comment ⟨"-- accounts\n", .nowhere⟩, .entity
    { name := ⟨"Account", .nowhere⟩
      derivesJson := true
      sqlTableName := some "accounts"
      members := [
        .field
          { name := ⟨"ident", .nowhere⟩
            type := ⟨⟨"Text", .nowhere⟩, .lazy, true, true, .nowhere⟩
            migrationOnly := true
            safeToRemove := false
            defaultValue := none
            sqlRow := some "id"
            sqlType := none
            maxLen := some 32
            span := .nowhere },
        .blank ⟨"\n", .nowhere⟩,
        .unique ⟨⟨"UniqueIdent", .nowhere⟩, [⟨"ident", .nowhere⟩], .nowhere⟩]
      span := .nowhere }]
  span := .nowhere

theorem Document.parse_render_account :
    account.render = "-- accounts\nAccount json sql=accounts\n" ++
      "  ident [~Text] Maybe MigrationOnly sql=id maxlen=32\n\n  UniqueIdent ident\n" ∧
    account.WellFormed ∧ ∃ found, parse default account.render = .ok found ∧
      found.mapSpan noSpan = account.mapSpan noSpan := by
  have hident : IdentKind.field.Names "ident" :=
    ⟨by decide, List.all_eq_true.1 (by decide), by decide⟩
  have hmembers : ∀ m ∈ account.entities.flatMap Entity.members, m.WellFormed := by
    intro m hm
    obtain rfl | rfl | rfl : _ ∨ _ ∨ _ := by simpa [account, entities, Item.entity?] using hm
    · refine ⟨hident, ⟨by decide, List.all_eq_true.1 (by decide), by decide⟩, ?_, ?_, ?_, ?_⟩
      · rintro text ⟨⟩
      · rintro text ⟨⟩
        exact ⟨by decide, List.all_eq_true.1 (by decide)⟩
      · rintro text ⟨⟩
      · rintro n ⟨⟩
        decide
    · exact ⟨[], List.forall_mem_nil _, rfl⟩
    · refine ⟨⟨by decide, List.all_eq_true.1 (by decide), by decide⟩, by decide, by simp, ?_⟩
      intro name hn
      obtain rfl := List.mem_singleton.1 hn
      exact hident
  have hwritten : account.WellFormed := by
    constructor
    · intro item hi
      obtain rfl | rfl : _ ∨ _ := by simpa [account] using hi
      · exact ⟨[], " accounts".toList, List.forall_mem_nil _, by decide, rfl⟩
      · refine ⟨⟨by decide, List.all_eq_true.1 (by decide), by decide⟩, ?_, hmembers⟩
        rintro text ⟨⟩
        exact ⟨by decide, List.all_eq_true.1 (by decide)⟩
    · rintro (_ | ⟨_, _ | ⟨_, before⟩⟩) e item after h <;> simp [account] at h
  exact ⟨by decide, hwritten, parse_render rfl hwritten⟩

end EntityModels
