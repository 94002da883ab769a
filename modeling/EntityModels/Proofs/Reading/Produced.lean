import EntityModels.Proofs.Grammar.Results
import EntityModels.Proofs.Reading.Blocks
import EntityModels.Proofs.Reading.FatalFields

namespace EntityModels

theorem EntitiesLast.concat {items : List Item} {item : Item} (h : EntitiesLast items)
    (hbehind : ∀ last ∈ items.getLast?, last.kind = .entity → item.kind = .entity) :
    EntitiesLast (items ++ [item]) := by
  refine List.isChain_append.2 ⟨h, .singleton item, ?_⟩
  rintro last hlast _ ⟨⟩
  exact hbehind last hlast

theorem EntitiesLast.replace {before : List Item} {item other : Item}
    (h : EntitiesLast (before ++ [item])) (hkind : other.kind = item.kind) :
    EntitiesLast (before ++ [other]) := by
  obtain ⟨hbefore, -, hlast⟩ := List.isChain_append.1 h
  refine EntitiesLast.concat hbefore fun last hl he ↦ ?_
  rw [hkind]
  exact hlast last hl item rfl he

theorem Entity.Produced.extend {marked : Bool} {e : Entity} {m : Member} (he : e.Produced marked)
    (hm : m.Produced marked) (stop : Location) : (e.extend m stop).Produced marked := by
  refine ⟨he.name, he.sqlTableName, fun member hmem ↦ ?_⟩
  rcases List.mem_append.1 hmem with hold | hnew
  · exact he.members member hold
  · rwa [List.mem_singleton.1 hnew]

namespace Stage

variable {options : Options} {line : List Char} {rest : List (List Char)} {s s' : Stage}

structure Produced (marked : Bool) (s : Stage) : Prop where
  items : ∀ item ∈ s.items, item.Produced marked
  entitiesLast : EntitiesLast s.items
  bare : s.Bare

theorem produced_nil (marked : Bool) : Produced marked {} :=
  ⟨List.forall_mem_nil _, .nil, fun _ ↦ rfl⟩

theorem Produced.start {marked : Bool} (hs : s.Produced marked) {e : Entity}
    (he : e.Produced marked) : (s.start e).Produced marked := by
  have hitems : (s.start e).items = s.items ++ [.entity e] := rfl
  refine ⟨?_, ?_, fun ho ↦ by cases ho⟩
  · rw [hitems]
    exact List.forall_mem_append.2 ⟨hs.items, List.forall_mem_singleton.2 he⟩
  · rw [hitems]
    exact hs.entitiesLast.concat fun _ _ _ ↦ rfl

theorem Produced.push {marked : Bool} (hs : s.Produced marked) (ho : s.opened = none) {item : Item}
    (hitem : item.Produced marked) (htrivia : item.entity? = none) :
    (s.push item).Produced marked := by
  refine ⟨?_, ?_, push_bare ho htrivia hs.bare⟩
  · rw [push_items]
    exact List.forall_mem_append.2 ⟨hs.items, List.forall_mem_singleton.2 hitem⟩
  · rw [push_items]
    refine hs.entitiesLast.concat fun last hlast hkind ↦ ?_
    have hnone := List.filterMap_eq_nil_iff.1 (hs.bare ho) last (List.mem_of_mem_getLast? hlast)
    cases last with
    | entity e => cases hnone
    | blank l => cases hkind
    | comment l => cases hkind

theorem Produced.member {marked : Bool} (hs : s.Produced marked) {e : Entity} {m : Member}
    (ho : s.opened = some e) (hm : m.Produced marked) (stop : Location) :
    Produced marked { s with opened := some (e.extend m stop) } := by
  have hitems : s.items = s.complete ++ [.entity e] := by
    rw [Stage.items, ho]
    rfl
  have hall := hs.items
  have hlast := hs.entitiesLast
  rw [hitems] at hall hlast
  obtain ⟨hcomplete, he⟩ := List.forall_mem_append.1 hall
  refine ⟨List.forall_mem_append.2 ⟨hcomplete, List.forall_mem_singleton.2 ?_⟩,
    hlast.replace rfl, fun h ↦ by cases h⟩
  exact Entity.Produced.extend (he _ List.mem_cons_self) hm stop

/-- With a line the stage stays well formed, unless the line is the blank end of the text. -/
theorem step_produced (h : Linewise (line :: rest)) {place : Span → Span}
    (hstep : s.step options place line = some s') (hs : s.Produced options.markedNames) :
    s'.Produced options.markedNames ∨
      options.trailingBlank ∧ line ≠ [] ∧ line.all isHorizontalSpace ∧
        s' = s.push (.blank ⟨String.ofList line, place (wholeSpan line)⟩) := by
  rcases step_inversion hstep with ⟨e, m, ho, hm, rfl⟩ | ⟨e, he, rfl⟩ | ⟨ho, l, hl, rfl⟩ |
    ⟨ho, l, hl, rfl⟩ | hblank
  · obtain ⟨t, ht⟩ := ok_of_readAlone hm
    exact .inl (hs.member ho ((Member.produced_of_ok ht).mapSpan place) _)
  · rw [Entity.readAlone_eq_head h] at he
    obtain ⟨d, hd⟩ := Reader.ok_of_value? he
    exact .inl (hs.start ((Entity.head_produced _ hd).mapSpan place))
  · rw [readAlone_ofReader] at hl
    obtain ⟨d, hd⟩ := Reader.ok_of_value? hl
    have hline : Item.Produced options.markedNames (.blank l) := BlankLine.reader_returns _ _ _ hd
    exact .inl (hs.push ho (hline.mapSpan place) rfl)
  · rw [readAlone_ofReader] at hl
    obtain ⟨d, hd⟩ := Reader.ok_of_value? hl
    have hline : Item.Produced options.markedNames (.comment l) :=
      CommentLine.reader_returns _ _ _ hd
    exact .inl (hs.push ho (hline.mapSpan place) rfl)
  · exact .inr hblank

theorem run_produced {place : Position → Span → Span} {p : Position} {ls : List (List Char)}
    (h : Linewise ls) (hrun : run options place p ls s = some s')
    (hs : s.Produced options.markedNames) :
    s'.Produced options.markedNames ∨ options.trailingBlank ∧ (¬∀ line ∈ ls, Terminated line) ∧
      ∃ (s₁ : Stage) (line : BlankLine), s₁.Produced options.markedNames ∧ line.Unended ∧
        s' = s₁.push (.blank line) := by
  induction ls generalizing p s with
  | nil =>
    cases hrun
    exact .inl hs
  | cons line rest ih =>
    obtain ⟨s₁, hstep, hrun⟩ := run_cons_eq_some_iff.1 hrun
    rcases step_produced h hstep hs with hs₁ | ⟨htrailing, hne, hall, rfl⟩
    · rcases ih h.2 hrun hs₁ with hs' | ⟨htrailing, hunended, hpush⟩
      · exact .inl hs'
      · exact .inr ⟨htrailing, fun hline ↦ hunended fun l hl ↦ hline l (.tail line hl), hpush⟩
    · -- a blank stretch without a line feed is the last line
      have hnl := newline_of_blank hall
      have hnot : ¬Terminated line := fun ht ↦ hnl ht.newline_mem
      obtain rfl : rest = [] := (h.1.resolve_left hnot).1
      cases hrun
      refine .inr ⟨htrailing, fun hline ↦ hnot (hline line List.mem_cons_self), s, _, hs, ?_, rfl⟩
      constructor
      · rwa [String.toList_ofList]
      · rw [String.toList_ofList]
        exact List.all_eq_true.1 hall

end Stage

/-- What a reading returns is well formed: names, values, comments and blank lines are what they
have to be, lists of names are not empty, and behind an entity there is nothing but entities. A text
that is read as a whole may end in a blank stretch, where the options allow it. -/
theorem Document.trees_well_formed (options : Options) (text : String) (d : Document) :
    (parse options text = .ok d → ∃ items tail, d.items = items ++ tail ∧
      (∀ item ∈ items, item.Produced options.markedNames) ∧ EntitiesLast items ∧
      (tail = [] ∨ options.trailingBlank ∧ ∃ line : BlankLine,
        line.Unended ∧ tail = [.blank line])) ∧
    (Block.parse options text = .ok d →
      (∀ item ∈ d.items, item.Produced options.markedNames) ∧ EntitiesLast d.items) := by
  constructor
  · intro h
    obtain ⟨s, hrun, rfl⟩ := parse_eq_ok_iff.1 h
    rcases Stage.run_produced (lines_linewise _) hrun (Stage.produced_nil _) with
      hs | ⟨htrailing, -, s, line, hs, hline, rfl⟩
    · exact ⟨s.items, [], (List.append_nil _).symm, hs.items, hs.entitiesLast, .inl rfl⟩
    · exact ⟨s.items, [.blank line], Stage.push_items s _, hs.items, hs.entitiesLast,
        .inr ⟨htrailing, line, hline, rfl⟩⟩
  · intro h
    rw [← String.ofList_toList (s := text)] at h
    obtain ⟨pre, opening, body, post, -, -, hended, g, hg, rfl⟩ := Block.document_of_parse h
    obtain ⟨s, hrun, rfl⟩ := parse_eq_ok_iff.1 hg
    rcases Stage.run_produced (lines_linewise _) hrun (Stage.produced_nil _) with
      hs | ⟨-, hunended, -⟩
    · refine ⟨fun item hitem ↦ ?_, hs.entitiesLast.mapSpan _⟩
      obtain ⟨item, hmem, rfl⟩ := List.mem_map.1 hitem
      exact (hs.items item hmem).mapSpan _
    · rw [String.toList_ofList] at hunended
      exact absurd hended.terminated hunended

theorem Document.trees_of_entity : ∃ d e : Document,
    parse default "A\n  b Int\n  " = .ok d ∧ d.items.length = 2 ∧
    (∃ items tail, d.items = items ++ tail ∧ (∀ item ∈ items, item.Produced false) ∧
      (tail = [] ∨ ∃ line : BlankLine, line.Unended ∧ tail = [.blank line])) ∧
    Block.parse default "[persistLowerCase|A\n  b Int\n|]" = .ok e ∧
    (∀ item ∈ e.items, item.Produced false) ∧ EntitiesLast e.items := by
  have hwhole : (match parse default "A\n  b Int\n  " with
      | .ok d => d.items.length
      | .error _ => 0) = 2 := by decide +kernel
  have hblock : (match Block.parse default "[persistLowerCase|A\n  b Int\n|]" with
      | .ok _ => true
      | .error _ => false) = true := by decide +kernel
  split at hwhole
  · next d hd =>
    split at hblock
    · next e he =>
      obtain ⟨items, tail, hitems, hproduced, -, htail⟩ := (trees_well_formed default _ d).1 hd
      refine ⟨d, e, hd, hwhole, ⟨items, tail, hitems, hproduced, htail.imp_right And.right⟩, he, ?_⟩
      exact (trees_well_formed default _ e).2 he
    · cases hblock
  · cases hwhole

end EntityModels
