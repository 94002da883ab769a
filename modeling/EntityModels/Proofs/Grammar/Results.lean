import EntityModels.Proofs.Grammar.BadFields
import EntityModels.Proofs.Grammar.Lookahead
import EntityModels.Proofs.Grammar.Reordering
import EntityModels.Proofs.Parsing.Returns
import EntityModels.Proofs.Tree.Produced

namespace EntityModels

namespace Reader

variable {kind : IdentKind}

theorem ident_returns (kind : IdentKind) (expected : String) :
    Returns (fun name ↦ kind.Names name.text) (ident kind expected) :=
  fun _ _ _ h ↦ (written_of_ident h).2.2.1

theorem clauseIdent_returns (marked : Bool) (kind : IdentKind) (expected : String) :
    Returns (fun name ↦ kind.Names name.text) (clauseIdent marked kind expected) :=
  .bind fun _ ↦ ident_returns kind expected

theorem names_returns (marked : Bool) (kind : IdentKind) (expected : String) :
    Returns IdentKind.NamesAll (names marked kind expected) := by
  have hlisted : Returns (fun name ↦ kind.Names name.text) (listedIdent marked kind expected) :=
    .bind fun _ ↦ clauseIdent_returns marked kind expected
  refine .andThen hlisted fun name hname ↦ .andThen (.collect (.orNone hlisted)) fun more hmore ↦ ?_
  exact .pure ⟨List.cons_ne_nil _ _, List.forall_mem_cons.2 ⟨hname, hmore⟩⟩

theorem namesThenEnd_returns {α : Type} {P : α → Prop} {kind : IdentKind}
    {node : List (Ident kind) → Position → α}
    (hnode : ∀ as stop, IdentKind.NamesAll as → P (node as stop)) (marked : Bool)
    (expected : String) : Returns P (namesThenEnd marked kind expected node) :=
  .andThen (names_returns marked kind expected) fun _ hnames ↦
    .bind fun _ ↦ .bind fun _ ↦ .pure (hnode _ _ hnames)

theorem token_returns : Returns (fun token ↦ ∀ text ∈ token,
    text ≠ [] ∧ ∀ c ∈ text, isIdentChar c) token := by
  refine .andThen (.takeWhile _) fun text htext ↦ .pure ?_
  rintro word hword
  split at hword
  · cases hword
  · next hne =>
    cases hword
    exact ⟨fun hnil ↦ hne (hnil ▸ rfl), htext⟩

end Reader

theorem FieldType.reader_returns :
    Reader.Returns (fun type ↦ IdentKind.type.Names type.typeName.text) reader :=
  .bind fun _ ↦ .bind fun _ ↦ .bind fun _ ↦
    .andThen (.committedIf (Reader.ident_returns _ _)) fun _ hname ↦
      .bind fun _ ↦ .bind fun _ ↦ .bind fun _ ↦ .pure hname

section

variable {K V : Type} {P : K → V → Prop} {read : K → Reader (Option V)}

theorem Reader.firstKind_returns (h : ∀ k, Returns (fun found ↦ ∀ v ∈ found, P k v) (read k))
    (kinds : List K) : Returns (fun found ↦ ∀ x ∈ found, P x.1 x.2) (firstKind read kinds) := by
  induction kinds with
  | nil => exact .pure (by simp)
  | cons k kinds ih =>
    refine .andThen (.rewindUnless (h k)) fun found hk ↦ ?_
    cases found with
    | some v => exact .pure (by simpa using hk)
    | none =>
      refine .andThen ih fun found hmore ↦ .pure fun x hx ↦ ?_
      obtain ⟨⟨m, v⟩, hm, rfl⟩ := Option.map_eq_some_iff.1 hx
      exact hmore (m, v) hm

theorem Reader.modifiers_returns [DecidableEq K]
    (h : ∀ k, Returns (fun found ↦ ∀ v ∈ found, P k v) (read k)) (kinds : List K) :
    Returns (fun given ↦ ∀ g ∈ given, P g.1 g.2) (modifiers read kinds) := by
  induction hn : kinds.length using Nat.strongRecOn generalizing kinds with
  | ind n ih =>
    rw [modifiers]
    have hfound : Returns (fun found ↦ ∀ x ∈ found, P x.1 x.2)
        (rewindUnless Option.isSome do
          if ← someSpace then firstKind read kinds else return none) :=
      .rewindUnless <| .bind fun _ ↦ .ite (fun _ ↦ firstKind_returns h kinds)
        fun _ ↦ .pure (by simp)
    refine .andThen hfound fun found hx ↦ ?_
    obtain _ | ⟨⟨k, hk⟩, v⟩ := found
    · exact .pure (List.forall_mem_nil _)
    · refine .andThen (ih _ (hn ▸ length_erase_lt hk) (kinds.erase k) rfl) fun given hgiven ↦ ?_
      exact .pure (List.forall_mem_cons.2 ⟨hx _ rfl, hgiven⟩)

end

namespace Setting

variable {setting : Setting}

theorem admits_of_value? {text : List Char} {value : Value} (h : setting.value? text = some value)
    (hne : text ≠ []) (hword : ∀ c ∈ text, isIdentChar c) : setting.Admits value := by
  have hwritable : Writable (String.ofList text) := by
    constructor
    · rwa [String.toList_ofList]
    · rwa [String.toList_ofList]
  cases setting with
  | default | sql | sqlType =>
    cases h
    exact hwritable
  | maxLen =>
    obtain ⟨n, hn, rfl⟩ := Option.map_eq_some_iff.1 h
    unfold integer? at hn
    split at hn
    · next hdigits =>
      cases hn
      simp only [Bool.and_eq_true, decide_eq_true_eq] at hdigits
      exact Nat.lt_succ_of_le hdigits.2
    · cases hn

theorem reader_returns (setting : Setting) :
    Reader.Returns (fun found ↦ ∀ value ∈ found, setting.Admits value) setting.reader := by
  have hnone : Reader.Returns (fun found ↦ ∀ value ∈ found, setting.Admits value)
      (pure none) := .pure (by simp)
  have hassigned : Reader.Returns (fun found ↦ ∀ value ∈ found, setting.Admits value)
      setting.assigned := by
    refine .bind fun start ↦ .andThen Reader.token_returns fun token htoken ↦ ?_
    cases token with
    | none => exact hnone
    | some text =>
      obtain ⟨hne, hword⟩ := htoken text rfl
      dsimp only
      split
      · next value hvalue =>
        refine .pure ?_
        rintro _ ⟨⟩
        exact admits_of_value? hvalue hne hword
      · intro c found d hr
        cases hr
  rw [reader_eq]
  exact .bind fun _ ↦ .ite (fun _ ↦ .bind fun _ ↦ .bind fun _ ↦
    .ite (fun _ ↦ .bind fun _ ↦ hassigned) fun _ ↦ hnone) fun _ ↦ hnone

theorem admits_of_lookup {given : List (Setting × Value)} (h : ∀ g ∈ given, g.1.Admits g.2)
    {value : Value} (hv : given.lookup setting = some value) : setting.Admits value := by
  obtain ⟨before, after, rfl, -⟩ := List.lookup_eq_some_iff.1 hv
  exact h (setting, value) (List.mem_append_right before List.mem_cons_self)

theorem writable_of_lookup {given : List (Setting × Value)} (h : ∀ g ∈ given, g.1.Admits g.2)
    (hs : setting ≠ maxLen) :
    ∀ text ∈ (given.lookup setting).bind Value.text?, Writable text := by
  intro text ht
  obtain ⟨value, hv, htext⟩ := Option.bind_eq_some_iff.1 ht
  have hadmits := admits_of_lookup h hv
  cases value with
  | integer n => cases htext
  | text t =>
    cases htext
    cases setting with
    | default | sql | sqlType => exact hadmits
    | maxLen => exact absurd rfl hs

end Setting

theorem Field.reader_returns : Reader.Returns WellFormed reader := by
  refine .bind fun _ ↦ .bind fun _ ↦ .andThen (Reader.ident_returns _ _) fun name hname ↦
    .bind fun _ ↦ .andThen FieldType.reader_returns fun type htype ↦ .bind fun flags ↦
      .andThen (Reader.modifiers_returns Setting.reader_returns _) fun given hgiven ↦
        .bind fun _ ↦ .bind fun _ ↦ .pure ?_
  refine ⟨hname, htype, Setting.writable_of_lookup hgiven (by decide),
    Setting.writable_of_lookup hgiven (by decide), Setting.writable_of_lookup hgiven (by decide),
    fun n hn ↦ ?_⟩
  obtain ⟨value, hv, hinteger⟩ := Option.bind_eq_some_iff.1 hn
  have hadmits := Setting.admits_of_lookup hgiven hv
  cases value with
  | text t => cases hinteger
  | integer m =>
    cases hinteger
    exact hadmits

theorem Derive.reader_returns (marked : Bool) :
    Reader.Returns (fun clause ↦ IdentKind.NamesAll clause.classNames) (reader marked) :=
  .bind fun _ ↦ .bind fun _ ↦ .bind fun _ ↦
    Reader.namesThenEnd_returns (fun _ _ hnames ↦ by exact hnames) marked _

theorem Primary.reader_returns (marked : Bool) :
    Reader.Returns (fun clause ↦ IdentKind.NamesAll clause.fieldNames) (reader marked) :=
  .bind fun _ ↦ .bind fun _ ↦ .bind fun _ ↦
    Reader.namesThenEnd_returns (fun _ _ hnames ↦ by exact hnames) marked _

theorem Foreign.reader_returns (marked : Bool) :
    Reader.Returns (fun clause ↦ IdentKind.type.Names clause.target.text ∧
      IdentKind.NamesAll clause.fieldNames) (reader marked) :=
  .bind fun _ ↦ .bind fun _ ↦ .bind fun _ ↦ .bind fun _ ↦
    .andThen (Reader.clauseIdent_returns _ _ _) fun _ htarget ↦
      Reader.namesThenEnd_returns (fun _ _ hnames ↦ ⟨htarget, hnames⟩) marked _

theorem Unique.reader_returns (marked : Bool) :
    Reader.Returns (fun clause ↦ IdentKind.type.Names clause.name.text ∧
      IdentKind.NamesAll clause.fieldNames) (reader marked) :=
  .bind fun _ ↦ .bind fun _ ↦ .andThen (Reader.clauseIdent_returns _ _ _) fun _ hname ↦
    Reader.namesThenEnd_returns (fun _ _ hnames ↦ ⟨hname, hnames⟩) marked _

theorem BlankLine.reader_returns : Reader.Returns WellFormed reader := by
  refine .bind fun _ ↦ .andThen (.takeWhile _) fun blanks hblanks ↦ .bind fun next ↦ ?_
  split
  · exact .bind fun _ ↦ .bind fun _ ↦ .pure ⟨blanks, hblanks, String.toList_ofList⟩
  · exact .unterminated

theorem CommentLine.reader_returns : Reader.Returns Produced reader := by
  refine .bind fun _ ↦ .andThen (.takeWhile _) fun blanks hblanks ↦ .bind fun _ ↦
    .andThen (.takeWhile _) fun body hbody ↦ .bind fun next ↦ .ite (fun _ ↦ .unterminated) fun _ ↦
      .bind fun _ ↦ .bind fun _ ↦ .pure ?_
  refine WellFormed.produced ⟨blanks, body, hblanks, fun h ↦ absurd (hbody _ h) (by decide), ?_⟩
  rw [String.toList_ofList]
  simp only [List.append_assoc]

theorem Entity.header_returns : Reader.Returns (fun header ↦
    IdentKind.type.Names header.name.text ∧
      ∀ text ∈ header.sqlTableName, Setting.Writable text) header := by
  have htable : Reader.Returns (fun table ↦ ∀ text ∈ table, Setting.Writable text) sqlTable := by
    have hnone : Reader.Returns (fun table ↦ ∀ text ∈ table, Setting.Writable text)
        (pure none) := .pure (by simp)
    refine .rewindUnless <| .bind fun _ ↦ .bind fun _ ↦ .ite (fun _ ↦ .bind fun _ ↦ .bind fun _ ↦
      .ite (fun _ ↦ .bind fun _ ↦ .andThen Reader.token_returns fun token htoken ↦ ?_)
        fun _ ↦ hnone) fun _ ↦ hnone
    refine .pure fun text ht ↦ ?_
    obtain ⟨word, hword, rfl⟩ := Option.map_eq_some_iff.1 ht
    obtain ⟨hne, hchars⟩ := htoken word hword
    constructor
    · rwa [String.toList_ofList]
    · rwa [String.toList_ofList]
  exact .andThen (Reader.ident_returns _ _) fun _ hname ↦ .bind fun _ ↦
    .andThen htable fun _ htext ↦ .bind fun _ ↦ .pure ⟨hname, htext⟩

section

variable {options : Options} {c d : Cursor} {m : Member}

/-- A constraint with the name of a primary key is one, if no marker was read in front of the
name. -/
theorem Primary.ok_of_unique {clause : Unique} (h : Unique.reader false c = .ok clause d)
    (hname : clause.name.text = Keyword.primary) : ∃ key, Primary.reader false c = .ok key d := by
  have hposition (b : Cursor) : Reader.position b = .ok b.position b := rfl
  obtain ⟨hs, hk⟩ := Reader.indented_ok.1 h
  obtain ⟨name, c₁, hi, hfields⟩ := bind_ok hk
  obtain ⟨names, c₂, hnames, hstop⟩ := bind_ok hfields
  obtain ⟨stop, c₃, h₃, hfinish⟩ := bind_ok hstop
  obtain ⟨u, c₄, h₄, hnode⟩ := bind_ok hfinish
  cases h₃
  cases hnode
  have hident : Reader.ident .type "constraint name" (c.skip isHorizontalSpace) = .ok name c₁ := hi
  obtain ⟨hrest, hc₁, -⟩ := Reader.written_of_ident hident
  rw [hname] at hrest hc₁
  rw [hc₁] at hnames
  let inner := c.skip isHorizontalSpace
  refine ⟨⟨names, inner.position.spanTo c₂.position⟩,
    Reader.indented_keyword_ok.2 ⟨hs, c₁.rest, hrest, ?_⟩⟩
  have hfields : Reader.names false .field "field name" _ = .ok names c₂ := hnames
  simp only [Reader.fieldNames, bind_apply, hfields, hposition, h₄]
  rfl

theorem MemberKind.settled_of_ok {kind : MemberKind} (h : kind.reader options c = .ok m d) :
    kind.settled options c = some (.ok (m, d)) := by
  rw [settled, Reader.settled, if_pos (mayStart_of_ok h), h]

theorem MemberKind.primary_of_unique {clause : Unique}
    (h : Unique.reader false c = .ok clause d) (hname : clause.name.text = Keyword.primary)
    (hmarked : options.markedNames = false) :
    ∃ key, all.findSome? (settled options c) = some (.ok (.primary key, d)) := by
  obtain ⟨key, hkey⟩ := Primary.ok_of_unique h hname
  have hprimary : primary.reader options c = .ok (.primary key) d := by
    rw [reader, hmarked, bind_apply, hkey]
    rfl
  exact ⟨key, findSome?_settled (by decide) (by decide) (by decide) (fun h ↦ by cases h)
    (settled_of_ok hprimary)⟩

theorem Member.settled_of_ok {s t : ParserState} (h : parser options s = .ok m t) :
    MemberKind.all.findSome? (MemberKind.settled options s.cursor) =
      some (.ok (m, t.cursor)) := by
  have houtcome := parserOf_outcome options MemberKind.all s
  have hparser : (parserOf MemberKind.all options).outcome s = .ok (m, t.cursor) := by
    change (parser options).outcome s = _
    rw [Parser.outcome, h]
  rw [hparser] at houtcome
  cases hfind : MemberKind.all.findSome? (MemberKind.settled options s.cursor) with
  | some found =>
    rw [hfind] at houtcome
    exact congrArg some houtcome.symm
  | none =>
    rw [hfind] at houtcome
    cases houtcome

theorem Member.refused_of_error {s t : ParserState} {e : Failure}
    (h : parser options s = .error e t) {kind : MemberKind} (hkind : kind ∈ MemberKind.all) :
    kind.reader options s.cursor ≠ .ok m d := by
  intro hread
  have houtcome := parserOf_outcome options MemberKind.all s
  have hparser : (parserOf MemberKind.all options).outcome s = .error e :=
    Parser.outcome_eq_error_iff.2 ⟨t, h⟩
  have hsettled := MemberKind.settled_of_ok hread
  rw [hparser] at houtcome
  cases hfind : MemberKind.all.findSome? (MemberKind.settled options s.cursor) with
  | none =>
    rw [List.findSome?_eq_none_iff.1 hfind kind hkind] at hsettled
    cases hsettled
  | some found =>
    rw [hfind] at houtcome
    obtain rfl : Except.error e = found := houtcome
    obtain ⟨meant, -, hmeant⟩ := List.exists_of_findSome?_eq_some hfind
    obtain ⟨rfl, he, d', hr⟩ := MemberKind.settled_error_iff.1 hmeant
    obtain rfl := MemberKind.eq_field_of_named (Field.named_of_fatal hr he) hread
    obtain ⟨f, u, hf, -⟩ := bind_ok hread
    cases hr.symm.trans hf

/-- What is read from a line as a member is what the first kind reads from it that can. -/
theorem Member.readAlone_eq (options : Options) (line : List Char) :
    readAlone (parser options) line =
      MemberKind.all.findSome? fun kind ↦ (kind.reader options).value? (.ofText line) := by
  rw [readAlone]
  cases hp : parser options (.ofText line) with
  | ok m t =>
    obtain ⟨before, kind, after, hall, hkind, hbefore⟩ :=
      List.findSome?_eq_some_iff.1 (settled_of_ok hp)
    symm
    refine List.findSome?_eq_some_iff.2
      ⟨before, kind, after, hall, Reader.value?_of_ok (MemberKind.settled_ok hkind), ?_⟩
    intro other hother
    rw [Option.eq_none_iff_forall_ne_some]
    intro n hn
    obtain ⟨d, hread⟩ := Reader.ok_of_value? hn
    cases (hbefore other hother).symm.trans (MemberKind.settled_of_ok hread)
  | error e t =>
    symm
    refine List.findSome?_eq_none_iff.2 fun kind hkind ↦ ?_
    rw [Option.eq_none_iff_forall_ne_some]
    intro m hm
    obtain ⟨d, hread⟩ := Reader.ok_of_value? hm
    exact refused_of_error hp hkind hread

theorem Member.produced_of_ok {s t : ParserState} (h : parser options s = .ok m t) :
    m.Produced options.markedNames := by
  have hsettled := settled_of_ok h
  obtain ⟨kind, -, hkind⟩ := List.exists_of_findSome?_eq_some hsettled
  have hread := MemberKind.settled_ok hkind
  cases kind with
  | field =>
    obtain ⟨node, d, hr, hm⟩ := bind_ok hread
    cases hm
    exact Field.reader_returns _ _ _ hr
  | derive =>
    obtain ⟨node, d, hr, hm⟩ := bind_ok hread
    cases hm
    exact Derive.reader_returns _ _ _ _ hr
  | primary =>
    obtain ⟨node, d, hr, hm⟩ := bind_ok hread
    cases hm
    exact Primary.reader_returns _ _ _ _ hr
  | foreign =>
    obtain ⟨node, d, hr, hm⟩ := bind_ok hread
    cases hm
    exact Foreign.reader_returns _ _ _ _ hr
  | unique =>
    obtain ⟨node, d, hr, hm⟩ := bind_ok hread
    cases hm
    obtain ⟨hname, hnames⟩ := Unique.reader_returns _ _ _ _ hr
    refine ⟨hname, fun hmarked hprimary ↦ ?_, hnames⟩
    rw [hmarked] at hr
    obtain ⟨key, hkey⟩ := MemberKind.primary_of_unique hr hprimary hmarked
    cases hkey.symm.trans hsettled
  | blank =>
    obtain ⟨node, d, hr, hm⟩ := bind_ok hread
    cases hm
    exact BlankLine.reader_returns _ _ _ hr
  | comment =>
    obtain ⟨node, d, hr, hm⟩ := bind_ok hread
    cases hm
    exact CommentLine.reader_returns _ _ _ hr

theorem Entity.head_produced {e : Entity} (marked : Bool) (h : head c = .ok e d) :
    e.Produced marked := by
  obtain ⟨start, c₁, h₁, hheader⟩ := bind_ok h
  obtain ⟨header, c₂, h₂, hstop⟩ := bind_ok hheader
  obtain ⟨stop, c₃, h₃, hnode⟩ := bind_ok hstop
  cases hnode
  obtain ⟨hname, htable⟩ := header_returns _ _ _ h₂
  exact ⟨hname, htable, List.forall_mem_nil _⟩

end

end EntityModels
