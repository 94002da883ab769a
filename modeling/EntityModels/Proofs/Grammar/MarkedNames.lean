import EntityModels.Proofs.Grammar.Results
import EntityModels.Proofs.Parsing.FailsWith
import EntityModels.Proofs.Tree.Growth

namespace EntityModels

namespace Options

def unmarked (options : Options) : Options := { options with markedNames := false }

def marked (options : Options) : Options := { options with markedNames := true }

end Options

namespace Reader

variable {α : Type} {r r' : Reader α}

theorem collect_orNone_ok (h : Forward (orNone r)) (c : Cursor) :
    ∃ as d, collect (orNone r) h c = .ok as d := by
  cases hc : collect (orNone r) h c with
  | ok as d => exact ⟨as, d, rfl⟩
  | error e d =>
    have hnever : FailsWith (fun _ ↦ False) (collect (orNone r) h) := .collect h (.orNone r)
    exact (hnever c e d hc).elim

/-- Of two readers the one that reads wherever the other does collects what the other does, and
may go on. -/
theorem collect_orNone_prefix (hread : ∀ c a d, r c = .ok a d → r' c = .ok a d)
    (h : Forward (orNone r)) (h' : Forward (orNone r')) {as : List α} {c d : Cursor}
    (hc : collect (orNone r) h c = .ok as d) :
    ∃ bs e, collect (orNone r') h' c = .ok bs e ∧ as <+: bs := by
  fun_induction collect (orNone r) h c generalizing as d with
  | case1 | case4 => cases hc
  | case2 c e | case5 c a e =>
    cases hc
    obtain ⟨bs, d, hbs⟩ := collect_orNone_ok h' c
    exact ⟨bs, d, hbs, List.nil_prefix⟩
  | case3 c a e hone hlt as e' hmore ih =>
    cases hc
    have hone' : orNone r' c = .ok (some a) e := by
      unfold orNone at hone ⊢
      split at hone
      · next hr =>
        cases hone
        rw [hread c a e hr]
      · cases hone
    obtain ⟨bs, d, hbs, hprefix⟩ := ih hmore
    refine ⟨a :: bs, d, ?_, (List.prefix_cons_inj a).2 hprefix⟩
    rw [collect_apply, hone']
    simp only [if_pos hlt, hbs]

variable {kind : IdentKind} {expected : String} {c d : Cursor}

theorem clauseIdent_marked {a : Ident kind} (h : clauseIdent false kind expected c = .ok a d) :
    clauseIdent true kind expected c = .ok a d := by
  obtain ⟨u, c', hnone, hname⟩ := bind_ok h
  cases hnone
  have hstarts := (ident_ok.1 hname).1.1
  have hmarker {x : Char} (hx : kind.starts x = false) : c.next? ≠ some x := by
    intro hn
    rw [hn, Option.any_some, hx] at hstarts
    cases hstarts
  rw [clauseIdent, bind_apply, strayMarker_of_unmarked (hmarker (by cases kind <;> decide))
    (hmarker (by cases kind <;> decide))]
  exact hname

theorem listedIdent_marked {a : Ident kind} (h : listedIdent false kind expected c = .ok a d) :
    listedIdent true kind expected c = .ok a d := by
  obtain ⟨u, c', hspace, hname⟩ := bind_ok h
  rw [listedIdent, bind_apply, hspace]
  exact clauseIdent_marked hname

theorem names_marked {as : List (Ident kind)} (h : names false kind expected c = .ok as d) :
    ∃ bs e, names true kind expected c = .ok bs e ∧ as <+: bs := by
  obtain ⟨a, c', hfirst, hmore⟩ := bind_ok h
  obtain ⟨more, c'', hcollect, hlist⟩ := bind_ok hmore
  cases hlist
  obtain ⟨bs, e, hbs, hprefix⟩ := collect_orNone_prefix (fun _ _ _ ↦ listedIdent_marked)
    _ (listedIdent_forward true kind expected).orNone hcollect
  refine ⟨a :: bs, e, ?_, (List.prefix_cons_inj a).2 hprefix⟩
  simp only [names, bind_apply, listedIdent_marked hfirst, hbs]
  rfl

theorem namesThenEnd_marked {β : Type} {node : List (Ident kind) → Position → β} {b : β}
    (h : namesThenEnd false kind expected node c = .ok b d) :
    ∃ as p bs q, b = node as p ∧ namesThenEnd true kind expected node c = .ok (node bs q) d ∧
      as <+: bs := by
  have hnext {marked : Bool} {as : List (Ident kind)} {e : Cursor}
      (hr : names marked kind expected c = .ok as e) : e.nextLine = c.nextLine :=
    ((@names_inLine .alone marked kind expected).leads c as e hr).nextLine_eq
  obtain ⟨as, c₁, hnames, hend⟩ := bind_ok h
  simp only [bind_apply, position, finishLine_apply] at hend
  cases hend
  obtain ⟨bs, c₂, hbs, hprefix⟩ := names_marked hnames
  refine ⟨as, c₁.position, bs, c₂.position, rfl, ?_, hprefix⟩
  rw [hnext hnames, ← hnext hbs]
  simp only [namesThenEnd, bind_apply, hbs, position, finishLine_apply]
  rfl

end Reader

section

variable {c d : Cursor}

theorem Derive.reader_marked {a : Derive} (h : reader false c = .ok a d) :
    ∃ b, reader true c = .ok b d ∧ Member.GrowsTo (.derive a) (.derive b) := by
  obtain ⟨hs, rest, hrest, hk⟩ := Reader.indented_keyword_ok.1 h
  obtain ⟨as, p, bs, q, rfl, hread, hprefix⟩ := Reader.namesThenEnd_marked hk
  exact ⟨_, Reader.indented_keyword_ok.2 ⟨hs, rest, hrest, hread⟩, .derive hprefix rfl⟩

theorem Primary.reader_marked {a : Primary} (h : reader false c = .ok a d) :
    ∃ b, reader true c = .ok b d ∧ Member.GrowsTo (.primary a) (.primary b) := by
  obtain ⟨hs, rest, hrest, hk⟩ := Reader.indented_keyword_ok.1 h
  obtain ⟨as, p, bs, q, rfl, hread, hprefix⟩ := Reader.namesThenEnd_marked hk
  exact ⟨_, Reader.indented_keyword_ok.2 ⟨hs, rest, hrest, hread⟩, .primary hprefix rfl⟩

theorem Foreign.reader_marked {a : Foreign} (h : reader false c = .ok a d) :
    ∃ b, reader true c = .ok b d ∧ Member.GrowsTo (.foreign a) (.foreign b) := by
  obtain ⟨hs, rest, hrest, hk⟩ := Reader.indented_keyword_ok.1 h
  obtain ⟨u, c₁, hspace, htarget⟩ := bind_ok hk
  obtain ⟨target, c₂, hname, hk⟩ := bind_ok htarget
  obtain ⟨as, p, bs, q, rfl, hread, hprefix⟩ := Reader.namesThenEnd_marked hk
  have hname' := Reader.clauseIdent_marked hname
  exact ⟨_, Reader.indented_keyword_ok.2 ⟨hs, rest, hrest,
    (bind_of_ok hspace _).trans ((bind_of_ok hname' _).trans hread)⟩, .foreign rfl hprefix rfl⟩

theorem Unique.reader_marked {a : Unique} (h : reader false c = .ok a d) :
    ∃ b, reader true c = .ok b d ∧ Member.GrowsTo (.unique a) (.unique b) := by
  obtain ⟨hs, hk⟩ := Reader.indented_ok.1 h
  obtain ⟨name, c₁, hname, hk⟩ := bind_ok hk
  obtain ⟨as, p, bs, q, rfl, hread, hprefix⟩ := Reader.namesThenEnd_marked hk
  have hname' := Reader.clauseIdent_marked hname
  exact ⟨_, Reader.indented_ok.2 ⟨hs, (bind_of_ok hname' _).trans hread⟩, .unique rfl hprefix rfl⟩

/-- A constraint that is a primary key where markers are allowed is one where they are not. -/
theorem Primary.reader_unmarked {a : Primary} {b : Unique} {d' : Cursor}
    (ha : reader true c = .ok a d) (hb : Unique.reader false c = .ok b d') :
    ∃ key, reader false c = .ok key d' := by
  obtain ⟨rest, -, hrest, hspace⟩ := opens_of_ok ha
  obtain ⟨hs, hk⟩ := Reader.indented_ok.1 hb
  obtain ⟨name, c₁, hname, hnames⟩ := bind_ok hk
  -- the word of the key is the name of the constraint
  have hword :=
    Reader.clauseIdent_word (by decide) (by decide) hrest hspace false "constraint name"
  cases hname.symm.trans hword
  obtain ⟨as, c₂, -, hend⟩ := bind_ok hnames
  simp only [bind_apply, Reader.position, Reader.finishLine_apply] at hend
  cases hend
  exact ok_of_unique hb rfl

end

variable {options : Options} {c d : Cursor} {m : Member}

theorem MemberKind.clause_marked {α : Type} {r r' : Reader α} {node : α → Member}
    (hr : ∀ a, r c = .ok a d → ∃ b, r' c = .ok b d ∧ (node a).GrowsTo (node b))
    (h : (r >>= fun a ↦ pure (node a)) c = .ok m d) :
    ∃ n, (r' >>= fun b ↦ pure (node b)) c = .ok n d ∧ m.GrowsTo n := by
  obtain ⟨a, d', ha, hm⟩ := bind_ok h
  cases hm
  obtain ⟨b, hb, hgrows⟩ := hr a ha
  exact ⟨node b, bind_of_ok hb _, hgrows⟩

theorem MemberKind.reader_marked {kind : MemberKind}
    (h : kind.reader options.unmarked c = .ok m d) :
    ∃ n, kind.reader options.marked c = .ok n d ∧ m.GrowsTo n := by
  cases kind with
  | field | blank | comment => exact ⟨m, h, .same m⟩
  | derive => exact clause_marked (fun _ ↦ Derive.reader_marked) h
  | primary => exact clause_marked (fun _ ↦ Primary.reader_marked) h
  | foreign => exact clause_marked (fun _ ↦ Foreign.reader_marked) h
  | unique => exact clause_marked (fun _ ↦ Unique.reader_marked) h

/-- No kind that comes before the one which reads a line without markers reads it with them. -/
theorem MemberKind.reader_before_marked {before after : List MemberKind} {kind other : MemberKind}
    (hall : all = before ++ kind :: after) (hother : other ∈ before)
    (hnone : ∀ m d, other.reader options.unmarked c ≠ .ok m d)
    (h : kind.reader options.unmarked c = .ok m d) {n : Member} {e : Cursor} :
    other.reader options.marked c ≠ .ok n e := by
  intro hn
  obtain ⟨m', hm', -⟩ := reader_marked h
  rcases eq_of_ok hm' hn with rfl | ⟨rfl, rfl⟩ | ⟨rfl, rfl⟩
  · exact hnone m d h
  · have hnodup : (before ++ primary :: after).Nodup := by
      rw [← hall]
      decide
    have horder : [primary, unique].Sublist (before ++ primary :: after) := by
      rw [← hall]
      decide
    exact not_mem_before hnodup horder hother
  · obtain ⟨a, e', ha, -⟩ := bind_ok hn
    obtain ⟨b, d', hb, -⟩ := bind_ok h
    obtain ⟨key, hkey⟩ := Primary.reader_unmarked ha hb
    exact hnone _ _ (bind_of_ok hkey _)

theorem Member.readAlone_marked {line : List Char}
    (h : readAlone (parser options.unmarked) line = some m) :
    ∃ n, readAlone (parser options.marked) line = some n ∧ m.GrowsTo n := by
  rw [readAlone_eq] at h
  obtain ⟨before, kind, after, hall, hkind, hbefore⟩ := List.findSome?_eq_some_iff.1 h
  obtain ⟨d, hread⟩ := Reader.ok_of_value? hkind
  obtain ⟨n, hn, hgrows⟩ := MemberKind.reader_marked hread
  refine ⟨n, ?_, hgrows⟩
  rw [readAlone_eq]
  refine List.findSome?_eq_some_iff.2 ⟨before, kind, after, hall, Reader.value?_of_ok hn, ?_⟩
  intro other hother
  rw [Option.eq_none_iff_forall_ne_some]
  intro n' hn'
  obtain ⟨e, hread'⟩ := Reader.ok_of_value? hn'
  refine MemberKind.reader_before_marked hall hother (fun m' d' hm' ↦ ?_) hread hread'
  have hvalue := hbefore other hother
  rw [Reader.value?_of_ok hm'] at hvalue
  cases hvalue

theorem Member.indented_of_marked {line : List Char}
    (hnone : readAlone (parser options.unmarked) line = none)
    (h : readAlone (parser options.marked) line = some m) : line.head?.any isHorizontalSpace := by
  rw [readAlone_eq] at hnone h
  obtain ⟨kind, hkind, hvalue⟩ := List.exists_of_findSome?_eq_some h
  have hunmarked := List.findSome?_eq_none_iff.1 hnone kind hkind
  obtain ⟨d, hread⟩ := Reader.ok_of_value? hvalue
  have hsame (hr : kind.reader options.marked = kind.reader options.unmarked) : False := by
    rw [← hr, hvalue] at hunmarked
    cases hunmarked
  cases kind with
  | field | blank | comment => exact (hsame rfl).elim
  | derive =>
    obtain ⟨a, d', ha, -⟩ := bind_ok hread
    obtain ⟨rest, hspace, -⟩ := Derive.opens_of_ok ha
    exact hspace
  | primary =>
    obtain ⟨a, d', ha, -⟩ := bind_ok hread
    obtain ⟨rest, hspace, -⟩ := Primary.opens_of_ok ha
    exact hspace
  | foreign =>
    obtain ⟨a, d', ha, -⟩ := bind_ok hread
    obtain ⟨rest, ⟨hspace, -⟩, -⟩ := Foreign.opens_of_ok ha
    exact hspace
  | unique =>
    obtain ⟨a, d', ha, -⟩ := bind_ok hread
    exact (Unique.opens_of_ok ha).1

end EntityModels
