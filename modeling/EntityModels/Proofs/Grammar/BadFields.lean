import EntityModels.Proofs.Grammar.ModifierRuns
import EntityModels.Proofs.Grammar.TypeSyntax

namespace EntityModels

theorem Reader.reads_noToken {text : List Char} (h : text.head?.any isIdentChar = false) :
    token.Reads text (· = none) text :=
  (@reads_takeWhile [] text _ (by simp) h).bindEq (.pure rfl)

namespace Setting

variable {setting other : Setting} {text token rest : List Char} {c d : Cursor} {e : Failure}

/-- The word of the setting, an equals sign and a token, which is as long as it can be. -/
def Assigns (setting : Setting) (text token rest : List Char) : Prop :=
  ∃ before after, text = setting.keyword.toList ++ (before ++ '=' :: (after ++ (token ++ rest))) ∧
    (∀ x ∈ before, isHorizontalSpace x) ∧ (∀ x ∈ after, isHorizontalSpace x) ∧ token ≠ [] ∧
      (∀ x ∈ token, isIdentChar x) ∧ rest.head?.any isIdentChar = false

theorem Assigns.unspaced (h : setting.Assigns text token rest) : Unspaced text := by
  obtain ⟨before, after, rfl, -⟩ := h
  exact setting.unspaced _

def front (setting : Setting) (before after : List Char) : List Char :=
  setting.keyword.toList ++ (before ++ '=' :: after)

theorem reader_of_front {before after body : List Char}
    (hbefore : ∀ x ∈ before, isHorizontalSpace x) (hafter : ∀ x ∈ after, isHorizontalSpace x)
    (hbody : Unspaced body) (hc : c.rest = setting.front before after ++ body) :
    setting.reader c = setting.assigned (c.past (setting.front before after) body) := by
  have hequals : Unspaced ('=' :: (after ++ body)) := .of_head (by decide) _
  have hrest : c.rest = setting.keyword.toList ++ (before ++ '=' :: (after ++ body)) := by
    simpa [front] using hc
  let c₁ := c.past setting.keyword.toList (before ++ '=' :: (after ++ body))
  let c₂ := c₁.past before ('=' :: (after ++ body))
  let c₃ := c₂.past ['='] (after ++ body)
  have h₁ : Reader.literal setting.keyword c = .ok true c₁ :=
    (Reader.reads_literal _ _).exactEq (.literal _) hrest
  have h₂ : Reader.space c₁ = .ok before c₂ :=
    (Reader.reads_blanks hbefore hequals).exactEq Reader.space_forward rfl
  have h₃ : Reader.literal "=" c₂ = .ok true c₃ :=
    (Reader.reads_literal "=" _).exactEq (.literal _) rfl
  have h₄ : Reader.space c₃ = .ok after (c₃.past after body) :=
    (Reader.reads_blanks hafter hbody).exactEq Reader.space_forward rfl
  have hend : c₃.past after body = c.past (setting.front before after) body := by
    simp [c₁, c₂, c₃, front, Cursor.past_past]
  rw [reader_eq, ← hend]
  simp [bind_apply, h₁, h₂, h₃, h₄]

theorem assigned_of_token (htoken : ∀ x ∈ token, isIdentChar x)
    (hrest : rest.head?.any isIdentChar = false) (hc : c.rest = token ++ rest) :
    setting.assigned c = if token = [] then .ok none c else
      match setting.value? token with
      | some value => .ok (some value) (c.past token rest)
      | none => .error (.invalidInteger token c.position) (c.past token rest) := by
  obtain ⟨ht, -⟩ := takeWhile_append_stop htoken hrest
  rw [assigned_apply, Cursor.next?, Cursor.skip_eq_past hc htoken hrest, hc, ht]
  cases token with
  | nil =>
    obtain rfl : c.rest = rest := hc
    simp [hrest, Cursor.past]
  | cons x token =>
    cases setting.value? (x :: token) <;> simp [htoken x List.mem_cons_self]

theorem Assigns.outcome (h : setting.Assigns text token rest) (p : Position) :
    ∃ q d, d.rest = rest ∧ setting.reader ⟨text, p⟩ =
      match setting.value? token with
      | some value => .ok (some value) d
      | none => .error (.invalidInteger token q) d := by
  obtain ⟨before, after, rfl, hbefore, hafter, hne, htoken, hrest⟩ := h
  refine ⟨_, _, rfl, (reader_of_front hbefore hafter (unspaced_word hne htoken rest) ?_).trans
    ((assigned_of_token htoken hrest rfl).trans (if_neg hne))⟩
  simp [front]

theorem misses_or_assigns (setting : Setting) (text : List Char) :
    Reader.Misses setting.reader text ∨ ∃ token rest, setting.Assigns text token rest := by
  by_cases hkey : setting.keyword.toList <+: text
  swap
  · exact .inl (misses_of_no_keyword hkey)
  obtain ⟨behind, rfl⟩ := hkey
  obtain ⟨before, body, rfl, hbefore, hbody⟩ := exists_blanks behind
  by_cases hequals : "=".toList <+: body
  swap
  · refine .inl ⟨body, (Reader.reads_literal _ _).bindEq ?_⟩
    refine (Reader.reads_blanks hbefore hbody).bindEq ?_
    exact (Reader.reads_noLiteral hequals).bindEq (.pure rfl)
  obtain ⟨behind, rfl⟩ := hequals
  obtain ⟨after, body, rfl, hafter, hbody'⟩ := exists_blanks behind
  cases htoken : body.head?.any isIdentChar with
  | false =>
    refine .inl ⟨body, (Reader.reads_literal _ _).bindEq ?_⟩
    refine (Reader.reads_blanks hbefore hbody).bindEq ?_
    refine (Reader.reads_literal "=" _).bindEq ?_
    refine (Reader.reads_blanks hafter hbody').bindEq ?_
    refine Reader.Reads.position.bind fun start _ ↦ ?_
    exact (Reader.reads_noToken htoken).bindEq (.pure rfl)
  | true =>
    refine .inr ⟨body.takeWhile isIdentChar, body.dropWhile isIdentChar, before, after, ?_, hbefore,
      hafter, ?_, List.all_eq_true.1 List.all_takeWhile, head_dropWhile_any body⟩
    · rw [List.takeWhile_append_dropWhile]
      rfl
    · exact takeWhile_ne_nil htoken

def Announces (setting : Setting) (text : List Char) : Prop :=
  ∃ before tail, text = setting.keyword.toList ++ (before ++ '=' :: tail) ∧
    ∀ x ∈ before, isHorizontalSpace x

theorem Assigns.announces (h : setting.Assigns text token rest) : setting.Announces text := by
  obtain ⟨before, after, htext, hbefore, -⟩ := h
  exact ⟨before, _, htext, hbefore⟩

theorem not_sql_of_sqlType (h : sqlType.Announces text) (h' : sql.Announces text) : False := by
  obtain ⟨before, tail, rfl, -⟩ := h
  obtain ⟨before', tail', htext, hblanks⟩ := h'
  have hword : sqlType.keyword.toList = sql.keyword.toList ++ ['t', 'y', 'p', 'e'] := by
    decide
  rw [hword, List.append_assoc] at htext
  have hbehind := List.append_cancel_left htext
  cases before' with
  | nil => simp at hbehind
  | cons x before' =>
    obtain rfl : 't' = x := (List.cons.inj hbehind).1
    exact absurd (hblanks 't' List.mem_cons_self) (by decide)

/-- The words of two settings begin alike only where one goes on with a letter, and not with an
equals sign. -/
theorem Announces.unique (h : setting.Announces text) (h' : other.Announces text) :
    other = setting := by
  by_contra hne
  by_cases hs : setting = sqlType ∧ other = sql
  · obtain ⟨rfl, rfl⟩ := hs
    exact not_sql_of_sqlType h h'
  by_cases hs' : setting = sql ∧ other = sqlType
  · obtain ⟨rfl, rfl⟩ := hs'
    exact not_sql_of_sqlType h' h
  obtain ⟨before, tail, rfl, -⟩ := h
  obtain ⟨before', tail', htext, -⟩ := h'
  cases setting <;> cases other <;> simp [keyword] at hne hs hs' htext

theorem Announces.misses (h : setting.Announces text) (hne : other ≠ setting) :
    Reader.Misses other.reader text := by
  refine (misses_or_assigns other text).resolve_right ?_
  rintro ⟨token', rest', h'⟩
  exact hne (h.unique h'.announces)

theorem Assigns.misses (h : setting.Assigns text token rest) (hne : other ≠ setting) :
    Reader.Misses other.reader text := h.announces.misses hne

theorem eq_maxLen_of_value? (h : setting.value? token = none) :
    setting = maxLen ∧ integer? token = none := by
  cases setting with
  | maxLen => exact ⟨rfl, Option.map_eq_none_iff.1 h⟩
  | default | sql | sqlType => cases h

theorem assigns_of_ok {value : Value} (h : setting.reader c = .ok (some value) d) :
    ∃ token, setting.Assigns c.rest token d.rest ∧ setting.value? token = some value := by
  rcases misses_or_assigns setting c.rest with ⟨mid, hmiss⟩ | ⟨token, rest, ha⟩
  · obtain ⟨_, d', hr, rfl, -⟩ := hmiss c.position
    cases h.symm.trans hr
  · obtain ⟨q, d', rfl, hr⟩ := ha.outcome c.position
    have hboth := h.symm.trans hr
    cases hv : setting.value? token with
    | none =>
      rw [hv] at hboth
      cases hboth
    | some value' =>
      rw [hv] at hboth
      cases hboth
      exact ⟨token, ha, hv⟩

theorem assigns_of_error (h : setting.reader c = .error e d) : setting = maxLen ∧
    ∃ token rest p, maxLen.Assigns c.rest token rest ∧ integer? token = none ∧
      e = .invalidInteger token p := by
  rcases misses_or_assigns setting c.rest with ⟨mid, hmiss⟩ | ⟨token, rest, ha⟩
  · obtain ⟨_, d', hr, -⟩ := hmiss c.position
    cases h.symm.trans hr
  · obtain ⟨q, d', rfl, hr⟩ := ha.outcome c.position
    have hboth := h.symm.trans hr
    cases hv : setting.value? token with
    | none =>
      rw [hv] at hboth
      cases hboth
      obtain ⟨rfl, hinteger⟩ := eq_maxLen_of_value? hv
      exact ⟨rfl, token, _, q, ha, hinteger, rfl⟩
    | some value =>
      rw [hv] at hboth
      cases hboth

theorem isGroup : Reader.IsGroup reader all where
  forward := reader_forward
  exclusive c k hk l hl := by
    rcases misses_or_assigns k c.rest with hmiss | ⟨token, rest, ha⟩
    · exact absurd (hmiss.missing c.position) hk
    · exact (ha.misses hl).missing c.position
  nodup := by decide
  complete setting := by cases setting <;> decide

theorem group_eq_error_iff : group c = .error e d ↔
    ∃ given mid, Reader.BindsOnce reader c given mid ∧ maxLen ∉ given.map Modifier.kind ∧
      mid.next?.any isHorizontalSpace ∧
        maxLen.reader (mid.skip isHorizontalSpace) = .error e d := by
  constructor
  · intro h
    obtain ⟨given, mid, k, hbinds, hk, hs, hbad⟩ := isGroup.modifiers_error_iff.1 h
    obtain ⟨rfl, -⟩ := assigns_of_error hbad
    exact ⟨given, mid, hbinds, hk, hs, hbad⟩
  · rintro ⟨given, mid, hbinds, hk, hs, hbad⟩
    exact isGroup.modifiers_error_iff.2 ⟨given, mid, maxLen, hbinds, hk, hs, hbad⟩

/-- Among the settings still to come is a length that is no number, with nothing but other settings
in front of it. -/
inductive MeetsBadLength : List Setting → List Char → Prop where
  | here {kinds gap text token rest} : Gap gap → maxLen ∈ kinds → maxLen.Assigns text token rest →
      integer? token = none → MeetsBadLength kinds (gap ++ text)
  | later {kinds gap text setting token rest} : Gap gap → setting ∈ kinds →
      setting.Assigns text token rest → (setting.value? token).isSome →
      MeetsBadLength (kinds.erase setting) rest → MeetsBadLength kinds (gap ++ text)

theorem MeetsBadLength.stops {kinds : List Setting} (h : MeetsBadLength kinds text) :
    (Reader.modifiers reader kinds).Stops text := by
  induction h with
  | @here kinds gap text token rest hgap hk ha hv =>
    intro p
    obtain ⟨hs, hskip⟩ := @Cursor.behind_gap ⟨gap ++ text, p⟩ gap text rfl hgap ha.unspaced
    obtain ⟨q, d, -, hread⟩ := ha.outcome (p.after gap)
    rw [value?, hv] at hread
    have hbad := (congrArg maxLen.reader hskip).trans hread
    exact ⟨_, d, Reader.modifiers_of_error isGroup.exclusive hk hs hbad, rfl⟩
  | @later kinds gap text setting token rest hgap hk ha hv _ ih =>
    intro p
    obtain ⟨value, hvalue⟩ := Option.isSome_iff_exists.1 hv
    obtain ⟨hs, hskip⟩ := @Cursor.behind_gap ⟨gap ++ text, p⟩ gap text rfl hgap ha.unspaced
    obtain ⟨q, mid, rfl, hread⟩ := ha.outcome (p.after gap)
    rw [hvalue] at hread
    have hfound := (congrArg setting.reader hskip).trans hread
    obtain ⟨m, hm, rfl, -⟩ := Reader.exists_readAt setting.reader_forward hs hfound
    obtain ⟨e, d, hmore, he⟩ := ih mid.position
    refine ⟨e, d, ?_, he⟩
    rw [Reader.modifiers_of_readAt isGroup.exclusive hm hk, map_apply]
    simp [hmore]

theorem MeetsBadLength.of_binds {given : List (Modifier Setting Value)} {kinds : List Setting}
    {mid : Cursor} (hbinds : Reader.Binds reader c given mid)
    (hdistinct : (given.map Modifier.kind).Nodup) (hkinds : ∀ m ∈ given, m.kind ∈ kinds)
    (hk : maxLen ∈ kinds) (hleft : maxLen ∉ given.map Modifier.kind)
    (hs : mid.next?.any isHorizontalSpace)
    (hbad : maxLen.reader (mid.skip isHorizontalSpace) = .error e d) :
    MeetsBadLength kinds c.rest := by
  induction hbinds generalizing kinds with
  | done c =>
    obtain ⟨gap, body, hrest, hgap, hbody⟩ := exists_gap hs
    rw [(Cursor.behind_gap hrest hgap hbody).2] at hbad
    obtain ⟨-, token, rest, -, ha, hinteger, -⟩ := assigns_of_error hbad
    exact hrest ▸ .here hgap hk ha hinteger
  | @more m c mid _ given hm _ ih =>
    obtain ⟨token, ha, hv⟩ := assigns_of_ok hm.read_eq
    have hne : maxLen ≠ m.kind := fun he ↦ hleft (he ▸ List.mem_cons_self)
    have hmore := ih (List.nodup_cons.1 hdistinct).2
      (Reader.mem_erase_of_distinct hdistinct hkinds) ((List.mem_erase_of_ne hne).2 hk)
      (fun hmem ↦ hleft (.tail _ hmem)) hs hbad
    rw [hm.text_eq]
    exact .later hm.gap (hkinds m List.mem_cons_self) ha (Option.isSome_of_eq_some hv) hmore

theorem group_error_iff (c : Cursor) : (∃ e d, group c = .error e d ∧ e.fatal) ↔
    MeetsBadLength all c.rest := by
  constructor
  · rintro ⟨e, d, h, -⟩
    obtain ⟨given, mid, ⟨hbinds, hdistinct⟩, hleft, hs, hbad⟩ := group_eq_error_iff.1 h
    exact .of_binds hbinds hdistinct (fun m _ ↦ isGroup.complete m.kind) (by decide) hleft hs hbad
  · exact fun h ↦ h.stops c.position

end Setting

namespace Field

variable {c d : Cursor}

/-- Behind indentation, the name of a field and some space lies the place of its type. -/
def ReachesType (c d : Cursor) : Prop :=
  ∃ blanks name gap, c.rest = blanks ++ (name.toList ++ (gap ++ d.rest)) ∧
    d.position = c.position.after (blanks ++ (name.toList ++ gap)) ∧ Gap blanks ∧
      IdentKind.field.Names name ∧ Gap gap ∧ Unspaced d.rest

theorem reachesType_iff : ReachesType c d ↔ ∃ c₁ name c₂, Reader.indentation c = .ok () c₁ ∧
    Reader.ident .field "field name" c₁ = .ok name c₂ ∧
      Reader.separator "field type" c₂ = .ok () d := by
  constructor
  · rintro ⟨blanks, name, gap, hrest, hposition, hblanks, hname, hgap, hunspaced⟩
    have hhead : c.next?.any isHorizontalSpace := by
      rw [Cursor.next?, hrest]
      exact hblanks.head_any _
    have hskip := Cursor.skip_eq_past hrest hblanks.2 (hname.unspaced _)
    obtain ⟨a, c₂, hident, rfl, hc₂⟩ :=
      Reader.reads_ident "field name" hname (hgap.endsWord d.rest) (c.position.after blanks)
    obtain ⟨-, hpast, -⟩ := Reader.written_of_ident hident
    have hhead' : c₂.next?.any isHorizontalSpace := by
      rw [Cursor.next?, hc₂]
      exact hgap.head_any _
    refine ⟨_, a, c₂, Reader.expectSpace_ok.2 ⟨hhead, hskip.symm⟩, hident,
      Reader.expectSpace_ok.2 ⟨hhead', ?_⟩⟩
    rw [Cursor.skip_eq_past hc₂ hgap.2 hunspaced, hpast]
    simp only [Cursor.past, ← Position.after_append, List.append_assoc, ← hposition]
  · rintro ⟨c₁, name, c₂, hindent, hident, hsep⟩
    obtain ⟨hhead, rfl⟩ := Reader.expectSpace_ok.1 hindent
    obtain ⟨hwritten, hpast, hname, -⟩ := Reader.written_of_ident hident
    obtain ⟨hhead', rfl⟩ := Reader.expectSpace_ok.1 hsep
    obtain ⟨blanks, body, hrest, hblanks, hbody⟩ := exists_gap hhead
    obtain ⟨gap, text, hrest', hgap, htext⟩ := exists_gap hhead'
    rw [Cursor.skip_eq_past hrest hblanks.2 hbody] at hwritten hpast
    have hbody : body = name.text.toList ++ c₂.rest := hwritten
    rw [Cursor.skip_eq_past hrest' hgap.2 htext]
    refine ⟨blanks, name.text, gap, ?_, ?_, hblanks, hname, hgap, htext⟩
    · rw [hrest, hbody, hrest']
      rfl
    · rw [hpast]
      simp only [Cursor.past, Position.after_append]

/-- A field fails for good at its type, or at a length among its settings. -/
theorem fatal_iff (c : Cursor) : (∃ e d, reader c = .error e d ∧ e.fatal) ↔
    ∃ d, ReachesType c d ∧ ((FieldType.Commits d.rest ∧ ¬FieldType.Grammatical d.rest) ∨
      ∃ type c₁ flags c₂, FieldType.reader d = .ok type c₁ ∧ Flag.group c₁ = .ok flags c₂ ∧
        Setting.MeetsBadLength Setting.all c₂.rest) := by
  have hposition (b : Cursor) : Reader.position b = .ok b.position b := rfl
  constructor
  · rintro ⟨e, u, h, he⟩
    obtain ⟨_, c₁, hindent, hstart⟩ := Mild.bind_fatal (Reader.expectSpace_mild _) h he
    obtain ⟨start, c₁', hs, hname⟩ := Mild.bind_fatal .position hstart he
    cases hs
    obtain ⟨name, c₂, hident, hsep⟩ := Mild.bind_fatal (Reader.ident_mild _ _) hname he
    obtain ⟨_, d, hspace, htype⟩ := Mild.bind_fatal (Reader.expectSpace_mild _) hsep he
    refine ⟨d, reachesType_iff.2 ⟨c₁, name, c₂, hindent, hident, hspace⟩, ?_⟩
    rcases bind_error htype with hbad | ⟨type, c₃, htype, hflags⟩
    · exact .inl ((FieldType.fatal_iff d).1 ⟨e, u, hbad, he⟩)
    obtain ⟨flags, c₄, hflag, hsettings⟩ := Mild.bind_fatal Flag.group_mild hflags he
    rcases bind_error hsettings with hbad | ⟨settings, c₅, -, hend⟩
    · exact .inr ⟨type, c₃, flags, c₄, htype, hflag,
        (Setting.group_error_iff c₄).1 ⟨e, u, hbad, he⟩⟩
    · -- what comes behind the settings can be given up
      obtain ⟨stop, c₆, -, hfinish⟩ := Mild.bind_fatal .position hend he
      obtain ⟨_, c₇, -, hnode⟩ := Mild.bind_fatal Reader.finishLine_mild hfinish he
      cases hnode
  · rintro ⟨d, hreaches, hbad⟩
    obtain ⟨c₁, name, c₂, hindent, hident, hsep⟩ := reachesType_iff.1 hreaches
    rcases hbad with hbad | ⟨type, c₃, flags, c₄, htype, hflags, hbad⟩
    · obtain ⟨e, u, htype, he⟩ := (FieldType.fatal_iff d).2 hbad
      refine ⟨e, u, ?_, he⟩
      simp only [reader, bind_apply, hindent, hposition, hident, hsep, htype]
    · obtain ⟨e, u, hsettings, he⟩ := (Setting.group_error_iff c₄).2 hbad
      refine ⟨e, u, ?_, he⟩
      simp only [reader, bind_apply, hindent, hposition, hident, hsep, htype, hflags, hsettings]

end Field

end EntityModels
