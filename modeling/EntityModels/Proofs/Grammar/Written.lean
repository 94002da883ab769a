import EntityModels.Grammar.Entity
import EntityModels.Proofs.Grammar.Modifiers
import EntityModels.Proofs.Grammar.Trivia
import EntityModels.Proofs.Grammar.TypeSyntax

namespace EntityModels

open Reader

namespace FieldType

variable {rest : List Char}

def suffix (isMaybe : Bool) : List Char := if isMaybe then ' ' :: Keyword.maybe.toList else []

theorem render_eq (type : FieldType) : type.render =
    front type.isList type.strictness type.typeName.text ++ suffix type.isMaybe := by
  simp [render, front, opening, closing, suffix]

theorem unspaced_rendered {type : FieldType} (h : IdentKind.type.Names type.typeName.text)
    (tail : List Char) : Unspaced (type.render ++ tail) := by
  rw [render_eq, List.append_assoc]
  exact unspaced_front h _

theorem reads_suffix (isMaybe : Bool) (h : ¬MaybeAhead rest) :
    maybeSuffix.Reads (suffix isMaybe ++ rest) (· = isMaybe) rest := by
  cases isMaybe with
  | true => exact reads_maybe gap_space rest
  | false => exact reads_noMaybe h

theorem reads_rendered {type : FieldType} (h : IdentKind.type.Names type.typeName.text)
    (hr : EndsWord rest) (hm : ¬MaybeAhead rest) :
    reader.Reads (type.render ++ rest) (fun t ↦ t.mapSpan noSpan = type.mapSpan noSpan) rest := by
  intro p
  let c : Cursor := ⟨type.render ++ rest, p⟩
  let written := front type.isList type.strictness type.typeName.text
  have hc : c.rest = written ++ (suffix type.isMaybe ++ rest) := by
    simp [c, written, render_eq]
  have hends : EndsWord (closing type.isList ++ (suffix type.isMaybe ++ rest)) := by
    cases type.isList with
    | true => exact endsWord_bracket _
    | false =>
      cases type.isMaybe with
      | true => exact endsWord_space _
      | false => exact hr
  have hmaybe := (reads_suffix type.isMaybe hm).exactEq (c := c.past written _)
    maybeSuffix_forward rfl
  exact ⟨_, _, reader_of_front hc h hends hmaybe, rfl, rfl⟩

end FieldType

namespace Field

variable {f : Field}

theorem flags_spec (f : Field) : (f.flags.map Prod.fst).Nodup ∧
    (f.flags.lookup .migrationOnly).isSome = f.migrationOnly ∧
      (f.flags.lookup .safeToRemove).isSome = f.safeToRemove := by
  rw [flags]
  cases f.migrationOnly <;> cases f.safeToRemove <;> decide

theorem settings_nodup (f : Field) : (f.settings.map Prod.fst).Nodup := by
  rw [settings]
  cases f.defaultValue <;> cases f.sqlRow <;> cases f.sqlType <;> cases f.maxLen <;> simp

theorem settings_lookup (f : Field) (setting : Setting) : f.settings.lookup setting =
    match setting with
    | .default => f.defaultValue.map .text
    | .sql => f.sqlRow.map .text
    | .sqlType => f.sqlType.map .text
    | .maxLen => f.maxLen.map .integer := by
  rw [settings]
  cases setting <;> cases f.defaultValue <;> cases f.sqlRow <;> cases f.sqlType <;>
    cases f.maxLen <;> rfl

theorem WellFormed.admits (h : f.WellFormed) : ∀ g ∈ f.settings, g.1.Admits g.2 := by
  intro g hg
  simp only [settings, List.mem_append, List.mem_map, Option.mem_toList] at hg
  rcases hg with ((⟨text, ht, rfl⟩ | ⟨text, ht, rfl⟩) | ⟨text, ht, rfl⟩) | ⟨n, hn, rfl⟩
  · exact h.defaultValue text ht
  · exact h.sqlRow text ht
  · exact h.sqlType text ht
  · exact h.maxLen n hn

/-- Over the space behind the type stand the modifiers, or there is none. -/
theorem behindSpace_settings {P : List Char → Prop} (f : Field)
    (h : ∀ (setting : Setting) tail, P (setting.keyword.toList ++ tail)) :
    BehindSpace P (spaced Setting.render f.settings ++ ['\n']) := by
  apply BehindSpace.spaced
  · intro g _ tail
    rw [Setting.render, List.append_assoc]
    exact ⟨g.1.unspaced _, h g.1 _⟩
  · exact .inl (unspaced_newline [])

theorem behindSpace_flags {P : List Char → Prop} (f : Field)
    (hflag : ∀ (flag : Flag) tail, P (flag.keyword.toList ++ tail))
    (hsetting : ∀ (setting : Setting) tail, P (setting.keyword.toList ++ tail)) :
    BehindSpace P (spaced Flag.render f.flags ++ (spaced Setting.render f.settings ++ ['\n'])) := by
  apply BehindSpace.spaced
  · intro g _ tail
    exact ⟨g.1.unspaced tail, hflag g.1 tail⟩
  · exact f.behindSpace_settings hsetting

theorem WellFormed.reads (h : f.WellFormed) :
    reader.Reads f.render (fun g ↦ g.mapSpan noSpan = f.mapSpan noSpan) [] := by
  have hline : EndsWord ['\n'] := endsWord_newline []
  have hsettings : EndsWord (spaced Setting.render f.settings ++ ['\n']) :=
    endsWord_spaced _ _ hline
  have hflags : EndsWord (spaced Flag.render f.flags ++
      (spaced Setting.render f.settings ++ ['\n'])) := endsWord_spaced _ _ hsettings
  have hmaybe := @behindSpace_flags (fun body ↦ ¬Keyword.maybe.toList <+: body) f
    (fun flag tail ↦ by cases flag <;> simp [Keyword.maybe, Flag.keyword])
    (fun setting tail ↦ by cases setting <;> simp [Keyword.maybe, Setting.keyword])
  have hend : Unmodified Flag.reader (spaced Setting.render f.settings ++ ['\n']) := by
    apply f.behindSpace_settings
    intro setting tail flag
    apply Flag.misses_of_no_keyword
    cases setting <;> cases flag <;> simp [Setting.keyword, Flag.keyword]
  obtain ⟨hnodup, hmigration, hremove⟩ := f.flags_spec
  simp only [render, List.append_assoc, List.cons_append]
  refine (reads_indentation (h.name.unspaced _)).bind fun _ _ ↦ ?_
  refine Reads.position.bind fun start _ ↦ ?_
  refine (reads_ident "field name" h.name (endsWord_space _)).bind fun name hname ↦ ?_
  refine (reads_separator "field type" (FieldType.unspaced_rendered h.type _)).bind fun _ _ ↦ ?_
  refine (FieldType.reads_rendered h.type hflags
    (FieldType.not_maybeAhead hmaybe.behindGap)).bind fun type htype ↦ ?_
  refine (Flag.reads_group hnodup hsettings hend).bindEq ?_
  refine (Setting.reads_group h.admits f.settings_nodup hline (unspaced_newline [])).bindEq ?_
  refine Reads.position.bind fun stop _ ↦ ?_
  refine (reads_finishLine []).bind fun _ _ ↦ .pure ?_
  have htext (o : Option String) : (o.map Setting.Value.text).bind Setting.Value.text? = o := by
    cases o <;> rfl
  have hinteger (o : Option Nat) :
      (o.map Setting.Value.integer).bind Setting.Value.integer? = o := by cases o <;> rfl
  simp only [settings_lookup, htext, hinteger, hmigration, hremove, mapSpan, htype,
    Ident.mapSpan_noSpan hname]
  rfl

end Field

theorem reads_namesThenEnd {α : Type} {kind : IdentKind} {given : List (Ident kind)}
    (expected : String) (h : IdentKind.NamesAll given) {P : α → Prop}
    {result : List (Ident kind) → Position → α}
    (hP : ∀ found stop, found.map (Ident.mapSpan noSpan) = given.map (Ident.mapSpan noSpan) →
      P (result found stop)) :
    (Reader.namesThenEnd false kind expected result).Reads
      (spaced Ident.render given ++ ['\n']) P [] := by
  refine (reads_names expected h (endsWord_newline []) (unspaced_newline [])).bind
    fun found hfound ↦ ?_
  refine Reads.position.bind fun stop _ ↦ ?_
  refine (reads_finishLine []).bind fun _ _ ↦ .pure ?_
  exact hP found stop (Ident.map_mapSpan_noSpan hfound)

theorem Derive.reads_rendered {clause : Derive} (h : IdentKind.NamesAll clause.classNames) :
    (reader false).Reads
      (indent ++ (Keyword.derive.toList ++ (spaced Ident.render clause.classNames ++ ['\n'])))
      (fun c ↦ c.mapSpan noSpan = clause.mapSpan noSpan) [] := by
  refine (reads_indentation (.of_head (x := 'd') (by decide) _)).bind fun _ _ ↦ ?_
  refine Reads.position.bind fun start _ ↦ ?_
  refine (reads_keyword Keyword.derive _).bind fun _ _ ↦ ?_
  apply reads_namesThenEnd "class name" h
  intro found stop hfound
  rw [mapSpan, hfound]
  rfl

theorem Primary.reads_rendered {clause : Primary} (h : IdentKind.NamesAll clause.fieldNames) :
    (reader false).Reads
      (indent ++ (Keyword.primary.toList ++ (spaced Ident.render clause.fieldNames ++ ['\n'])))
      (fun c ↦ c.mapSpan noSpan = clause.mapSpan noSpan) [] := by
  refine (reads_indentation (.of_head (x := 'P') (by decide) _)).bind fun _ _ ↦ ?_
  refine Reads.position.bind fun start _ ↦ ?_
  refine (reads_keyword Keyword.primary _).bind fun _ _ ↦ ?_
  apply reads_namesThenEnd "field name" h
  intro found stop hfound
  rw [mapSpan, hfound]
  rfl

theorem Foreign.reads_rendered {clause : Foreign} (ht : IdentKind.type.Names clause.target.text)
    (h : IdentKind.NamesAll clause.fieldNames) :
    (reader false).Reads
      (indent ++ (Keyword.foreign.toList ++ ' ' :: (clause.target.text.toList ++
        (spaced Ident.render clause.fieldNames ++ ['\n']))))
      (fun c ↦ c.mapSpan noSpan = clause.mapSpan noSpan) [] := by
  refine (reads_indentation (.of_head (x := 'F') (by decide) _)).bind fun _ _ ↦ ?_
  refine Reads.position.bind fun start _ ↦ ?_
  refine (reads_keyword Keyword.foreign _).bind fun _ _ ↦ ?_
  refine (reads_separator "target entity" (ht.unspaced _)).bind fun _ _ ↦ ?_
  refine (reads_clauseIdent "target entity" ht
    (endsWord_spaced _ _ (endsWord_newline []))).bind fun target htarget ↦ ?_
  apply reads_namesThenEnd "field name" h
  intro found stop hfound
  rw [mapSpan, hfound, Ident.mapSpan_noSpan htarget]
  rfl

theorem Unique.reads_rendered {clause : Unique} (hn : IdentKind.type.Names clause.name.text)
    (h : IdentKind.NamesAll clause.fieldNames) :
    (reader false).Reads
      (indent ++ (clause.name.text.toList ++ (spaced Ident.render clause.fieldNames ++ ['\n'])))
      (fun c ↦ c.mapSpan noSpan = clause.mapSpan noSpan) [] := by
  refine (reads_indentation (hn.unspaced _)).bind fun _ _ ↦ ?_
  refine Reads.position.bind fun start _ ↦ ?_
  refine (reads_clauseIdent "constraint name" hn
    (endsWord_spaced _ _ (endsWord_newline []))).bind fun name hname ↦ ?_
  apply reads_namesThenEnd "field name" h
  intro found stop hfound
  rw [mapSpan, hfound, Ident.mapSpan_noSpan hname]
  rfl

theorem BlankLine.WellFormed.reads {line : BlankLine} (h : line.WellFormed) :
    reader.Reads line.text.toList (fun l ↦ l.mapSpan noSpan = line.mapSpan noSpan) [] := by
  obtain ⟨blanks, hblanks, htext⟩ := h
  have hwhole : String.ofList (blanks ++ ['\n']) = line.text := by
    rw [← htext, String.ofList_toList]
  rw [htext]
  refine Reads.position.bind fun start _ ↦ ?_
  refine (reads_blanks hblanks (unspaced_newline [])).bindEq ?_
  refine (reads_next? ['\n']).bindEq ?_
  refine (reads_lineEnd []).bind fun _ _ ↦ ?_
  refine Reads.position.bind fun stop _ ↦ .pure ?_
  rw [hwhole]
  rfl

theorem CommentLine.WellFormed.reads {line : CommentLine} (h : line.WellFormed) :
    reader.Reads line.text.toList (fun l ↦ l.mapSpan noSpan = line.mapSpan noSpan) [] := by
  obtain ⟨blanks, body, hblanks, hbody, htext⟩ := h
  have hwhole : String.ofList (blanks ++ Keyword.comment.toList ++ body ++ ['\n']) = line.text := by
    simp only [List.append_assoc]
    rw [← htext, String.ofList_toList]
  have hstop : ∀ c ∈ body, (!isLineEnd c) = true := by
    intro c hc
    simpa [isLineEnd] using fun he : c = '\n' ↦ hbody (he ▸ hc)
  rw [htext]
  refine Reads.position.bind fun start _ ↦ ?_
  refine (reads_blanks hblanks (.of_head (x := '-') (by decide) _)).bindEq ?_
  refine (reads_keyword Keyword.comment _).bind fun _ _ ↦ ?_
  refine (@reads_takeWhile body ['\n'] _ hstop (by decide)).bindEq ?_
  refine (reads_next? ['\n']).bindEq ?_
  refine (reads_lineEnd []).bind fun _ _ ↦ ?_
  refine Reads.position.bind fun stop _ ↦ .pure ?_
  rw [hwhole]
  rfl

namespace Entity

theorem renderTable_some (text : String) (rest : List Char) : renderTable (some text) ++ rest =
    ' ' :: (Keyword.sql.toList ++ ("=".toList ++ (text.toList ++ rest))) := by
  simp [renderTable]

theorem reads_jsonFlag (derivesJson : Bool) (table : Option String) :
    jsonFlag.Reads ((if derivesJson then ' ' :: Keyword.json.toList else []) ++
      (renderTable table ++ ['\n'])) (· = derivesJson) (renderTable table ++ ['\n']) := by
  let inner : Reader Bool := do
    let _ ← space
    literal Keyword.json
  cases derivesJson with
  | true =>
    have hread : inner.Reads (' ' :: (Keyword.json.toList ++ (renderTable table ++ ['\n'])))
        (· = true) (renderTable table ++ ['\n']) :=
      (reads_space (.of_head (x := 'j') (by decide) _)).bindEq (reads_literal _ _)
    exact hread.kept fun _ ha ↦ ha
  | false =>
    obtain ⟨mid, hread⟩ : ∃ mid, inner.Reads (renderTable table ++ ['\n']) (· = false) mid := by
      cases table with
      | none =>
        refine ⟨['\n'], (reads_noSpace (unspaced_newline [])).bindEq ?_⟩
        exact reads_noLiteral (not_prefix_of_head (by decide))
      | some text =>
        let body := Keyword.sql.toList ++ ("=".toList ++ (text.toList ++ ['\n']))
        have hunspaced : Unspaced body := .of_head (x := 's') (by decide) _
        have hno : ¬Keyword.json.toList <+: body := not_prefix_of_head (by decide)
        rw [renderTable_some]
        exact ⟨body, (reads_space hunspaced).bindEq (reads_noLiteral hno)⟩
    exact hread.givenBack fun _ ha ↦ ha

theorem reads_sqlTable {table : Option String} (h : ∀ text ∈ table, Setting.Writable text) :
    sqlTable.Reads (renderTable table ++ ['\n']) (· = table) ['\n'] := by
  let inner : Reader (Option String) := do
    let _ ← space
    if ← literal Keyword.sql then
      let _ ← space
      if ← literal "=" then
        let _ ← space
        return (← token).map String.ofList
      else return none
    else return none
  cases table with
  | none =>
    have hread : inner.Reads ['\n'] (· = none) ['\n'] := by
      have hno : ¬Keyword.sql.toList <+: ['\n'] := not_prefix_of_head (by decide)
      refine (reads_noSpace (unspaced_newline [])).bindEq ?_
      exact (reads_noLiteral hno).bindEq (.pure rfl)
    exact hread.givenBack fun _ ha ↦ ha ▸ rfl
  | some text =>
    have hw := h text rfl
    have hread : inner.Reads (renderTable (some text) ++ ['\n']) (· = some text) ['\n'] := by
      rw [renderTable_some]
      refine (reads_space (.of_head (x := 's') (by decide) _)).bindEq ?_
      refine (reads_literal Keyword.sql _).bindEq ?_
      refine (reads_noSpace (.of_head (x := '=') (by decide) _)).bindEq ?_
      refine (reads_literal "=" _).bindEq ?_
      refine (reads_noSpace (unspaced_word hw.ne_nil hw.continues _)).bindEq ?_
      refine (reads_token hw.ne_nil hw.continues (endsWord_newline [])).bindEq (.pure ?_)
      rw [Option.map_some, String.ofList_toList]
    exact hread.kept fun _ ha ↦ ha ▸ rfl

theorem WellFormed.reads_header {e : Entity} (h : e.WellFormed) :
    header.Reads e.renderHeader (fun found ↦ found.name.text = e.name.text ∧
      found.derivesJson = e.derivesJson ∧ found.sqlTableName = e.sqlTableName) [] := by
  have htable : EndsWord (renderTable e.sqlTableName ++ ['\n']) := by
    cases e.sqlTableName with
    | none => exact endsWord_newline []
    | some text => exact endsWord_space _
  have hflag : EndsWord ((if e.derivesJson then ' ' :: Keyword.json.toList else []) ++
      (renderTable e.sqlTableName ++ ['\n'])) := by
    cases e.derivesJson with
    | true => exact endsWord_space _
    | false => exact htable
  have hrender : e.renderHeader = e.name.text.toList ++
      ((if e.derivesJson then ' ' :: Keyword.json.toList else []) ++
        (renderTable e.sqlTableName ++ ['\n'])) := by
    simp only [renderHeader, List.append_assoc]
  rw [hrender]
  refine (reads_ident "entity name" h.name hflag).bind fun name hname ↦ ?_
  refine (reads_jsonFlag e.derivesJson e.sqlTableName).bindEq ?_
  refine (reads_sqlTable h.sqlTableName).bindEq ?_
  refine (reads_finishLine []).bind fun _ _ ↦ .pure ?_
  exact ⟨hname, rfl, rfl⟩

end Entity

end EntityModels
