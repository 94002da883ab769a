import EntityModels.Proofs.Grammar.Lengths
import EntityModels.Proofs.Grammar.ModifierGroups
import EntityModels.Proofs.Grammar.Results
import EntityModels.Proofs.Grammar.Written
import EntityModels.Proofs.Grammar.TypeSyntax

namespace EntityModels

def AtLineEnd (text : List Char) : Prop := text = [] ∨ ∃ more, text = '\n' :: more

theorem AtLineEnd.endsWord {text : List Char} (h : AtLineEnd text) : EndsWord text := by
  rcases h with rfl | ⟨more, rfl⟩
  · exact ⟨rfl, rfl⟩
  · exact endsWord_newline more

theorem AtLineEnd.unspaced {text : List Char} (h : AtLineEnd text) : Unspaced text := by
  rcases h with rfl | ⟨more, rfl⟩
  · exact rfl
  · exact unspaced_newline more

section

variable {K V : Type} {read : K → Reader (Option V)} {given : List (Modifier K V)}
  {tail : List Char}

theorem endsWord_written (hgap : ∀ m ∈ given, Gap m.gap) (htail : EndsWord tail) :
    EndsWord (given.flatMap Modifier.written ++ tail) := by
  cases given with
  | nil => exact htail
  | cons m given =>
    simpa [Modifier.written] using (hgap m List.mem_cons_self).endsWord _

theorem BehindGap.written {P : List Char → Prop} (hgap : ∀ m ∈ given, Gap m.gap)
    (h : ∀ m ∈ given, ∀ rest, Unspaced (m.text ++ rest) ∧ P (m.text ++ rest))
    (htail : BehindGap P tail) : BehindGap P (given.flatMap Modifier.written ++ tail) := by
  cases given with
  | nil => exact htail
  | cons m given =>
    obtain ⟨hu, hP⟩ := h m List.mem_cons_self (given.flatMap Modifier.written ++ tail)
    refine .inr ⟨m.gap, _, ?_, hgap m List.mem_cons_self, hu, hP⟩
    simp [Modifier.written]

theorem Reader.EndsAt.of_behindGap {left : K → Prop} {c : Cursor}
    (h : BehindGap (fun body ↦ ∀ k, Misses (read k) body) c.rest) : EndsAt read left c := by
  rcases h with hu | ⟨gap, body, hc, hgap, hu, hmiss⟩
  · exact .of_unspaced hu
  · intro _ k _
    rw [Cursor.skip_eq_past hc hgap.2 hu]
    exact (hmiss k).missing _

theorem Reader.Binds.of_forall (hgap : ∀ m ∈ given, Gap m.gap)
    (hread : ∀ m ∈ given, ∀ c rest, EndsWord rest → c.rest = m.written ++ rest →
      m.ReadAt read c (c.past m.written rest)) (htail : EndsWord tail) {c : Cursor}
    (hc : c.rest = given.flatMap Modifier.written ++ tail) :
    Binds read c given (c.past (given.flatMap Modifier.written) tail) := by
  induction given generalizing c with
  | nil =>
    obtain rfl : c.rest = tail := hc
    exact .done c
  | cons m given ih =>
    rw [List.forall_mem_cons] at hgap hread
    have hm := hread.1 c (given.flatMap Modifier.written ++ tail) (endsWord_written hgap.2 htail)
      (by simpa using hc)
    have hmore := ih hgap.2 hread.2 (c := c.past m.written _) rfl
    rw [Cursor.past_past] at hmore
    exact .more hm hmore

end

namespace Flag

def modifier (gap : List Char) (flag : Flag) : Modifier Flag Unit :=
  ⟨gap, flag.keyword.toList, flag, ()⟩

theorem modifier_readAt {gap rest : List Char} {flag : Flag} (hgap : Gap gap) {c : Cursor}
    (hc : c.rest = (modifier gap flag).written ++ rest) :
    (modifier gap flag).ReadAt reader c (c.past (modifier gap flag).written rest) := by
  have hread : flag.reader.Reads (flag.keyword.toList ++ rest) (· = some ()) rest :=
    (Reader.reads_literal _ rest).bindEq (.pure rfl)
  have hfound := hread.exactEq (c := c.past gap _) flag.reader_forward rfl
  rw [Cursor.past_past] at hfound
  exact ⟨hgap, flag.unspaced rest, by simpa [Modifier.written, Cursor.past] using hc, rfl, hfound⟩

end Flag

namespace Setting

/-- A setting as it is written, with any space in front of it and around the equals sign. -/
structure Phrase where
  setting : Setting
  gap : List Char
  before : List Char
  after : List Char
  token : List Char

namespace Phrase

variable {phrase : Phrase}

def value (phrase : Phrase) : Value :=
  match phrase.setting with
  | maxLen => .integer (numeral phrase.token)
  | _ => .text (String.ofList phrase.token)

def text (phrase : Phrase) : List Char :=
  phrase.gap ++ (phrase.setting.front phrase.before phrase.after ++ phrase.token)

def modifier (phrase : Phrase) : Modifier Setting Value :=
  ⟨phrase.gap, phrase.setting.front phrase.before phrase.after ++ phrase.token, phrase.setting,
    phrase.value⟩

def found (phrase : Phrase) : Setting × Value := (phrase.setting, phrase.value)

structure WellFormed (phrase : Phrase) : Prop where
  gap : Gap phrase.gap
  before : ∀ x ∈ phrase.before, isHorizontalSpace x
  after : ∀ x ∈ phrase.after, isHorizontalSpace x
  ne_nil : phrase.token ≠ []
  token : ∀ x ∈ phrase.token, isIdentChar x
  length : phrase.setting = maxLen →
    phrase.token.all Char.isDigit ∧ numeral phrase.token < 2 ^ 63

theorem WellFormed.value?_eq (h : phrase.WellFormed) :
    phrase.setting.value? phrase.token = some phrase.value := by
  obtain ⟨setting, gap, before, after, token⟩ := phrase
  cases setting with
  | default | sql | sqlType => rfl
  | maxLen =>
    obtain ⟨hdigits, hlt⟩ := h.length rfl
    have hlength : IsLength token := ⟨h.ne_nil, hdigits, Nat.le_sub_one_of_lt hlt⟩
    exact (value?_maxLen token).trans (if_pos hlength)

theorem WellFormed.admits (h : phrase.WellFormed) : phrase.setting.Admits phrase.value :=
  admits_of_value? h.value?_eq h.ne_nil h.token

theorem WellFormed.readAt (h : phrase.WellFormed) {c : Cursor} {rest : List Char}
    (hrest : EndsWord rest) (hc : c.rest = phrase.modifier.written ++ rest) :
    phrase.modifier.ReadAt reader c (c.past phrase.modifier.written rest) := by
  let front := phrase.setting.front phrase.before phrase.after
  have hread : phrase.setting.reader (c.past phrase.gap (front ++ phrase.token ++ rest)) =
      .ok (some phrase.value) (c.past (phrase.gap ++ (front ++ phrase.token)) rest) := by
    rw [reader_of_front h.before h.after (unspaced_word h.ne_nil h.token rest)
      (List.append_assoc front _ rest), assigned_of_token h.token hrest.1 rfl, if_neg h.ne_nil,
      h.value?_eq]
    simp [Cursor.past_past, front]
  have hunspaced : Unspaced (front ++ phrase.token ++ rest) := by
    simpa [front, Setting.front] using phrase.setting.unspaced _
  exact ⟨h.gap, hunspaced, by simpa [Modifier.written, Cursor.past] using hc, rfl, hread⟩

end Phrase

theorem flatMap_written (given : List Phrase) :
    (given.map Phrase.modifier).flatMap Modifier.written = given.flatMap Phrase.text :=
  List.flatMap_map ..

theorem group_of_phrases {given : List Phrase} {tail : List Char} {c : Cursor}
    (h : ∀ phrase ∈ given, phrase.WellFormed) (hdistinct : (given.map Phrase.setting).Nodup)
    (htail : AtLineEnd tail) (hc : c.rest = given.flatMap Phrase.text ++ tail) :
    group c = .ok (given.map Phrase.found) (c.past (given.flatMap Phrase.text) tail) := by
  rw [← flatMap_written] at hc ⊢
  have hbinds : Reader.Binds reader c (given.map Phrase.modifier)
      (c.past ((given.map Phrase.modifier).flatMap Modifier.written) tail) := by
    apply Reader.Binds.of_forall _ _ htail.endsWord hc
    · simpa [Phrase.modifier] using fun phrase hp ↦ (h phrase hp).gap
    · intro m hm c rest hrest hc
      obtain ⟨phrase, hp, rfl⟩ := List.mem_map.1 hm
      exact (h phrase hp).readAt hrest hc
  have honce : Reader.BindsOnce reader c (given.map Phrase.modifier) _ :=
    ⟨hbinds, by simpa [Function.comp_def, Phrase.modifier] using hdistinct⟩
  have hfound : (given.map Phrase.modifier).map Modifier.found = given.map Phrase.found :=
    List.map_map
  rw [← hfound]
  exact isGroup.modifiers_of_bindsAll (honce.bindsAll (.of_unspaced htail.unspaced))

theorem lookup_eq_some_iff {given : List (Setting × Value)} (h : (given.map Prod.fst).Nodup)
    {setting : Setting} {value : Value} :
    given.lookup setting = some value ↔ (setting, value) ∈ given := by
  rw [List.lookup_eq_some_iff]
  constructor
  · rintro ⟨before, after, rfl, -⟩
    simp
  · intro hmem
    obtain ⟨before, after, rfl⟩ := List.append_of_mem hmem
    refine ⟨before, after, rfl, fun g hg ↦ ?_⟩
    rw [List.map_append, List.nodup_append] at h
    have hne := h.2.2 g.1 (List.mem_map_of_mem hg) setting (by simp)
    simpa using hne.symm

section

variable {given : List (Setting × Value)} (h : ∀ g ∈ given, g.1.Admits g.2)

include h

theorem map_text_lookup {setting : Setting} (hs : setting ≠ maxLen) :
    ((given.lookup setting).bind Value.text?).map Value.text = given.lookup setting := by
  cases hv : given.lookup setting with
  | none => rfl
  | some value =>
    have hadmits := admits_of_lookup h hv
    cases value with
    | text t => rfl
    | integer n => cases setting <;> first | exact absurd rfl hs | cases hadmits

theorem map_integer_lookup :
    ((given.lookup maxLen).bind Value.integer?).map Value.integer = given.lookup maxLen := by
  cases hv : given.lookup maxLen with
  | none => rfl
  | some value =>
    have hadmits := admits_of_lookup h hv
    cases value with
    | text t => cases hadmits
    | integer n => rfl

end

end Setting

namespace Field

/-- Behind the place of its type, a field is what the type and the two groups say. -/
theorem reader_of_groups {c d c₁ c₂ c₃ : Cursor} {type : FieldType} {flags : List (Flag × Unit)}
    {settings : List (Setting × Setting.Value)} (hreaches : ReachesType c d)
    (htype : FieldType.reader d = .ok type c₁) (hflags : Flag.group c₁ = .ok flags c₂)
    (hsettings : Setting.group c₂ = .ok settings c₃) : ∃ f, reader c = .ok f c₃.nextLine ∧
      f.defaultValue = (settings.lookup .default).bind Setting.Value.text? ∧
      f.sqlRow = (settings.lookup .sql).bind Setting.Value.text? ∧
      f.sqlType = (settings.lookup .sqlType).bind Setting.Value.text? ∧
      f.maxLen = (settings.lookup .maxLen).bind Setting.Value.integer? := by
  obtain ⟨b₁, name, b₂, hindent, hident, hsep⟩ := reachesType_iff.1 hreaches
  have hposition (b : Cursor) : Reader.position b = .ok b.position b := rfl
  rw [reader]
  simp only [bind_apply, hindent, hposition, hident, hsep, htype, hflags, hsettings,
    Reader.finishLine_apply]
  exact ⟨_, rfl, rfl, rfl, rfl, rfl⟩

/-- The line of a field as it is written, with any space between its parts. -/
structure Line where
  indent : List Char
  name : String
  gap : List Char
  isList : Bool
  strictness : Strictness
  typeName : String
  /-- The space in front of the word for what may be absent, if that is there. -/
  maybeGap : Option (List Char)
  flags : List (List Char × Flag)
  settings : List Setting.Phrase

namespace Line

variable {line : Line} {tail : List Char} {c : Cursor}

def suffix (line : Line) : List Char := line.maybeGap.elim [] (· ++ Keyword.maybe.toList)

def flagModifiers (line : Line) : List (Modifier Flag Unit) :=
  line.flags.map fun flag ↦ Flag.modifier flag.1 flag.2

def settingModifiers (line : Line) : List (Modifier Setting Setting.Value) :=
  line.settings.map Setting.Phrase.modifier

def flagText (line : Line) : List Char := line.flagModifiers.flatMap Modifier.written

def settingText (line : Line) : List Char := line.settings.flatMap Setting.Phrase.text

def text (line : Line) : List Char :=
  line.indent ++ (line.name.toList ++ (line.gap ++
    (FieldType.front line.isList line.strictness line.typeName ++
      (line.suffix ++ (line.flagText ++ line.settingText)))))

def given (line : Line) : List (Setting × Setting.Value) := line.settings.map Setting.Phrase.found

structure WellFormed (line : Line) : Prop where
  indent : Gap line.indent
  name : IdentKind.field.Names line.name
  gap : Gap line.gap
  typeName : IdentKind.type.Names line.typeName
  maybeGap : ∀ gap ∈ line.maybeGap, Gap gap
  flags : ∀ flag ∈ line.flags, Gap flag.1
  flags_distinct : (line.flags.map Prod.snd).Nodup
  settings : ∀ phrase ∈ line.settings, phrase.WellFormed
  settings_distinct : (line.settings.map Setting.Phrase.setting).Nodup

namespace WellFormed

theorem flag_gap (h : line.WellFormed) : ∀ m ∈ line.flagModifiers, Gap m.gap := by
  intro m hm
  obtain ⟨flag, hf, rfl⟩ := List.mem_map.1 hm
  exact h.flags flag hf

theorem setting_gap (h : line.WellFormed) : ∀ m ∈ line.settingModifiers, Gap m.gap := by
  intro m hm
  obtain ⟨phrase, hp, rfl⟩ := List.mem_map.1 hm
  exact (h.settings phrase hp).gap

theorem endsWord_settings (h : line.WellFormed) (htail : AtLineEnd tail) :
    EndsWord (line.settingText ++ tail) := by
  rw [settingText, ← Setting.flatMap_written]
  exact endsWord_written h.setting_gap htail.endsWord

theorem behindGap_settings {P : List Char → Prop} (h : line.WellFormed) (htail : AtLineEnd tail)
    (hP : ∀ (setting : Setting) rest, P (setting.keyword.toList ++ rest)) :
    BehindGap P (line.settingText ++ tail) := by
  rw [settingText, ← Setting.flatMap_written]
  apply BehindGap.written h.setting_gap _ (.inl htail.unspaced)
  intro m hm rest
  obtain ⟨phrase, -, rfl⟩ := List.mem_map.1 hm
  simpa [Setting.Phrase.modifier, Setting.front] using
    ⟨phrase.setting.unspaced _, hP phrase.setting _⟩

theorem behindGap_flags {P : List Char → Prop} (h : line.WellFormed) (htail : AtLineEnd tail)
    (hflag : ∀ (flag : Flag) rest, P (flag.keyword.toList ++ rest))
    (hsetting : ∀ (setting : Setting) rest, P (setting.keyword.toList ++ rest)) :
    BehindGap P (line.flagText ++ (line.settingText ++ tail)) := by
  apply BehindGap.written h.flag_gap _ (h.behindGap_settings htail hsetting)
  intro m hm rest
  obtain ⟨flag, -, rfl⟩ := List.mem_map.1 hm
  exact ⟨flag.2.unspaced rest, hflag flag.2 rest⟩

theorem not_maybeAhead (h : line.WellFormed) (htail : AtLineEnd tail) :
    ¬FieldType.MaybeAhead (line.flagText ++ (line.settingText ++ tail)) := by
  apply FieldType.not_maybeAhead
  apply h.behindGap_flags htail
  · intro flag rest
    cases flag <;> simp [Keyword.maybe, Flag.keyword]
  · intro setting rest
    cases setting <;> simp [Keyword.maybe, Setting.keyword]

theorem reads_suffix (h : line.WellFormed) {behind : List Char}
    (hno : ¬FieldType.MaybeAhead behind) :
    ∃ isMaybe, FieldType.maybeSuffix.Reads (line.suffix ++ behind) (· = isMaybe) behind := by
  rw [suffix]
  cases hgap : line.maybeGap with
  | none => exact ⟨false, FieldType.reads_noMaybe hno⟩
  | some gap => exact ⟨true, FieldType.reads_maybe (h.maybeGap gap hgap) behind⟩

theorem endsWord_suffix (h : line.WellFormed) {behind : List Char} (hends : EndsWord behind) :
    EndsWord (line.suffix ++ behind) := by
  rw [suffix]
  cases hgap : line.maybeGap with
  | none => exact hends
  | some gap => simpa using (h.maybeGap gap hgap).endsWord (Keyword.maybe.toList ++ behind)

theorem type_eq (h : line.WellFormed) (htail : AtLineEnd tail)
    (hc : c.rest = FieldType.front line.isList line.strictness line.typeName ++
      (line.suffix ++ (line.flagText ++ (line.settingText ++ tail)))) :
    ∃ type, FieldType.reader c = .ok type
      (c.past (FieldType.front line.isList line.strictness line.typeName ++ line.suffix)
        (line.flagText ++ (line.settingText ++ tail))) := by
  let front := FieldType.front line.isList line.strictness line.typeName
  have hends := h.endsWord_suffix (endsWord_written h.flag_gap (h.endsWord_settings htail))
  obtain ⟨isMaybe, hmaybe⟩ := h.reads_suffix (h.not_maybeAhead htail)
  have hread := hmaybe.exactEq (c := c.past front _) FieldType.maybeSuffix_forward rfl
  rw [Cursor.past_past] at hread
  refine ⟨_, FieldType.reader_of_front hc h.typeName ?_ hread⟩
  cases line.isList with
  | true => exact endsWord_bracket _
  | false => exact hends

theorem flags_eq (h : line.WellFormed) (htail : AtLineEnd tail)
    (hc : c.rest = line.flagText ++ (line.settingText ++ tail)) :
    ∃ flags, Flag.group c = .ok flags (c.past line.flagText (line.settingText ++ tail)) := by
  have hbinds : Reader.Binds Flag.reader c line.flagModifiers
      (c.past line.flagText (line.settingText ++ tail)) := by
    apply Reader.Binds.of_forall h.flag_gap _ (h.endsWord_settings htail) hc
    intro m hm c rest _ hc
    obtain ⟨flag, hf, rfl⟩ := List.mem_map.1 hm
    exact Flag.modifier_readAt (h.flags flag hf) hc
  have honce : Reader.BindsOnce Flag.reader c line.flagModifiers _ :=
    ⟨hbinds, by simpa [flagModifiers, Function.comp_def, Flag.modifier] using h.flags_distinct⟩
  have hend : BehindGap (fun body ↦ ∀ flag : Flag, Reader.Misses flag.reader body)
      (line.settingText ++ tail) := by
    apply h.behindGap_settings htail
    intro setting rest flag
    apply Flag.misses_of_no_keyword
    cases setting <;> cases flag <;> simp [Setting.keyword, Flag.keyword]
  exact ⟨_, Flag.isGroup.modifiers_of_bindsAll (honce.bindsAll (.of_behindGap hend))⟩

/-- A line is read as a field, with the settings that are written on it. -/
theorem reader_eq (h : line.WellFormed) (htail : AtLineEnd tail) (hc : c.rest = line.text ++ tail) :
    ∃ f d, reader c = .ok f d ∧
      f.defaultValue = (line.given.lookup .default).bind Setting.Value.text? ∧
      f.sqlRow = (line.given.lookup .sql).bind Setting.Value.text? ∧
      f.sqlType = (line.given.lookup .sqlType).bind Setting.Value.text? ∧
      f.maxLen = (line.given.lookup .maxLen).bind Setting.Value.integer? := by
  let front := FieldType.front line.isList line.strictness line.typeName
  let c₁ := c.past (line.indent ++ (line.name.toList ++ line.gap))
    (front ++ (line.suffix ++ (line.flagText ++ (line.settingText ++ tail))))
  let c₂ := c₁.past (front ++ line.suffix) (line.flagText ++ (line.settingText ++ tail))
  let c₃ := c₂.past line.flagText (line.settingText ++ tail)
  have hreaches : ReachesType c c₁ := by
    refine ⟨line.indent, line.name, line.gap, ?_, rfl, h.indent, h.name, h.gap,
      FieldType.unspaced_front h.typeName _⟩
    simpa [text, c₁, Cursor.past] using hc
  obtain ⟨type, htype⟩ := h.type_eq (c := c₁) htail rfl
  obtain ⟨flags, hflags⟩ := h.flags_eq (c := c₂) htail rfl
  have hsettings := Setting.group_of_phrases (c := c₃) h.settings h.settings_distinct htail rfl
  obtain ⟨f, hread, hvalues⟩ := reader_of_groups hreaches htype hflags hsettings
  exact ⟨f, _, hread, hvalues⟩

theorem admits (h : line.WellFormed) : ∀ g ∈ line.given, g.1.Admits g.2 := by
  intro g hg
  obtain ⟨phrase, hp, rfl⟩ := List.mem_map.1 hg
  exact (h.settings phrase hp).admits

theorem given_nodup (h : line.WellFormed) : (line.given.map Prod.fst).Nodup := by
  simpa [given, Function.comp_def, Setting.Phrase.found] using h.settings_distinct

theorem exists_field (h : line.WellFormed) (htail : AtLineEnd tail)
    (hc : c.rest = line.text ++ tail) : ∃ f d, reader c = .ok f d ∧
      ∀ setting, f.settings.lookup setting = line.given.lookup setting := by
  obtain ⟨f, d, hread, hdefault, hsql, hsqlType, hmaxLen⟩ := h.reader_eq htail hc
  refine ⟨f, d, hread, fun setting ↦ ?_⟩
  rw [settings_lookup]
  cases setting with
  | default =>
    rw [hdefault]
    exact Setting.map_text_lookup h.admits (by decide)
  | sql =>
    rw [hsql]
    exact Setting.map_text_lookup h.admits (by decide)
  | sqlType =>
    rw [hsqlType]
    exact Setting.map_text_lookup h.admits (by decide)
  | maxLen =>
    rw [hmaxLen]
    exact Setting.map_integer_lookup h.admits

end WellFormed

end Line

theorem settings_eq_of_lookup {f g : Field}
    (h : ∀ setting, f.settings.lookup setting = g.settings.lookup setting) :
    f.defaultValue = g.defaultValue ∧ f.sqlRow = g.sqlRow ∧ f.sqlType = g.sqlType ∧
      f.maxLen = g.maxLen := by
  have htext : Function.Injective Setting.Value.text := fun _ _ he ↦ Setting.Value.text.inj he
  have hinteger : Function.Injective Setting.Value.integer :=
    fun _ _ he ↦ Setting.Value.integer.inj he
  simp only [settings_lookup] at h
  exact ⟨Option.map_injective htext (h .default), Option.map_injective htext (h .sql),
    Option.map_injective htext (h .sqlType), Option.map_injective hinteger (h .maxLen)⟩

/-- Settings are read in any order. Of a row of them that ends the line each is found with the value
that is written, and nothing is read behind the last one. So two lines of fields on which the same
is set, in whatever order and with whatever else, give the same settings: those that are written. -/
theorem settings_in_any_order :
    (∀ (given : List Setting.Phrase) (tail : List Char) (c : Cursor),
      (∀ phrase ∈ given, phrase.WellFormed) → (given.map Setting.Phrase.setting).Nodup →
        AtLineEnd tail → c.rest = given.flatMap Setting.Phrase.text ++ tail →
          Setting.group c = .ok (given.map Setting.Phrase.found)
            (c.past (given.flatMap Setting.Phrase.text) tail)) ∧
    ∀ (line line' : Line) (tail tail' : List Char) (c c' : Cursor), line.WellFormed →
      line'.WellFormed → line.given.Perm line'.given → AtLineEnd tail → AtLineEnd tail' →
        c.rest = line.text ++ tail → c'.rest = line'.text ++ tail' →
          ∃ f f' d d', reader c = .ok f d ∧ reader c' = .ok f' d' ∧
            (f.defaultValue = f'.defaultValue ∧ f.sqlRow = f'.sqlRow ∧ f.sqlType = f'.sqlType ∧
              f.maxLen = f'.maxLen) ∧
            ∀ setting value, (setting, value) ∈ f.settings ↔ (setting, value) ∈ line.given := by
  refine ⟨fun _ _ _ h hdistinct htail hc ↦ Setting.group_of_phrases h hdistinct htail hc, ?_⟩
  intro line line' tail tail' c c' h h' hperm htail htail' hc hc'
  obtain ⟨f, d, hread, hset⟩ := h.exists_field htail hc
  obtain ⟨f', d', hread', hset'⟩ := h'.exists_field htail' hc'
  refine ⟨f, f', d, d', hread, hread', ?_, fun setting value ↦ ?_⟩
  · apply settings_eq_of_lookup
    intro setting
    rw [hset, hset']
    ext value
    rw [Setting.lookup_eq_some_iff h.given_nodup, Setting.lookup_eq_some_iff h'.given_nodup]
    exact hperm.mem_iff
  · rw [← Setting.lookup_eq_some_iff f.settings_nodup, hset,
      Setting.lookup_eq_some_iff h.given_nodup]

theorem settings_of_two_orders : ∃ f f' d d',
    reader (.ofText " b ~Text maxlen =\t05 sql= x\n".toList) = .ok f d ∧
    reader (.ofText " b ~Text sql= x maxlen =\t05".toList) = .ok f' d' ∧
    f.sqlRow = f'.sqlRow ∧ f.maxLen = f'.maxLen ∧ (.maxLen, .integer 5) ∈ f.settings := by
  let length : Setting.Phrase := ⟨.maxLen, [' '], [' '], ['\t'], ['0', '5']⟩
  let column : Setting.Phrase := ⟨.sql, [' '], [], [' '], ['x']⟩
  let line (settings : List Setting.Phrase) : Line :=
    ⟨[' '], "b", [' '], false, .lazy, "Text", none, [], settings⟩
  have htab : ∀ x ∈ ['\t'], isHorizontalSpace x := List.all_eq_true.1 (by decide)
  have hlength : length.WellFormed := ⟨gap_space, gap_space.2, htab, List.cons_ne_nil _ _,
    List.all_eq_true.1 (by decide), by decide⟩
  have hcolumn : column.WellFormed := ⟨gap_space, by simp [column], gap_space.2,
    List.cons_ne_nil _ _, List.all_eq_true.1 (by decide), by decide⟩
  have hname : IdentKind.field.Names "b" :=
    ⟨by decide, List.all_eq_true.1 (by decide), by decide⟩
  have htype : IdentKind.type.Names "Text" :=
    ⟨by decide, List.all_eq_true.1 (by decide), by decide⟩
  have hline (settings : List Setting.Phrase) (h : settings.Perm [length, column]) :
      (line settings).WellFormed := by
    refine ⟨gap_space, hname, gap_space, htype, by simp [line], by simp [line], by simp [line], ?_,
      (h.map _).nodup_iff.2 (by decide)⟩
    simp [line, h.mem_iff, hlength, hcolumn]
  have hswap : [column, length].Perm [length, column] := .swap length column []
  obtain ⟨-, hlines⟩ := settings_in_any_order
  obtain ⟨f, f', d, d', hread, hread', ⟨-, hsql, -, hmaxLen⟩, hwritten⟩ :=
    hlines (line [length, column]) (line [column, length]) ['\n'] []
      (.ofText " b ~Text maxlen =\t05 sql= x\n".toList)
      (.ofText " b ~Text sql= x maxlen =\t05".toList)
      (hline _ (.refl _)) (hline _ hswap) (hswap.symm.map _) (.inr ⟨[], rfl⟩) (.inl rfl)
      (by decide) (by decide)
  exact ⟨f, f', d, d', hread, hread', hsql, hmaxLen, (hwritten _ _).2 (by decide)⟩

end Field

end EntityModels
