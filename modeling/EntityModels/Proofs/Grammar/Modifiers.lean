import EntityModels.Proofs.Grammar.Words

/-!
Groups of modifiers that are read as they were written.

A group is read in any order, with each kind looked for in front of every modifier. So a kind must
not be taken for another one, and what follows the group must not be taken for one more modifier.
-/

namespace EntityModels

namespace Reader

section

variable {K V : Type} {read : K → Reader (Option V)} {text mid rest : List Char} {k : K} {v : V}

/-- The reader finds nothing there, however far it gets. -/
def Misses {α : Type} (r : Reader (Option α)) (text : List Char) : Prop :=
  ∃ mid, r.Reads text (· = none) mid

theorem Misses.givenBack {α : Type} {r : Reader (Option α)} (h : Misses r text) :
    (rewindUnless Option.isSome r).Reads text (· = none) text := by
  obtain ⟨mid, hr⟩ := h
  exact hr.givenBack fun _ ha ↦ ha ▸ rfl

def Missing {α : Type} (r : Reader (Option α)) (c : Cursor) : Prop := ∃ d, r c = .ok none d

theorem Misses.missing {α : Type} {r : Reader (Option α)} (h : Misses r text) (p : Position) :
    Missing r ⟨text, p⟩ := by
  obtain ⟨mid, hr⟩ := h
  obtain ⟨_, d, hd, rfl, -⟩ := hr p
  exact ⟨d, hd⟩

section

variable {kinds : List K} {c d : Cursor}

theorem firstKind_cons {first : K} (h : Missing (read first) c) :
    firstKind read (first :: kinds) c = (firstKind read kinds >>= fun found ↦
      pure (found.map fun (m, v) ↦
        ((⟨m.1, List.mem_cons_of_mem first m.2⟩ : {k // k ∈ first :: kinds}), v))) c := by
  obtain ⟨d, hd⟩ := h
  rw [firstKind, bind_apply, rewindUnless, hd]
  rfl

theorem firstKind_of_missing (h : ∀ k ∈ kinds, Missing (read k) c) :
    firstKind read kinds c = .ok none c := by
  induction kinds with
  | nil => rfl
  | cons first kinds ih =>
    have hmore := ih fun k hk ↦ h k (.tail first hk)
    rw [firstKind_cons (h first List.mem_cons_self), bind_apply, hmore]
    rfl

theorem firstKind_of_found (hk : k ∈ kinds) (h : read k c = .ok (some v) d)
    (hmiss : ∀ other, other ≠ k → Missing (read other) c) :
    ∃ m : {k // k ∈ kinds}, m.1 = k ∧ firstKind read kinds c = .ok (some (m, v)) d := by
  induction kinds with
  | nil => cases hk
  | cons first kinds ih =>
    by_cases hfirst : first = k
    · subst hfirst
      refine ⟨⟨first, List.mem_cons_self⟩, rfl, ?_⟩
      simp [firstKind, bind_apply, rewindUnless, h, pure, EStateM.pure]
    · obtain ⟨m, rfl, hm⟩ := ih ((List.mem_cons.1 hk).resolve_left (Ne.symm hfirst))
      refine ⟨⟨m.1, List.mem_cons_of_mem first m.2⟩, rfl, ?_⟩
      rw [firstKind_cons (hmiss first hfirst), bind_apply, hm]
      rfl

theorem firstKind_of_error {e : Failure} (hk : k ∈ kinds) (h : read k c = .error e d)
    (hmiss : ∀ other, other ≠ k → Missing (read other) c) :
    firstKind read kinds c = .error e d := by
  induction kinds with
  | nil => cases hk
  | cons first kinds ih =>
    by_cases hfirst : first = k
    · subst hfirst
      simp [firstKind, bind_apply, rewindUnless, h]
    · have hmore := ih ((List.mem_cons.1 hk).resolve_left (Ne.symm hfirst))
      rw [firstKind_cons (hmiss first hfirst), bind_apply, hmore]

end

theorem reads_firstKind {kinds : List K} (hk : k ∈ kinds)
    (h : (read k).Reads text (· = some v) rest)
    (hmiss : ∀ other, other ≠ k → Misses (read other) text) :
    (firstKind read kinds).Reads text (fun found ↦ ∃ m, m.1 = k ∧ found = some (m, v)) rest := by
  intro p
  obtain ⟨_, d, hread, rfl, hd⟩ := h p
  obtain ⟨m, hm, hfirst⟩ := firstKind_of_found hk hread fun other ho ↦ (hmiss other ho).missing p
  exact ⟨_, d, hfirst, ⟨m, hm, rfl⟩, hd⟩

theorem reads_noKind (kinds : List K) (hmiss : ∀ k, Misses (read k) text) :
    (firstKind read kinds).Reads text (· = none) text :=
  fun p ↦ ⟨none, ⟨text, p⟩, firstKind_of_missing fun k _ ↦ (hmiss k).missing p, rfl, rfl⟩

/-- One of the kinds, behind some space. -/
def spacedKind (read : K → Reader (Option V)) (kinds : List K) :
    Reader (Option ({k // k ∈ kinds} × V)) := do
  if ← someSpace then firstKind read kinds else return none

theorem spacedKind_apply (kinds : List K) (c : Cursor) : spacedKind read kinds c =
    if c.next?.any isHorizontalSpace then firstKind read kinds (c.skip isHorizontalSpace)
    else .ok none (c.skip isHorizontalSpace) := by
  rw [spacedKind, bind_apply, someSpace_apply]
  cases c.next?.any isHorizontalSpace <;> rfl

def Unmodified (read : K → Reader (Option V)) (text : List Char) : Prop :=
  BehindSpace (fun body ↦ ∀ k, Misses (read k) body) text

theorem Unmodified.misses (h : Unmodified read text) (kinds : List K) :
    Misses (spacedKind read kinds) text := by
  rcases h with hu | ⟨body, rfl, hu, hmiss⟩
  · exact ⟨text, (reads_someSpace_none hu).bindEq (.pure rfl)⟩
  · exact ⟨body, (reads_someSpace hu).bindEq (reads_noKind kinds hmiss)⟩

theorem reads_spacedKind {kinds : List K} {gap : List Char} (hg : Gap gap) (hu : Unspaced text)
    (hk : k ∈ kinds) (h : (read k).Reads text (· = some v) mid)
    (hmiss : ∀ other, other ≠ k → Misses (read other) text) :
    (rewindUnless Option.isSome (spacedKind read kinds)).Reads (gap ++ text)
      (fun found ↦ ∃ m, m.1 = k ∧ found = some (m, v)) mid := by
  have hfound : (spacedKind read kinds).Reads (gap ++ text)
      (fun found ↦ ∃ m, m.1 = k ∧ found = some (m, v)) mid :=
    (reads_gap hg hu).bindEq (reads_firstKind hk h hmiss)
  exact hfound.kept fun _ ⟨_, _, ha⟩ ↦ ha ▸ rfl

variable [DecidableEq K]

theorem reads_noModifiers (h : Unmodified read text) (kinds : List K) :
    (modifiers read kinds).Reads text (· = []) text := by
  rw [modifiers]
  exact (h.misses kinds).givenBack.bindEq (.pure rfl)

theorem reads_modifier {kinds : List K} {given : List (K × V)} (hk : k ∈ kinds) (hu : Unspaced text)
    (h : (read k).Reads text (· = some v) mid)
    (hmiss : ∀ other, other ≠ k → Misses (read other) text)
    (hmore : (modifiers read (kinds.erase k)).Reads mid (· = given) rest) :
    (modifiers read kinds).Reads (' ' :: text) (· = (k, v) :: given) rest := by
  rw [modifiers]
  refine (reads_spacedKind gap_space hu hk h hmiss).bind fun found hm ↦ ?_
  obtain ⟨m, rfl, rfl⟩ := hm
  exact hmore.bindEq (.pure rfl)

/-- Modifiers of different kinds are read as they were written, one after the other. -/
theorem reads_modifiers {render : K × V → List Char} {given : List (K × V)}
    (hunspaced : ∀ g ∈ given, ∀ tail, Unspaced (render g ++ tail))
    (hread : ∀ g ∈ given, ∀ tail, EndsWord tail →
      (read g.1).Reads (render g ++ tail) (· = some g.2) tail)
    (hmiss : ∀ g ∈ given, ∀ tail, EndsWord tail → ∀ k, k ≠ g.1 → Misses (read k) (render g ++ tail))
    (hdistinct : (given.map Prod.fst).Nodup) (hrest : EndsWord rest) (hend : Unmodified read rest)
    {kinds : List K} (hkinds : ∀ g ∈ given, g.1 ∈ kinds) :
    (modifiers read kinds).Reads (spaced render given ++ rest) (· = given) rest := by
  induction given generalizing kinds with
  | nil => exact reads_noModifiers hend kinds
  | cons g given ih =>
    have hmem : g ∈ g :: given := List.mem_cons_self
    have hafter := endsWord_spaced render given hrest
    rw [List.map_cons, List.nodup_cons] at hdistinct
    have hmore : (modifiers read (kinds.erase g.1)).Reads (spaced render given ++ rest)
        (· = given) rest := by
      refine ih (fun g' hg ↦ hunspaced g' (.tail g hg)) (fun g' hg ↦ hread g' (.tail g hg))
        (fun g' hg ↦ hmiss g' (.tail g hg)) hdistinct.2 fun g' hg ↦ ?_
      have hne : g'.1 ≠ g.1 := fun he ↦ hdistinct.1 (he ▸ List.mem_map_of_mem hg)
      exact (List.mem_erase_of_ne hne).2 (hkinds g' (.tail g hg))
    rw [spaced_cons]
    exact reads_modifier (hkinds g hmem) (hunspaced g hmem _) (hread g hmem _ hafter)
      (hmiss g hmem _ hafter) hmore

end

end Reader

namespace Flag

variable {rest : List Char}

theorem unspaced (flag : Flag) (tail : List Char) : Unspaced (flag.keyword.toList ++ tail) := by
  cases flag with
  | migrationOnly => exact .of_head (x := 'M') (by decide) _
  | safeToRemove => exact .of_head (x := 'S') (by decide) _

theorem misses_of_no_keyword {flag : Flag} {text : List Char}
    (h : ¬flag.keyword.toList <+: text) : Reader.Misses flag.reader text :=
  ⟨text, (Reader.reads_noLiteral h).bindEq (.pure rfl)⟩

theorem keyword_unlike {flag other : Flag} (h : other ≠ flag) (tail : List Char) :
    ¬other.keyword.toList <+: flag.keyword.toList ++ tail := by
  cases flag <;> cases other <;> simp [keyword] at h ⊢

theorem reads_group {given : List (Flag × Unit)} (hdistinct : (given.map Prod.fst).Nodup)
    (hrest : EndsWord rest) (hend : Reader.Unmodified reader rest) :
    group.Reads (spaced render given ++ rest) (· = given) rest := by
  apply Reader.reads_modifiers
  · intro g _ tail
    exact g.1.unspaced tail
  · intro g _ tail _
    exact (Reader.reads_literal _ tail).bindEq (.pure rfl)
  · intro g _ tail _ other hne
    exact misses_of_no_keyword (keyword_unlike hne tail)
  · exact hdistinct
  · exact hrest
  · exact hend
  · intro g _
    cases g.1 <;> decide

end Flag

namespace Setting

variable {text rest : List Char}

def Admits : Setting → Value → Prop
  | maxLen, .integer n => n < 0x8000000000000000
  | maxLen, .text _ => False
  | _, .text t => Writable t
  | _, .integer _ => False

theorem integer?_toDigits {n : Nat} (h : n < 0x8000000000000000) :
    integer? (Nat.toDigits 10 n) = some n := by
  have hdigits : (Nat.toDigits 10 n).all Char.isDigit := by
    rw [List.all_eq_true]
    intro c hc
    exact Nat.isDigit_of_mem_toDigits (by omega) (by omega) hc
  have hdecimal : decimal (Nat.toDigits 10 n) = n := Nat.ofDigitChars_toDigits (by omega) (by omega)
  have hne : (Nat.toDigits 10 n).isEmpty = false := by
    rw [List.isEmpty_eq_false_iff]
    exact Nat.toDigits_ne_nil
  have hmax : n ≤ maxInteger := Nat.le_pred_of_lt h
  rw [integer?, hdecimal, hdigits, hne, if_pos]
  exact decide_eq_true hmax

theorem Admits.word {setting : Setting} {value : Value} (h : setting.Admits value) :
    value.render ≠ [] ∧ (∀ c ∈ value.render, isIdentChar c) ∧
      setting.value? value.render = some value := by
  cases value with
  | text t =>
    cases setting with
    | default | sql | sqlType =>
      refine ⟨h.ne_nil, h.continues, ?_⟩
      rw [Value.render, value?, String.ofList_toList]
      intro he
      cases he
    | maxLen => cases h
  | integer n =>
    cases setting with
    | default | sql | sqlType => cases h
    | maxLen =>
      refine ⟨Nat.toDigits_ne_nil, fun c hc ↦ ?_, ?_⟩
      · exact isIdentChar_of_isDigit (Nat.isDigit_of_mem_toDigits (by omega) (by omega) hc)
      · rw [Value.render, value?, integer?_toDigits h]
        rfl

theorem reads_rendered {setting : Setting} {value : Value} (h : setting.Admits value)
    (hr : EndsWord rest) :
    setting.reader.Reads (render (setting, value) ++ rest) (· = some value) rest := by
  obtain ⟨hne, hword, hvalue⟩ := h.word
  have hunspaced := unspaced_word hne hword rest
  rw [render, List.append_assoc]
  refine (Reader.reads_literal _ _).bindEq ?_
  refine (Reader.reads_noSpace (.of_head (by decide) _)).bindEq ?_
  refine (Reader.reads_literal "=" _).bindEq ?_
  refine (Reader.reads_noSpace hunspaced).bindEq ?_
  refine Reader.Reads.position.bind fun start _ ↦ ?_
  refine (Reader.reads_token hne hword hr).bindEq ?_
  simp only [hvalue]
  exact .pure rfl

theorem unspaced (setting : Setting) (tail : List Char) :
    Unspaced (setting.keyword.toList ++ tail) := by
  cases setting with
  | default => exact .of_head (x := 'd') (by decide) _
  | sql | sqlType => exact .of_head (x := 's') (by decide) _
  | maxLen => exact .of_head (x := 'm') (by decide) _

theorem misses_of_no_keyword {setting : Setting} (h : ¬setting.keyword.toList <+: text) :
    Reader.Misses setting.reader text :=
  ⟨text, (Reader.reads_noLiteral h).bindEq (.pure rfl)⟩

/-- A setting is not taken for another one. The word of one begins like the word of another; there
it is the equals sign that is missing. -/
theorem misses_rendered {setting other : Setting} (h : other ≠ setting) (value : Value)
    (tail : List Char) : Reader.Misses other.reader (render (setting, value) ++ tail) := by
  by_cases hsql : other = sql ∧ setting = sqlType
  · obtain ⟨rfl, rfl⟩ := hsql
    let behind := "type".toList ++ ('=' :: value.render ++ tail)
    have htext : render (sqlType, value) ++ tail = "sql".toList ++ behind := by
      have hword : sqlType.keyword.toList = "sql".toList ++ "type".toList := by decide
      rw [render, hword, List.append_assoc, List.append_assoc]
    rw [htext]
    refine ⟨behind, (Reader.reads_literal "sql" behind).bindEq ?_⟩
    refine (Reader.reads_noSpace (.of_head (x := 't') (by decide) _)).bindEq ?_
    refine (Reader.reads_noLiteral ?_).bindEq (.pure rfl)
    simp
  · apply misses_of_no_keyword
    rw [render, List.append_assoc]
    cases setting <;> cases other <;> simp [keyword] at h hsql ⊢

theorem reads_group {given : List (Setting × Value)} (hadmits : ∀ g ∈ given, g.1.Admits g.2)
    (hdistinct : (given.map Prod.fst).Nodup) (hrest : EndsWord rest) (hu : Unspaced rest) :
    group.Reads (spaced render given ++ rest) (· = given) rest := by
  apply Reader.reads_modifiers
  · intro g _ tail
    rw [render, List.append_assoc]
    exact g.1.unspaced _
  · intro g hg tail htail
    exact reads_rendered (hadmits g hg) htail
  · intro g _ tail _ other hne
    exact misses_rendered hne g.2 tail
  · exact hdistinct
  · exact hrest
  · exact .inl hu
  · intro g _
    cases g.1 <;> decide

end Setting

end EntityModels
