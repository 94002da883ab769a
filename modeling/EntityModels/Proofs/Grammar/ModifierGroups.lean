import EntityModels.Proofs.Grammar.BadFields

namespace EntityModels

namespace Flag

theorem isGroup : Reader.IsGroup reader all where
  forward := reader_forward
  exclusive c k hk l hl := by
    by_cases h : k.keyword.toList <+: c.rest
    · obtain ⟨tail, htail⟩ := h
      exact (misses_of_no_keyword (htail ▸ keyword_unlike hl tail)).missing c.position
    · exact absurd ((misses_of_no_keyword h).missing c.position) hk
  nodup := by decide
  complete flag := by cases flag <;> decide

theorem group_ne_error (c d : Cursor) (e : Failure) : group c ≠ .error e d := by
  intro h
  obtain ⟨given, mid, k, -, -, -, hbad⟩ := isGroup.modifiers_error_iff.1 h
  rw [reader, bind_apply, Reader.literal_apply] at hbad
  cases hword : k.keyword.toList.isPrefixOf? (mid.skip isHorizontalSpace).rest <;>
    simp [hword] at hbad <;> cases hbad

end Flag

namespace Modifier

open Reader

/-- A group binds each kind at most once and all it can, one modifier behind the other, and it ends
in front of a kind that it has bound. Flags are never refused. Settings are refused only for a
length that is no number, where no length is bound yet. -/
theorem groups_exact (c : Cursor) :
    (∀ found d, Flag.group c = .ok found d ↔
      ∃ given, BindsAll Flag.reader c given d ∧ found = given.map Modifier.found) ∧
    (∀ found d, Setting.group c = .ok found d ↔
      ∃ given, BindsAll Setting.reader c given d ∧ found = given.map Modifier.found) ∧
    (∀ e d, Flag.group c ≠ .error e d) ∧
    (∀ e d, Setting.group c = .error e d ↔ ∃ given mid, BindsOnce Setting.reader c given mid ∧
      .maxLen ∉ given.map Modifier.kind ∧ mid.next?.any isHorizontalSpace ∧
        Setting.maxLen.reader (mid.skip isHorizontalSpace) = .error e d) ∧
    (∀ e d, Setting.group c = .error e d → e.cause = .invalidInteger ∧ e.fatal) ∧
    (∀ given d flag gap tail, BindsOnce Flag.reader c given d → flag ∈ given.map Modifier.kind →
      Gap gap → d.rest = gap ++ (flag.keyword.toList ++ tail) →
        Flag.group c = .ok (given.map Modifier.found) d) ∧
    ∀ given d setting gap before tail, BindsOnce Setting.reader c given d →
      setting ∈ given.map Modifier.kind → Gap gap → (∀ x ∈ before, isHorizontalSpace x) →
        d.rest = gap ++ (setting.keyword.toList ++ (before ++ '=' :: tail)) →
          Setting.group c = .ok (given.map Modifier.found) d := by
  refine ⟨fun _ _ ↦ Flag.isGroup.modifiers_ok_iff, fun _ _ ↦ Setting.isGroup.modifiers_ok_iff,
    fun e d ↦ Flag.group_ne_error c d e, fun _ _ ↦ Setting.group_eq_error_iff, ?_, ?_, ?_⟩
  · intro e d h
    obtain ⟨given, mid, -, -, -, hbad⟩ := Setting.group_eq_error_iff.1 h
    obtain ⟨-, token, rest, p, -, -, rfl⟩ := Setting.assigns_of_error hbad
    exact ⟨rfl, rfl⟩
  · intro given d flag gap tail hbinds hflag hgap hd
    exact Flag.isGroup.modifiers_of_repeated hbinds hflag hgap (flag.unspaced tail) hd
      fun other hne ↦ Flag.misses_of_no_keyword (Flag.keyword_unlike hne tail)
  · intro given d setting gap before tail hbinds hsetting hgap hbefore hd
    have hannounced : setting.Announces (setting.keyword.toList ++ (before ++ '=' :: tail)) :=
      ⟨before, tail, rfl, hbefore⟩
    exact Setting.isGroup.modifiers_of_repeated hbinds hsetting hgap (setting.unspaced _) hd
      fun other hne ↦ hannounced.misses hne

theorem settings_of_repeated_length :
    Setting.group (.ofText " maxlen=5 maxlen=y\n".toList) =
      .ok [(.maxLen, .integer 5)] ⟨" maxlen=y\n".toList, ⟨1, 10, 9⟩⟩ := by
  let c : Cursor := .ofText " maxlen=5 maxlen=y\n".toList
  let d : Cursor := ⟨" maxlen=y\n".toList, ⟨1, 10, 9⟩⟩
  let length : Modifier Setting Setting.Value := ⟨[' '], "maxlen=5".toList, .maxLen, .integer 5⟩
  have hread : Setting.maxLen.reader (c.past [' '] (length.text ++ d.rest)) =
      .ok (some (.integer 5)) d := rfl
  have hlength : length.ReadAt Setting.reader c d :=
    ⟨gap_space, Setting.maxLen.unspaced _, rfl, rfl, hread⟩
  obtain ⟨-, -, -, -, -, -, hrepeated⟩ := groups_exact c
  exact hrepeated [length] d .maxLen [' '] [] ['y', '\n'] ⟨.more hlength (.done d), by decide⟩
    (by decide) gap_space (by simp) rfl

end Modifier

end EntityModels
