import EntityModels.Proofs.Grammar.Commitment
import EntityModels.Proofs.Grammar.Modifiers
import Mathlib.Data.List.Nodup

namespace EntityModels

/-- A modifier where it stands: the space in front of it, its text, and what is read of it. -/
structure Modifier (K V : Type) where
  gap : List Char
  text : List Char
  kind : K
  value : V

theorem Cursor.behind_gap {c : Cursor} {gap body : List Char} (hc : c.rest = gap ++ body)
    (hgap : Gap gap) (hbody : Unspaced body) :
    c.next?.any isHorizontalSpace ∧ c.skip isHorizontalSpace = c.past gap body :=
  ⟨by simpa [next?, hc] using hgap.head_any body, skip_eq_past hc hgap.2 hbody⟩

namespace Modifier

variable {K V : Type}

def written (m : Modifier K V) : List Char := m.gap ++ m.text

def found (m : Modifier K V) : K × V := (m.kind, m.value)

structure ReadAt (read : K → Reader (Option V)) (m : Modifier K V) (c d : Cursor) : Prop where
  gap : Gap m.gap
  unspaced : Unspaced (m.text ++ d.rest)
  text_eq : c.rest = m.gap ++ (m.text ++ d.rest)
  position_eq : d.position = c.position.after m.written
  read_eq : read m.kind (c.past m.gap (m.text ++ d.rest)) = .ok (some m.value) d

end Modifier

namespace Reader

section

variable {K V : Type} {read : K → Reader (Option V)}

/-- The modifiers are read from one place to the other, each where the one before it ends. -/
inductive Binds (read : K → Reader (Option V)) : Cursor → List (Modifier K V) → Cursor → Prop where
  | done (c : Cursor) : Binds read c [] c
  | more {m : Modifier K V} {c mid d : Cursor} {given : List (Modifier K V)} :
      m.ReadAt read c mid → Binds read mid given d → Binds read c (m :: given) d

structure BindsOnce (read : K → Reader (Option V)) (c : Cursor) (given : List (Modifier K V))
    (d : Cursor) : Prop where
  binds : Binds read c given d
  distinct : (given.map Modifier.kind).Nodup

def EndsAt (read : K → Reader (Option V)) (left : K → Prop) (c : Cursor) : Prop :=
  c.next?.any isHorizontalSpace → ∀ k, left k → Missing (read k) (c.skip isHorizontalSpace)

theorem EndsAt.of_unspaced {left : K → Prop} {c : Cursor} (h : Unspaced c.rest) :
    EndsAt read left c := fun hs ↦ absurd (h.symm.trans hs) Bool.false_ne_true

/-- Where a modifier of one kind is read or refused, there is none of the other kinds. -/
def Exclusive (read : K → Reader (Option V)) : Prop :=
  ∀ c k, ¬Missing (read k) c → ∀ l, l ≠ k → Missing (read l) c

theorem not_missing_of_found {r : Reader (Option V)} {c d : Cursor} {v : V}
    (h : r c = .ok (some v) d) : ¬Missing r c := by
  rintro ⟨u, hu⟩
  cases hu.symm.trans h

theorem not_missing_of_error {r : Reader (Option V)} {c d : Cursor} {e : Failure}
    (h : r c = .error e d) : ¬Missing r c := by
  rintro ⟨u, hu⟩
  cases hu.symm.trans h

theorem Binds.text_eq {c d : Cursor} {given : List (Modifier K V)} (h : Binds read c given d) :
    c.rest = given.flatMap Modifier.written ++ d.rest ∧
      d.position = c.position.after (given.flatMap Modifier.written) := by
  induction h with
  | done c => simp
  | more hm _ ih =>
    obtain ⟨htext, hposition⟩ := ih
    constructor
    · rw [hm.text_eq, htext]
      simp [Modifier.written]
    · rw [hposition, hm.position_eq]
      simp

/-- What a group takes of a text: modifiers of different kinds in a row, as many as there are. -/
structure BindsAll (read : K → Reader (Option V)) (c : Cursor) (given : List (Modifier K V))
    (d : Cursor) : Prop extends BindsOnce read c given d where
  text_eq : c.rest = given.flatMap Modifier.written ++ d.rest
  position_eq : d.position = c.position.after (given.flatMap Modifier.written)
  ends : EndsAt read (· ∉ given.map Modifier.kind) d

theorem BindsOnce.bindsAll {c d : Cursor} {given : List (Modifier K V)}
    (h : BindsOnce read c given d) (hend : EndsAt read (· ∉ given.map Modifier.kind) d) :
    BindsAll read c given d :=
  ⟨h, h.binds.text_eq.1, h.binds.text_eq.2, hend⟩

variable {kinds : List K} {c d : Cursor}

theorem exists_readAt {k : K} {v : V} (hf : Forward (read k))
    (hs : c.next?.any isHorizontalSpace)
    (h : read k (c.skip isHorizontalSpace) = .ok (some v) d) :
    ∃ m : Modifier K V, m.ReadAt read c d ∧ m.kind = k ∧ m.value = v := by
  obtain ⟨gap, body, hrest, hgap, hbody⟩ := exists_gap hs
  rw [Cursor.skip_eq_past hrest hgap.2 hbody] at h
  obtain ⟨text, rfl, hposition⟩ := hf.leads h
  refine ⟨⟨gap, text, k, v⟩, ⟨hgap, hbody, hrest, ?_, h⟩, rfl, rfl⟩
  simpa [Modifier.written, Cursor.past] using hposition

variable [DecidableEq K]

theorem modifiers_of_endsAt (h : EndsAt read (· ∈ kinds) c) :
    modifiers read kinds c = .ok [] c := by
  have hspaced : ∃ u, spacedKind read kinds c = .ok none u := by
    rw [spacedKind_apply]
    split
    · next hs => exact ⟨_, firstKind_of_missing (h hs)⟩
    · exact ⟨_, rfl⟩
  obtain ⟨u, hu⟩ := hspaced
  have hnone : rewindUnless Option.isSome (spacedKind read kinds) c = .ok none c := by
    simp [rewindUnless, hu]
  rw [modifiers]
  exact bind_of_ok hnone _

theorem modifiers_of_readAt {m : Modifier K V} (hx : Exclusive read) (hm : m.ReadAt read c d)
    (hk : m.kind ∈ kinds) :
    modifiers read kinds c = ((m.found :: ·) <$> modifiers read (kinds.erase m.kind)) d := by
  obtain ⟨hs, hskip⟩ := Cursor.behind_gap hm.text_eq hm.gap hm.unspaced
  have hothers := hx _ _ (not_missing_of_found hm.read_eq)
  obtain ⟨⟨_, hk'⟩, rfl, hfound⟩ := firstKind_of_found hk hm.read_eq hothers
  have hspaced : spacedKind read kinds c = .ok (some (⟨m.kind, hk'⟩, m.value)) d := by
    rw [spacedKind_apply, if_pos hs, hskip, hfound]
  have hkept : rewindUnless Option.isSome (spacedKind read kinds) c =
      .ok (some (⟨m.kind, hk'⟩, m.value)) d := by
    simp [rewindUnless, hspaced]
  rw [modifiers, map_apply]
  refine (bind_of_ok hkept _).trans ?_
  simp only [bind_apply]
  cases modifiers read (kinds.erase m.kind) d <;> rfl

theorem modifiers_of_error {k : K} {e : Failure} (hx : Exclusive read) (hk : k ∈ kinds)
    (hs : c.next?.any isHorizontalSpace) (h : read k (c.skip isHorizontalSpace) = .error e d) :
    modifiers read kinds c = .error e d := by
  have hspaced : spacedKind read kinds c = .error e d := by
    rw [spacedKind_apply, if_pos hs, firstKind_of_error hk h (hx _ k (not_missing_of_error h))]
  have hkept : rewindUnless Option.isSome (spacedKind read kinds) c = .error e d := by
    simp [rewindUnless, hspaced]
  rw [modifiers]
  exact bind_of_error hkept _

theorem mem_erase_of_distinct {m : Modifier K V} {given : List (Modifier K V)}
    (hdistinct : ((m :: given).map Modifier.kind).Nodup)
    (hkinds : ∀ other ∈ m :: given, other.kind ∈ kinds) :
    ∀ other ∈ given, other.kind ∈ kinds.erase m.kind := by
  intro other ho
  rw [List.map_cons, List.nodup_cons] at hdistinct
  have hne : other.kind ≠ m.kind := fun he ↦ hdistinct.1 (he ▸ List.mem_map_of_mem ho)
  exact (List.mem_erase_of_ne hne).2 (hkinds other (.tail m ho))

/-- Behind modifiers that are bound, a group is left with the kinds that are not. -/
theorem BindsOnce.modifiers_eq {given : List (Modifier K V)} (hx : Exclusive read)
    (h : BindsOnce read c given d) (hkinds : ∀ m ∈ given, m.kind ∈ kinds) :
    modifiers read kinds c = ((given.map Modifier.found ++ ·) <$>
      modifiers read (kinds.diff (given.map Modifier.kind))) d := by
  obtain ⟨hbinds, hdistinct⟩ := h
  -- the kinds that are left change with each modifier, and what is bound behind it is among them
  induction hbinds generalizing kinds with
  | done c => simp
  | @more m c mid d given hm _ ih =>
    have hmore := ih (mem_erase_of_distinct hdistinct hkinds) (List.nodup_cons.1 hdistinct).2
    rw [modifiers_of_readAt hx hm (hkinds m List.mem_cons_self), map_apply, hmore, map_apply,
      map_apply, List.map_cons, List.diff_cons]
    cases modifiers read _ d <;> rfl

theorem exists_bindsOnce (hf : ∀ k, Forward (read k)) (hnodup : kinds.Nodup) (c : Cursor) :
    ∃ given d, BindsOnce read c given d ∧ (∀ m ∈ given, m.kind ∈ kinds) ∧
      (EndsAt read (· ∈ kinds.diff (given.map Modifier.kind)) d ∨
        d.next?.any isHorizontalSpace ∧ ∃ k ∈ kinds.diff (given.map Modifier.kind), ∃ e u,
          read k (d.skip isHorizontalSpace) = .error e u) := by
  -- a modifier that is read takes its kind away, so the kinds run out before the text has to
  induction hn : kinds.length using Nat.strongRecOn generalizing kinds c with
  | ind n ih =>
    have hdone : BindsOnce read c [] c := ⟨.done c, List.nodup_nil⟩
    by_cases hend : EndsAt read (· ∈ kinds) c
    · exact ⟨[], c, hdone, by simp, .inl (by simpa using hend)⟩
    obtain ⟨hs, k, hk, hfound⟩ : c.next?.any isHorizontalSpace ∧ ∃ k ∈ kinds,
        ¬Missing (read k) (c.skip isHorizontalSpace) := by
      simpa [EndsAt] using hend
    cases hread : read k (c.skip isHorizontalSpace) with
    | error e u => exact ⟨[], c, hdone, by simp, .inr ⟨hs, k, by simpa using hk, e, u, hread⟩⟩
    | ok v mid =>
      obtain _ | v := v
      · exact absurd ⟨mid, hread⟩ hfound
      obtain ⟨m, hm, rfl, -⟩ := exists_readAt (hf k) hs hread
      obtain ⟨given, d, hgiven, hamong, hlast⟩ :=
        ih _ (hn ▸ length_erase_lt hk) (hnodup.erase m.kind) mid rfl
      refine ⟨m :: given, d, ⟨.more hm hgiven.binds, ?_⟩, ?_, ?_⟩
      · rw [List.map_cons, List.nodup_cons]
        refine ⟨fun hagain ↦ ?_, hgiven.distinct⟩
        obtain ⟨m', hm', he⟩ := List.mem_map.1 hagain
        exact hnodup.not_mem_erase (he ▸ hamong m' hm')
      · rintro m' (_ | ⟨_, hm'⟩)
        · exact hk
        · exact List.mem_of_mem_erase (hamong m' hm')
      · simpa [List.diff_cons] using hlast

/-- All kinds of modifiers of a group, none of which is taken for another. -/
structure IsGroup (read : K → Reader (Option V)) (kinds : List K) : Prop where
  forward : ∀ k, Forward (read k)
  exclusive : Exclusive read
  nodup : kinds.Nodup
  complete : ∀ k, k ∈ kinds

namespace IsGroup

variable {given : List (Modifier K V)}

theorem mem_diff_iff (h : IsGroup read kinds) (given : List (Modifier K V)) (k : K) :
    k ∈ kinds.diff (given.map Modifier.kind) ↔ k ∉ given.map Modifier.kind := by
  simp [h.nodup.mem_sdiff_iff, h.complete]

theorem modifiers_of_bindsAll (h : IsGroup read kinds) (hbinds : BindsAll read c given d) :
    modifiers read kinds c = .ok (given.map Modifier.found) d := by
  have hleft : EndsAt read (· ∈ kinds.diff (given.map Modifier.kind)) d :=
    fun hs k hk ↦ hbinds.ends hs k ((h.mem_diff_iff given k).1 hk)
  rw [hbinds.toBindsOnce.modifiers_eq h.exclusive fun m _ ↦ h.complete m.kind, map_apply,
    Reader.modifiers_of_endsAt hleft]
  simp

theorem modifiers_of_error {mid : Cursor} {k : K} {e : Failure} (h : IsGroup read kinds)
    (hbinds : BindsOnce read c given mid) (hk : k ∉ given.map Modifier.kind)
    (hs : mid.next?.any isHorizontalSpace)
    (hread : read k (mid.skip isHorizontalSpace) = .error e d) :
    modifiers read kinds c = .error e d := by
  have hleft := (h.mem_diff_iff given k).2 hk
  rw [hbinds.modifiers_eq h.exclusive fun m _ ↦ h.complete m.kind, map_apply,
    Reader.modifiers_of_error h.exclusive hleft hs hread]

theorem exists_end (h : IsGroup read kinds) (c : Cursor) : ∃ given d, BindsAll read c given d ∨
    BindsOnce read c given d ∧ d.next?.any isHorizontalSpace ∧ ∃ k ∉ given.map Modifier.kind, ∃ e u,
      read k (d.skip isHorizontalSpace) = .error e u := by
  obtain ⟨given, d, hbinds, -, hlast⟩ := exists_bindsOnce h.forward h.nodup c
  simp only [h.mem_diff_iff given] at hlast
  rcases hlast with hend | hbad
  · exact ⟨given, d, .inl (hbinds.bindsAll hend)⟩
  · exact ⟨given, d, .inr ⟨hbinds, hbad⟩⟩

theorem modifiers_ok_iff (h : IsGroup read kinds) {found : List (K × V)} :
    modifiers read kinds c = .ok found d ↔
      ∃ given, BindsAll read c given d ∧ found = given.map Modifier.found := by
  constructor
  · intro hread
    obtain ⟨given, d', hbinds | ⟨hbinds, hs, k, hk, e, u, hbad⟩⟩ := h.exists_end c
    · cases hread.symm.trans (h.modifiers_of_bindsAll hbinds)
      exact ⟨given, hbinds, rfl⟩
    · cases hread.symm.trans (h.modifiers_of_error hbinds hk hs hbad)
  · rintro ⟨given, hbinds, rfl⟩
    exact h.modifiers_of_bindsAll hbinds

theorem modifiers_error_iff (h : IsGroup read kinds) {e : Failure} :
    modifiers read kinds c = .error e d ↔ ∃ given mid k, BindsOnce read c given mid ∧
      k ∉ given.map Modifier.kind ∧ mid.next?.any isHorizontalSpace ∧
        read k (mid.skip isHorizontalSpace) = .error e d := by
  constructor
  · intro hread
    obtain ⟨given, mid, hbinds | ⟨hbinds, hs, k, hk, e', u, hbad⟩⟩ := h.exists_end c
    · cases hread.symm.trans (h.modifiers_of_bindsAll hbinds)
    · cases hread.symm.trans (h.modifiers_of_error hbinds hk hs hbad)
      exact ⟨given, mid, k, hbinds, hk, hs, hbad⟩
  · rintro ⟨given, mid, k, hbinds, hk, hs, hbad⟩
    exact h.modifiers_of_error hbinds hk hs hbad

/-- A kind that is bound is not looked for again: where only another of it follows, the group has
ended in front of the space. -/
theorem modifiers_of_repeated {gap body : List Char} {k : K} (h : IsGroup read kinds)
    (hbinds : BindsOnce read c given d) (hk : k ∈ given.map Modifier.kind) (hgap : Gap gap)
    (hbody : Unspaced body) (hd : d.rest = gap ++ body)
    (hmiss : ∀ l, l ≠ k → Misses (read l) body) :
    modifiers read kinds c = .ok (given.map Modifier.found) d := by
  apply h.modifiers_of_bindsAll
  refine hbinds.bindsAll fun _ l hl ↦ ?_
  rw [Cursor.skip_eq_past hd hgap.2 hbody]
  exact (hmiss l fun he ↦ hl (he ▸ hk)).missing _

end IsGroup

end

end Reader

end EntityModels
