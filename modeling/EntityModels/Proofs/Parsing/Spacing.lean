import EntityModels.Proofs.Parsing.Abreast
import EntityModels.Proofs.Text.Spacing

namespace EntityModels.Reader

open Unicode

section

variable {α β γ δ : Type} {f : α → γ} {g : β → δ}

/-- The same outcome as far as `f` shows it. Of a failure only its weight is compared. -/
inductive Alike (f : α → γ) :
    EStateM.Result Failure Cursor α → EStateM.Result Failure Cursor α → Prop
  | ok {a b : α} {c d : Cursor} : f a = f b → squeeze c.rest = squeeze d.rest →
    Alike f (.ok a c) (.ok b d)
  | error {e e' : Failure} {c d : Cursor} : e.fatal = e'.fatal → Alike f (.error e c) (.error e' d)

/-- Where the texts differ in their space alone the readers have the same outcome. -/
def SpaceBlind (f : α → γ) (p q : Reader α) : Prop :=
  ∀ c d, squeeze c.rest = squeeze d.rest → Alike f (p c) (q d)

theorem map_eq_map_iff_rel {found found' : Option α} :
    found.map f = found'.map f ↔ Option.Rel (fun a b ↦ f a = f b) found found' := by
  cases found <;> cases found' <;> simp

namespace SpaceBlind

variable {p q : Reader α} {k l : α → Reader β}

theorem iff_abreast : SpaceBlind f p q ↔
    Abreast (fun c d ↦ squeeze c.rest = squeeze d.rest) p q
      fun a b c d ↦ f a = f b ∧ squeeze c.rest = squeeze d.rest := by
  constructor
  · intro h c d hrest
    have hpq := h c d hrest
    generalize p c = r at hpq
    generalize q d = s at hpq
    cases hpq with
    | ok hf hrest' => exact .ok ⟨hf, hrest'⟩
    | error he => exact .error he
  · intro h c d hrest
    have hpq := h c d hrest
    generalize p c = r at hpq
    generalize q d = s at hpq
    cases hpq with
    | ok hr => exact .ok hr.1 hr.2
    | error he => exact .error he

theorem value?_eq (h : SpaceBlind f p q) {c d : Cursor} (hrest : squeeze c.rest = squeeze d.rest) :
    (p.value? c).map f = (q.value? d).map f := by
  have hpq := h c d hrest
  unfold value?
  generalize p c = r at hpq
  generalize q d = s at hpq
  cases hpq with
  | ok hf _ => exact congrArg some hf
  | error _ => rfl

theorem of_error (h : SpaceBlind f p q) {c d t : Cursor} {e : Failure} (hp : p c = .error e t)
    (hrest : squeeze c.rest = squeeze d.rest) :
    ∃ e' u, q d = .error e' u ∧ e.fatal = e'.fatal := by
  have hpq := h c d hrest
  rw [hp] at hpq
  generalize q d = s at hpq
  cases hpq with
  | error he => exact ⟨_, _, rfl, he⟩

theorem pure {a b : α} (h : f a = f b) : SpaceBlind f (pure a) (pure b) :=
  iff_abreast.2 (.pure fun _ _ hrest ↦ ⟨h, hrest⟩)

theorem bind (hp : SpaceBlind f p q) (hk : ∀ a b, f a = f b → SpaceBlind g (k a) (l b)) :
    SpaceBlind g (p >>= k) (q >>= l) :=
  iff_abreast.2 ((iff_abreast.1 hp).bind fun a b c d h ↦ iff_abreast.1 (hk a b h.1) c d h.2)

theorem bindEq (hp : SpaceBlind id p q) (hk : ∀ a, SpaceBlind g (k a) (l a)) :
    SpaceBlind g (p >>= k) (q >>= l) := by
  refine hp.bind fun a b hab ↦ ?_
  obtain rfl : a = b := hab
  exact hk a

theorem ite {p' q' : Reader α} {b : Bool} (hp : SpaceBlind f p q) (hq : SpaceBlind f p' q') :
    SpaceBlind f (if b then p else p') (if b then q else q') :=
  iff_abreast.2 (.ite (fun _ ↦ iff_abreast.1 hp) fun _ ↦ iff_abreast.1 hq)

theorem position : SpaceBlind (fun _ ↦ ()) position position :=
  iff_abreast.2 (Abreast.position.mono fun _ _ _ _ hrest ↦ ⟨rfl, hrest⟩)

theorem mismatch (expected expected' : String) :
    SpaceBlind f (mismatch expected) (mismatch expected') :=
  iff_abreast.2 (.mismatch expected expected')

theorem throw {e e' : Failure} (h : e.fatal = e'.fatal) :
    SpaceBlind f (throw e : Reader α) (throw e') := iff_abreast.2 (.throw h)

theorem takeWhile {test : Char → Bool} (h : ∀ x, isWhiteSpace x → test x = false) :
    SpaceBlind id (takeWhile test) (takeWhile test) := by
  intro c d hrest
  obtain ⟨htake, hdrop⟩ := takeWhile_squeeze h c.rest
  obtain ⟨htake', hdrop'⟩ := takeWhile_squeeze h d.rest
  refine .ok (f := id) ?_ ?_
  · rw [id, id, ← htake, hrest, htake']
  · change squeeze (c.rest.dropWhile test) = squeeze (d.rest.dropWhile test)
    rw [← hdrop, hrest, hdrop']

theorem literal {word : String} (hword : word.toList.all fun x ↦ !isWhiteSpace x) :
    SpaceBlind id (literal word) (literal word) := by
  intro c d hrest
  have h : ∀ x ∈ word.toList, isWhiteSpace x = false := by simpa using hword
  have hfound := isPrefixOf?_squeeze h c.rest
  rw [hrest, isPrefixOf?_squeeze h d.rest] at hfound
  unfold Reader.literal
  cases hc : word.toList.isPrefixOf? c.rest with
  | none =>
    rw [hc] at hfound
    rw [Option.map_eq_none_iff.1 hfound]
    exact .ok rfl hrest
  | some behind =>
    rw [hc] at hfound
    obtain ⟨behind', hd, hbehind⟩ := Option.map_eq_some_iff.1 hfound
    rw [hd]
    exact .ok rfl hbehind.symm

theorem rewindUnless {good : α → Bool} (hp : SpaceBlind f p q)
    (hgood : ∀ a b, f a = f b → good a = good b) :
    SpaceBlind f (rewindUnless good p) (rewindUnless good q) := by
  refine iff_abreast.2 (Abreast.rewindUnless ((iff_abreast.1 hp).mono fun a b c d h ↦ ?_) hgood)
  exact ⟨h.1, fun _ ↦ h.2⟩

theorem committedIf (hp : SpaceBlind f p q) (b : Bool) :
    SpaceBlind f (committedIf b p) (committedIf b q) :=
  iff_abreast.2 ((iff_abreast.1 hp).committedIf b)

theorem orNone (hp : SpaceBlind f p q) : SpaceBlind (Option.map f) (orNone p) (orNone q) := by
  refine iff_abreast.2 ((iff_abreast.1 hp).orNone.mono fun found found' c d h ↦ ?_)
  exact And.imp_left map_eq_map_iff_rel.2 h

/-- A step that moves on wherever it finds something moves on in both texts. -/
theorem collect {step : Reader (Option α)} (hforward : Forward step)
    (hstep : SpaceBlind (Option.map f) step step)
    (hmoves : ∀ c a d, step c = .ok (some a) d → HasCursor.offset c < HasCursor.offset d) :
    SpaceBlind (List.map f) (collect step hforward) (collect step hforward) := by
  have hboth := (iff_abreast.1 hstep).mono fun found found' c d h ↦
    And.imp_left map_eq_map_iff_rel.1 h
  refine iff_abreast.2 ((hboth.collect hforward hforward hmoves hmoves).mono ?_)
  intro as bs c d h
  refine And.imp_left (fun hall ↦ ?_) h
  rwa [← List.forall₂_eq_eq_eq, List.forall₂_map_left_iff, List.forall₂_map_right_iff]

end SpaceBlind

end

end EntityModels.Reader
