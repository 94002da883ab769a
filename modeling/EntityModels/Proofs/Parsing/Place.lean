import EntityModels.Parsing.Choice
import EntityModels.Proofs.Text.Relocation
import EntityModels.Proofs.Text.Lines

namespace EntityModels

namespace Failure

def within (base : Position) (e : Failure) : Failure :=
  { e with position := base.within e.position }

theorem within_within {base p : Position} (hp : p.Genuine) (e : Failure) :
    (e.within p).within base = e.within (base.within p) :=
  congrArg (fun q ↦ { e with position := q }) (Position.within_within hp e.position)

/-- How far a failure got, the fatal ones beyond the others. -/
def reach (e : Failure) : Nat := 2 * e.offset + e.fatal.toNat

theorem beats_iff {e f : Failure} : f.Beats e ↔ e.reach < f.reach := by
  unfold Beats reach
  cases e.fatal <;> cases f.fatal <;> simp <;> omega

theorem farthest_assoc (e f g : Failure) :
    (e.farthest f).farthest g = e.farthest (f.farthest g) := by
  simp only [farthest, beats_iff]
  by_cases hf : e.reach < f.reach <;> by_cases hg : f.reach < g.reach
  · rw [if_pos hf, if_pos hg, if_pos (Nat.lt_trans hf hg)]
  · rw [if_pos hf, if_neg hg, if_pos hf]
  · rw [if_neg hf, if_pos hg]
  · have he : ¬e.reach < g.reach := by omega
    rw [if_neg hf, if_neg hg, if_neg hf, if_neg he]

theorem farthest_self (e : Failure) : e.farthest e = e := ite_self _

theorem farthest_within (base : Position) (e f : Failure) :
    (e.within base).farthest (f.within base) = (e.farthest f).within base := by
  have h : (f.within base).Beats (e.within base) ↔ f.Beats e := by
    simp [Beats, Failure.offset, Failure.within]
  by_cases hb : f.Beats e
  · simp only [farthest, if_pos hb, if_pos (h.2 hb)]
  · simp only [farthest, if_neg hb, if_neg fun k ↦ hb (h.1 k)]

/-- What is to be kept of two failures that were noted, the older one first. -/
def merge : Option Failure → Option Failure → Option Failure
  | none, f => f
  | some e, none => some e
  | some e, some f => some (e.farthest f)

@[simp] theorem merge_none (e : Option Failure) : merge e none = e := by cases e <;> rfl

theorem merge_assoc (e f g : Option Failure) : merge (merge e f) g = merge e (merge f g) := by
  cases e <;> cases f <;> cases g <;> simp [merge, farthest_assoc]

theorem map_merge (base : Position) (e f : Option Failure) :
    (merge e f).map (within base) = merge (e.map (within base)) (f.map (within base)) := by
  cases e <;> cases f <;> simp [merge, farthest_within]

end Failure

theorem ParserState.record_eq (s : ParserState) (e : Failure) :
    s.record e = { s with farthest := Failure.merge s.farthest (some e) } := by
  obtain ⟨c, f⟩ := s
  cases f <;> rfl

theorem dropWhile_ne_nil {p : Char → Bool} {text : List Char} {x : Char} (hx : x ∈ text)
    (hp : p x = false) : text.dropWhile p ≠ [] := by
  intro hd
  have hw := List.takeWhile_append_dropWhile (p := p) (l := text)
  rw [hd, List.append_nil] at hw
  have : p x = true := List.all_eq_true.1 List.all_takeWhile _ (hw.symm ▸ hx)
  simp [hp] at this

/-- What is around a text: where it begins, what follows it and what was noted in front of it. -/
structure Place where
  base : Position
  tail : List Char
  noted : Option Failure

namespace Cursor

def within (place : Place) (c : Cursor) : Cursor :=
  ⟨c.rest ++ place.tail, place.base.within c.position⟩

/-- The line ends in the text, or the text ends where what is around it does. -/
def Fits (place : Place) (c : Cursor) : Prop :=
  c.position.Genuine ∧ ('\n' ∈ c.rest ∨ place.tail = [])

/-- `d` lies ahead of `c` on the same line, or is `c` itself. -/
def LeadsAlong (c d : Cursor) : Prop :=
  ∃ text, '\n' ∉ text ∧ c.rest = text ++ d.rest ∧ d.position = c.position.after text

variable {place : Place} {c d e : Cursor}

theorem LeadsAlong.refl (c : Cursor) : c.LeadsAlong c := ⟨[], by simp, rfl, rfl⟩

theorem LeadsAlong.trans (h : c.LeadsAlong d) (k : d.LeadsAlong e) : c.LeadsAlong e := by
  obtain ⟨s, hs, hr, hp⟩ := h
  obtain ⟨t, ht, hq, hu⟩ := k
  refine ⟨s ++ t, by simp [hs, ht], by rw [hr, hq, List.append_assoc], ?_⟩
  rw [hu, hp, Position.after_append]

theorem LeadsAlong.past {text rest : List Char} (h : c.rest = text ++ rest) (hn : '\n' ∉ text) :
    c.LeadsAlong (c.past text rest) := ⟨text, hn, h, rfl⟩

theorem LeadsAlong.skip (c : Cursor) {p : Char → Bool} (hp : p '\n' = false) :
    c.LeadsAlong (c.skip p) := by
  refine past List.takeWhile_append_dropWhile.symm fun h ↦ ?_
  have := List.all_eq_true.1 List.all_takeWhile _ h
  simp [hp] at this

theorem Fits.along (h : c.Fits place) (k : c.LeadsAlong d) : d.Fits place := by
  obtain ⟨text, hn, hr, hp⟩ := k
  refine ⟨hp ▸ h.1.after text, h.2.imp_left fun hm ↦ ?_⟩
  rw [hr, List.mem_append] at hm
  exact hm.resolve_left hn

theorem LeadsAlong.nextLine_eq (h : c.LeadsAlong d) : d.nextLine = c.nextLine := by
  obtain ⟨text, hn, hr, hp⟩ := h
  have hpos : ∀ x ∈ text, (x != '\n') = true := fun x hx ↦ by
    simpa using fun he : x = '\n' ↦ hn (he ▸ hx)
  simp only [nextLine, firstLine, afterLine, hr, hp, Cursor.past,
    List.takeWhile_append_of_pos hpos, List.dropWhile_append_of_pos hpos, Position.after_append]

theorem Fits.takeWhile_eq (h : c.Fits place) {p : Char → Bool} (hp : p '\n' = false) :
    (c.rest ++ place.tail).takeWhile p = c.rest.takeWhile p ∧
      (c.rest ++ place.tail).dropWhile p = c.rest.dropWhile p ++ place.tail := by
  rcases h.2 with hm | ht
  · have hne := dropWhile_ne_nil hm hp
    have hl : (c.rest.takeWhile p).length ≠ c.rest.length := by
      intro hl
      have hw := congrArg List.length (List.takeWhile_append_dropWhile (p := p) (l := c.rest))
      rw [List.length_append] at hw
      exact hne (List.length_eq_zero_iff.1 (by omega))
    rw [List.takeWhile_append, List.dropWhile_append, if_neg hl,
      if_neg (by simpa [List.isEmpty_iff] using hne)]
    exact ⟨rfl, rfl⟩
  · simp [ht]

theorem Fits.skip_eq (h : c.Fits place) {p : Char → Bool} (hp : p '\n' = false) :
    (c.within place).skip p = (c.skip p).within place := by
  obtain ⟨ht, hd⟩ := h.takeWhile_eq hp
  simp only [skip, past, within, ht, hd, Position.within_after _ h.1]

theorem Fits.nextLine_eq (h : c.Fits place) :
    (c.within place).nextLine = c.nextLine.within place := by
  obtain ⟨ht, hd⟩ := h.takeWhile_eq (p := (· != '\n')) (by decide)
  have hcut : ((c.rest ++ place.tail).dropWhile (· != '\n')).take 1 =
        (c.rest.dropWhile (· != '\n')).take 1 ∧
      ((c.rest ++ place.tail).dropWhile (· != '\n')).drop 1 =
        (c.rest.dropWhile (· != '\n')).drop 1 ++ place.tail := by
    rcases h.2 with hm | htail
    · have hne := dropWhile_ne_nil (p := (· != '\n')) hm (by decide)
      rw [hd]
      cases hr : c.rest.dropWhile (· != '\n') with
      | nil => exact absurd hr hne
      | cons x rest => exact ⟨rfl, rfl⟩
    · simp [htail]
  have hf : firstLine (c.rest ++ place.tail) = firstLine c.rest := by
    rw [firstLine, ht, hcut.1, firstLine]
  simp only [nextLine, within, past, hf, Position.within_after _ h.1]
  rw [afterLine, hcut.2, afterLine]

theorem Fits.next?_eq (h : c.Fits place) : (c.within place).next? = c.next? := by
  unfold next? within
  cases hr : c.rest with
  | nil =>
    have ht : place.tail = [] := h.2.resolve_left (by simp [hr])
    simp [ht]
  | cons x rest => rfl

theorem Fits.isPrefixOf?_eq (h : c.Fits place) {text : List Char} (hn : '\n' ∉ text) :
    text.isPrefixOf? (c.rest ++ place.tail) =
      (text.isPrefixOf? c.rest).map (· ++ place.tail) := by
  cases hp : text.isPrefixOf? c.rest with
  | some rest =>
    rw [isPrefixOf?_eq_some_iff] at hp
    rw [Option.map_some, isPrefixOf?_eq_some_iff, hp, List.append_assoc]
  | none =>
    rw [Option.map_none, Option.eq_none_iff_forall_ne_some]
    intro rest hr
    rw [isPrefixOf?_eq_some_iff] at hr
    rcases List.append_eq_append_iff.1 hr with ⟨more, ht, -⟩ | ⟨more, hc, -⟩
    · rcases h.2 with hm | htail
      · exact hn (ht ▸ List.mem_append_left _ hm)
      · have : text.isPrefixOf? c.rest = some rest := by
          rw [isPrefixOf?_eq_some_iff]
          simpa [htail] using hr
        simp [hp] at this
    · have : text.isPrefixOf? c.rest = some more := isPrefixOf?_eq_some_iff.2 hc
      simp [hp] at this

theorem Fits.describe_eq (h : c.Fits place) : (c.within place).describe = c.describe := by
  have hp : (!Unicode.isWhiteSpace '\n') = false := by decide
  have ht := (h.takeWhile_eq (p := fun y ↦ !Unicode.isWhiteSpace y) hp).1
  unfold describe within
  cases hr : c.rest with
  | nil =>
    have htail : place.tail = [] := h.2.resolve_left (by simp [hr])
    simp [htail]
  | cons x rest =>
    rw [hr] at ht
    simp only [List.cons_append] at ht ⊢
    rw [ht]

end Cursor

/-- States that can be moved into a place. -/
class Placeable (σ : Type) [HasCursor σ] where
  within : Place → σ → σ
  cursor_within (place : Place) (s : σ) :
    HasCursor.cursor (within place s) = (HasCursor.cursor s).within place

instance : Placeable Cursor := ⟨Cursor.within, fun _ _ ↦ rfl⟩

def ParserState.within (place : Place) (s : ParserState) : ParserState :=
  ⟨s.cursor.within place, Failure.merge place.noted (s.farthest.map (Failure.within place.base))⟩

instance : Placeable ParserState := ⟨ParserState.within, fun _ _ ↦ rfl⟩

theorem ParserState.ofText_within (place : Place) (text : List Char) :
    (ParserState.ofText text).within place =
      ⟨⟨text ++ place.tail, place.base⟩, place.noted⟩ := by
  simp [within, ofText, Cursor.ofText, Cursor.within]

def Place.outcome {σ α : Type} [HasCursor σ] [Placeable σ] (place : Place) (f : α → α) :
    EStateM.Result Failure σ α → EStateM.Result Failure σ α
  | .ok a s => .ok (f a) (Placeable.within place s)
  | .error e s => .error (e.within place.base) (Placeable.within place s)

end EntityModels
