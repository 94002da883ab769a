import EntityModels.Proofs.Parsing.Place

/-!
Texts read on their own and the same texts read as a part of others.

A reading agrees with itself in a place if it does there what it does on the text alone, with the
positions moved. Readings that stay on their line agree wherever the line ends in the text, because
none of them looks past a line feed.
-/

namespace EntityModels

section

variable {σ α β : Type} [HasCursor σ] [Placeable σ]

open HasCursor

/-- Where `pre` holds, `q` does in the place what `p` does on the text alone, and `p` leads from
one cursor to the next as `post` says. -/
structure Agrees (place : Place) (pre : Cursor → Prop) (post : Cursor → α → Cursor → Prop)
    (f : α → α) (p q : EStateM Failure σ α) : Prop where
  leads : ∀ s a t, p s = .ok a t → post (cursor s) a (cursor t)
  within : ∀ s, pre (cursor s) → q (Placeable.within place s) = place.outcome f (p s)

abbrev InLine (place : Place) (f : α → α) (p q : EStateM Failure σ α) : Prop :=
  Agrees place (·.Fits place) (fun c _ d ↦ c.LeadsAlong d) f p q

/-- The reading ends where the next line begins. -/
abbrev EndsLine (place : Place) (f : α → α) (p q : EStateM Failure σ α) : Prop :=
  Agrees place (·.Fits place) (fun c _ d ↦ d = c.nextLine) f p q

/-- The reading takes nothing, and what is ahead does not matter to it. -/
abbrev Stays (place : Place) (f : α → α) (p q : EStateM Failure σ α) : Prop :=
  Agrees place (·.position.Genuine) (fun c _ d ↦ d = c) f p q

variable {place : Place} {f : α → α} {g : β → β} {p q : EStateM Failure σ α}

theorem Agrees.bind {pre : Cursor → Prop} {post : Cursor → α → Cursor → Prop}
    {mid : α → Cursor → Prop} {later : α → Cursor → β → Cursor → Prop}
    {post' : Cursor → β → Cursor → Prop}
    {k l : α → EStateM Failure σ β} (hp : Agrees place pre post f p q)
    (hk : ∀ a, Agrees place (mid a) (later a) g (k a) (l (f a)))
    (hmid : ∀ c a d, pre c → post c a d → mid a d)
    (hpost : ∀ c a d b e, post c a d → later a d b e → post' c b e) :
    Agrees place pre post' g (p >>= k) (q >>= l) := by
  refine ⟨fun s b u h ↦ ?_, fun s hs ↦ ?_⟩
  · rw [bind_apply] at h
    cases hr : p s with
    | ok a t =>
      rw [hr] at h
      exact hpost _ a _ b _ (hp.leads s a t hr) ((hk a).leads t b u h)
    | error e t => simp [hr] at h
  · rw [bind_apply, bind_apply, hp.within s hs]
    cases hr : p s with
    | ok a t => exact (hk a).within t (hmid _ a _ hs (hp.leads s a t hr))
    | error e t => rfl

variable {k l : α → EStateM Failure σ β}

theorem InLine.bind (hp : InLine place f p q) (hk : ∀ a, InLine place g (k a) (l (f a))) :
    InLine place g (p >>= k) (q >>= l) :=
  Agrees.bind hp hk (fun _ _ _ ↦ Cursor.Fits.along) fun _ _ _ _ _ ↦ Cursor.LeadsAlong.trans

theorem InLine.bindEnds (hp : InLine place f p q) (hk : ∀ a, EndsLine place g (k a) (l (f a))) :
    EndsLine place g (p >>= k) (q >>= l) :=
  Agrees.bind hp hk (fun _ _ _ ↦ Cursor.Fits.along) fun _ _ _ _ _ h he ↦ he.trans h.nextLine_eq

theorem EndsLine.bindStays (hp : EndsLine place f p q) (hk : ∀ a, Stays place g (k a) (l (f a))) :
    EndsLine place g (p >>= k) (q >>= l) :=
  Agrees.bind hp hk (fun _ _ _ h he ↦ he ▸ h.1.after _) fun _ _ _ _ _ h he ↦ he.trans h

theorem Stays.bind (hp : Stays place f p q) (hk : ∀ a, Stays place g (k a) (l (f a))) :
    Stays place g (p >>= k) (q >>= l) :=
  Agrees.bind hp hk (fun _ _ _ h he ↦ he ▸ h) fun _ _ _ _ _ h he ↦ he.trans h

theorem Stays.pure {a b : α} (h : b = f a) :
    Stays place f (pure a : EStateM Failure σ α) (pure b) := by
  refine ⟨fun s x t k ↦ ?_, fun s _ ↦ ?_⟩
  · rw [(EStateM.Result.ok.inj k).2]
  · rw [h]
    rfl

theorem InLine.pure {a b : α} (h : b = f a) :
    InLine place f (pure a : EStateM Failure σ α) (pure b) :=
  ⟨fun _ _ _ k ↦ (EStateM.Result.ok.inj k).2 ▸ .refl _, fun s hs ↦ (Stays.pure h).within s hs.1⟩

theorem InLine.throw (e : Failure) :
    InLine place f (throw e : EStateM Failure σ α) (throw (e.within place.base)) :=
  ⟨fun _ _ _ k ↦ (by cases k), fun _ _ ↦ rfl⟩

theorem Agrees.ite {pre : Cursor → Prop} {post : Cursor → α → Cursor → Prop} {b : Bool}
    {p' q' : EStateM Failure σ α} (hp : Agrees place pre post f p q)
    (hq : Agrees place pre post f p' q') :
    Agrees place pre post f (if b then p else p') (if b then q else q') := by
  cases b
  · exact hq
  · exact hp

variable {b : Bool} {p' q' : EStateM Failure σ α}

theorem InLine.ite (hp : InLine place f p q) (hq : InLine place f p' q') :
    InLine place f (if b then p else p') (if b then q else q') := Agrees.ite hp hq

theorem EndsLine.ite (hp : EndsLine place f p q) (hq : EndsLine place f p' q') :
    EndsLine place f (if b then p else p') (if b then q else q') := Agrees.ite hp hq

omit [Placeable σ] in
theorem collect_apply {p : EStateM Failure σ (Option α)} (hp : Forward p) (s : σ) :
    collect p hp s = match p s with
      | .error e t => .error e t
      | .ok none t => .ok [] t
      | .ok (some a) t =>
        if offset s < offset t then
          match collect p hp t with
          | .ok as u => .ok (a :: as) u
          | .error e u => .error e u
        else .ok [] t := by
  rw [collect]
  cases hr : p s with
  | error e t => rfl
  | ok found t => cases found <;> rfl

theorem InLine.collect {p q : EStateM Failure σ (Option α)} (h : InLine place (Option.map f) p q)
    (hp : Forward p) (hq : Forward q) :
    InLine place (List.map f) (collect p hp) (collect q hq) := by
  have hoff (s t : σ) : offset (Placeable.within place s) < offset (Placeable.within place t) ↔
      offset s < offset t := by
    simp [offset, Placeable.cursor_within, Cursor.within]
  refine ⟨fun s ↦ ?_, fun s ↦ ?_⟩
  · fun_induction EntityModels.collect p hp s with
    | case1 s e t hs => intro as u k; cases k
    | case2 s t hs => intro as u k; cases k; exact h.leads s none _ hs
    | case3 s a t hs _ as u hu ih =>
      intro bs v k
      cases k
      exact (h.leads s _ t hs).trans (ih _ _ hu)
    | case4 s a t hs _ e u hu ih => intro as v k; cases k
    | case5 s a t hs _ => intro as u k; cases k; exact h.leads s _ _ hs
  · fun_induction EntityModels.collect p hp s with
    | case1 s e t hs =>
      intro hfits
      rw [collect_apply, h.within s hfits, hs]
      rfl
    | case2 s t hs =>
      intro hfits
      rw [collect_apply, h.within s hfits, hs]
      rfl
    | case3 s a t hs hlt as u hu ih =>
      intro hfits
      have ht := ih (hfits.along (h.leads s _ t hs))
      rw [hu] at ht
      rw [collect_apply, h.within s hfits, hs]
      simp only [Place.outcome, Option.map_some, hoff, if_pos hlt, ht, List.map_cons]
    | case4 s a t hs hlt e u hu ih =>
      intro hfits
      have ht := ih (hfits.along (h.leads s _ t hs))
      rw [hu] at ht
      rw [collect_apply, h.within s hfits, hs]
      simp only [Place.outcome, Option.map_some, hoff, if_pos hlt, ht]
    | case5 s a t hs hlt =>
      intro hfits
      rw [collect_apply, h.within s hfits, hs]
      simp only [Place.outcome, Option.map_some, hoff, if_neg hlt, List.map_nil]

end

section

variable {α : Type} {place : Place} {f : α → α} {p q : Reader α}

theorem Stays.position : Stays place place.base.within Reader.position Reader.position :=
  ⟨fun _ _ _ h ↦ (EStateM.Result.ok.inj h).2.symm, fun _ _ ↦ rfl⟩

theorem InLine.position : InLine place place.base.within Reader.position Reader.position :=
  ⟨fun c _ _ h ↦ (EStateM.Result.ok.inj h).2 ▸ .refl c, fun _ _ ↦ rfl⟩

theorem InLine.next? : InLine place id Reader.next? Reader.next? := by
  refine ⟨fun c _ _ h ↦ (EStateM.Result.ok.inj h).2 ▸ .refl c,
    fun c (hc : Cursor.Fits place c) ↦ ?_⟩
  change EStateM.Result.ok (c.within place).next? _ = _
  rw [hc.next?_eq]
  rfl

theorem InLine.mismatch (expected : String) :
    InLine place f (Reader.mismatch expected) (Reader.mismatch expected) := by
  refine ⟨fun _ _ _ h ↦ (by cases h), fun c (hc : Cursor.Fits place c) ↦ ?_⟩
  change EStateM.Result.error ((c.within place).mismatch expected) _ = _
  rw [Cursor.mismatch, hc.describe_eq]
  rfl

theorem InLine.unterminated : InLine place f Reader.unterminated Reader.unterminated := by
  refine ⟨fun _ _ _ h ↦ (by cases h), fun c (hc : Cursor.Fits place c) ↦ ?_⟩
  change EStateM.Result.error (c.within place).unterminated _ = _
  rw [Cursor.unterminated, hc.describe_eq]
  rfl

theorem InLine.takeWhile {test : Char → Bool} (h : test '\n' = false) :
    InLine place id (Reader.takeWhile test) (Reader.takeWhile test) := by
  refine ⟨fun c _ _ k ↦ (EStateM.Result.ok.inj k).2 ▸ .skip c h,
    fun c (hc : Cursor.Fits place c) ↦ ?_⟩
  change EStateM.Result.ok ((c.rest ++ place.tail).takeWhile test) ((c.within place).skip test) = _
  rw [(hc.takeWhile_eq h).1, hc.skip_eq h]
  rfl

theorem InLine.literal {text : String} (h : '\n' ∉ text.toList) :
    InLine place id (Reader.literal text) (Reader.literal text) := by
  refine ⟨fun c b d k ↦ ?_, fun c (hc : Cursor.Fits place c) ↦ ?_⟩
  · unfold Reader.literal at k
    split at k
    · next rest hr =>
      cases k
      exact .past (isPrefixOf?_eq_some_iff.1 hr) h
    · cases k
      exact .refl _
  · have hfound : text.toList.isPrefixOf? (c.within place).rest = _ := hc.isPrefixOf?_eq h
    change Reader.literal text (c.within place) = _
    unfold Reader.literal
    rw [hfound]
    cases text.toList.isPrefixOf? c.rest with
    | none => rfl
    | some rest =>
      simp only [Option.map_some, Place.outcome, Placeable.within, Cursor.within, Cursor.past,
        Position.within_after _ hc.1]
      rfl

theorem InLine.rewindUnless {good : α → Bool} (hg : ∀ a, good (f a) = good a)
    (h : InLine place f p q) :
    InLine place f (Reader.rewindUnless good p) (Reader.rewindUnless good q) := by
  refine ⟨fun c a d k ↦ ?_, fun c (hc : Cursor.Fits place c) ↦ ?_⟩
  · unfold Reader.rewindUnless at k
    split at k
    · next b e hp =>
      cases k
      split
      · exact h.leads c _ e hp
      · exact .refl c
    · cases k
  · unfold Reader.rewindUnless
    rw [h.within c hc]
    cases p c with
    | error e d => rfl
    | ok a d => cases hb : good a <;> simp [Place.outcome, hg, hb]

theorem InLine.committedIf {b : Bool} (h : InLine place f p q) :
    InLine place f (Reader.committedIf b p) (Reader.committedIf b q) := by
  refine ⟨fun c a d k ↦ ?_, fun c (hc : Cursor.Fits place c) ↦ ?_⟩
  · unfold Reader.committedIf at k
    split at k
    · next hp => cases k; exact h.leads c _ _ hp
    · cases k
  · unfold Reader.committedIf
    rw [h.within c hc]
    cases p c with
    | ok a d => rfl
    | error e d => cases b <;> rfl

theorem InLine.orNone (h : InLine place f p q) :
    InLine place (Option.map f) (Reader.orNone p) (Reader.orNone q) := by
  refine ⟨fun c a d k ↦ ?_, fun c (hc : Cursor.Fits place c) ↦ ?_⟩
  · unfold Reader.orNone at k
    split at k
    · next hp => cases k; exact h.leads c _ _ hp
    · cases k; exact .refl c
  · unfold Reader.orNone
    rw [h.within c hc]
    cases p c <;> rfl

end

section

variable {α : Type} {place : Place} {f : α → α}

theorem Agrees.ofReader {pre : Cursor → Prop} {post : Cursor → α → Cursor → Prop}
    {p q : Reader α} (h : Agrees place pre post f p q) :
    Agrees place pre post f (p : Parser α) (q : Parser α) := by
  refine ⟨fun s a t k ↦ ?_, fun s hs ↦ ?_⟩
  · change Parser.ofReader p s = _ at k
    unfold Parser.ofReader at k
    split at k
    · next hp => cases k; exact h.leads _ _ _ hp
    · cases k
  · change Parser.ofReader q _ = place.outcome f (Parser.ofReader p s)
    have hw : q (s.cursor.within place) = place.outcome f (p s.cursor) := h.within s.cursor hs
    simp only [Parser.ofReader, Placeable.within, ParserState.within, hw]
    cases p s.cursor <;> rfl

theorem InLine.ofReader {p q : Reader α} (h : InLine place f p q) :
    InLine place f (p : Parser α) (q : Parser α) := Agrees.ofReader h

theorem EndsLine.ofReader {p q : Reader α} (h : EndsLine place f p q) :
    EndsLine place f (p : Parser α) (q : Parser α) := Agrees.ofReader h

/-- The cursor is given back unless there is a result, and then it is where the next line begins. -/
def endsOrStays (c : Cursor) : Option α → Cursor → Prop
  | some _, d => d = c.nextLine
  | none, d => d = c

theorem EndsLine.attempt {p q : Parser α} (h : EndsLine place f p q) :
    Agrees place (·.Fits place) endsOrStays (Option.map f) p.attempt q.attempt := by
  refine ⟨fun s a t k ↦ ?_, fun s hs ↦ ?_⟩
  · unfold Parser.attempt at k
    split at k
    · next hp => cases k; exact h.leads _ _ _ hp
    · split at k
      · cases k
      · cases k; rfl
  · unfold Parser.attempt
    rw [h.within s hs]
    cases p s with
    | ok a t => rfl
    | error e t =>
      cases hf : e.fatal with
      | true => simp [Place.outcome, Failure.within, hf]
      | false =>
        simp only [Place.outcome, Failure.within, hf, Bool.false_eq_true, if_false, Option.map_none,
          Option.map_some, ParserState.record_eq, Placeable.within, ParserState.within,
          Failure.merge_assoc, Failure.map_merge]

theorem Agrees.orElse {β : Type} {p : Parser (Option α)} {k : Option α → Parser β} {g : β → β}
    {post : Cursor → β → Cursor → Prop} (pass : α → β)
    (hp : Agrees place (·.Fits place) endsOrStays (Option.map f) p p)
    (hsome : ∀ a, k (some a) = pure (pass a)) (hpass : ∀ a, pass (f a) = g (pass a))
    (hpost : ∀ c a, post c (pass a) c.nextLine)
    (hnone : Agrees place (·.Fits place) post g (k none) (k none)) :
    Agrees place (·.Fits place) post g (p >>= k) (p >>= k) := by
  have hk (found : Option α) :
      Agrees place (fun c ↦ found = none → c.Fits place)
        (fun c b d ↦ match found with
          | some a => b = pass a ∧ d = c
          | none => post c b d) g (k found) (k (found.map f)) := by
    cases found with
    | some a =>
      refine ⟨fun s b t h ↦ ?_, fun s _ ↦ ?_⟩
      · rw [hsome] at h
        cases h
        exact ⟨rfl, rfl⟩
      · rw [Option.map_some, hsome, hsome, hpass]
        rfl
    | none => exact ⟨hnone.leads, fun s hs ↦ hnone.within s (hs rfl)⟩
  refine hp.bind hk (fun c found d hc hd hf ↦ ?_) fun c found d b e hd he ↦ ?_
  · subst hf
    exact hd ▸ hc
  · cases found with
    | some a =>
      obtain ⟨rfl, rfl⟩ := he
      exact hd ▸ hpost c a
    | none => exact hd ▸ he

end

namespace Choice

variable {α : Type} {place : Place} {f : α → α}

structure EndsLine (place : Place) (f : α → α) (choice : Choice α) : Prop where
  parser : EntityModels.EndsLine place f choice.parser choice.parser
  mayStart : ∀ c : Cursor, c.Fits place →
    choice.mayStart (c.rest ++ place.tail) = choice.mayStart c.rest

theorem EndsLine.tried {choice : Choice α} (h : choice.EndsLine place f) :
    Agrees place (·.Fits place) endsOrStays (Option.map f) choice.tried choice.tried := by
  refine ⟨fun s a t k ↦ ?_, fun s hs ↦ ?_⟩
  · unfold Choice.tried at k
    split at k
    · exact h.parser.attempt.leads s a t k
    · cases k; rfl
  · have hm : choice.mayStart (ParserState.within place s).cursor.rest =
        choice.mayStart s.cursor.rest := h.mayStart s.cursor hs
    unfold Choice.tried
    change (if choice.mayStart (ParserState.within place s).cursor.rest then _ else _) = _
    rw [hm]
    split
    · exact h.parser.attempt.within s hs
    · rfl

theorem first_agrees {choices : List (Choice α)} (h : ∀ choice ∈ choices, choice.EndsLine place f) :
    Agrees place (·.Fits place) endsOrStays (Option.map f) (first choices) (first choices) := by
  induction choices with
  | nil => exact ⟨fun s a t k ↦ (by cases k; rfl), fun s _ ↦ rfl⟩
  | cons choice choices ih =>
    have hc := (h choice List.mem_cons_self).tried
    have hr := ih fun c hm ↦ h c (List.mem_cons_of_mem choice hm)
    exact hc.orElse some (fun _ ↦ rfl) (fun _ ↦ rfl) (fun _ _ ↦ rfl) hr

theorem firstOr_endsLine (expected : String) {choices : List (Choice α)}
    (h : ∀ choice ∈ choices, choice.EndsLine place f) :
    EntityModels.EndsLine place f (firstOr expected choices) (firstOr expected choices) := by
  have hm : InLine place f (Reader.mismatch expected) (Reader.mismatch expected) :=
    .mismatch expected
  refine (first_agrees h).orElse id (fun _ ↦ rfl) (fun _ ↦ rfl) (fun _ _ ↦ rfl) ?_
  exact ⟨fun s a t k ↦ (by cases k), hm.ofReader.within⟩

end Choice

end EntityModels
