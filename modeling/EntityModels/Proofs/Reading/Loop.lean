import EntityModels.Proofs.Reading.Flat

namespace EntityModels

/-- What a document does between two items: it may end, it may have read an item already, or one
has to be read. -/
structure Boundary where
  gate : Parser (Option (Option Item))
  expected : String
  forward : Forward gate
  /-- Nothing is read unless it is an item. -/
  stays : ∀ s t, gate s = .ok none t → t = s
  /-- An item is a line that declares nothing. -/
  takes : ∀ s item t, gate s = .ok (some (some item)) t →
    item.entity? = none ∧ t.cursor = s.cursor.nextLine
  stops : ∀ s r t, s.cursor.rest = [] → gate s = .ok r t → r = some none

namespace Boundary

def nextItem (b : Boundary) (options : Options) : Parser (Option Item) := do
  match ← b.gate with
  | some found => return found
  | none => return some (← Item.required options b.expected)

theorem nextItem_apply (b : Boundary) (options : Options) (s : ParserState) :
    b.nextItem options s = match b.gate s with
      | .ok (some found) t => .ok found t
      | .ok none t => (some <$> Item.required options b.expected) t
      | .error e t => .error e t := by
  rw [nextItem, bind_apply]
  cases b.gate s with
  | error e t => rfl
  | ok found t => cases found <;> rfl

theorem nextItem_forward (b : Boundary) (options : Options) : Forward (b.nextItem options) := by
  refine b.forward.bind fun found ↦ ?_
  cases found with
  | some found => exact .pure found
  | none => exact (Item.required_forward options _).bind fun _ ↦ .pure _

def items (b : Boundary) (options : Options) : Parser (List Item) :=
  collect (b.nextItem options) (b.nextItem_forward options)

theorem items_apply (b : Boundary) (options : Options) (s : ParserState) :
    b.items options s = match b.gate s with
      | .ok (some none) t => .ok [] t
      | .ok (some (some item)) t =>
        if s.cursor.position.offset < t.cursor.position.offset then
          ((item :: ·) <$> b.items options) t
        else .ok [] t
      | .ok none t => match (Item.parser options).attempt t with
        | .ok (some item) u =>
          if s.cursor.position.offset < u.cursor.position.offset then
            ((item :: ·) <$> b.items options) u
          else .ok [] u
        | .ok none u => Parser.stuck (·.mismatch b.expected) u
        | .error e u => .error e u
      | .error e t => .error e t := by
  rw [items, collect_apply, nextItem_apply]
  cases b.gate s with
  | error e t => rfl
  | ok found t =>
    cases found with
    | some found =>
      cases found with
      | none => rfl
      | some item =>
        simp only [map_apply]
        cases collect (b.nextItem options) (b.nextItem_forward options) t <;> rfl
    | none =>
      simp only [map_apply, Item.required, bind_apply]
      cases (Item.parser options).attempt t with
      | error e u => rfl
      | ok found u =>
        cases found with
        | none => rfl
        | some item =>
          simp only [pure_apply]
          cases collect (b.nextItem options) (b.nextItem_forward options) u <;> rfl

end Boundary

namespace Stage

def add (s : Stage) : Item → Stage
  | .entity e => s.start e
  | item => s.push item

theorem add_of_entity?_eq_none {s : Stage} {item : Item} (h : item.entity? = none) :
    s.add item = s.push item := by
  cases item with
  | entity e => cases h
  | blank line => rfl
  | comment line => rfl

def readMember (options : Options) (s : Stage) : Parser (Option Stage) :=
  match s.opened with
  | none => return none
  | some e => do
    match ← (Member.choice options).tried with
    | some m =>
      let stop ← Reader.position
      return some { s with opened := some (e.extend m stop.location) }
    | none => return none

/-- One more item, of an entity the first line only. -/
def readItem (b : Boundary) (s : Stage) : Parser (Option Stage) := do
  match ← b.gate with
  | some found => return found.map s.add
  | none =>
    match ← Item.lineParser.attempt with
    | some item => return some (s.add item)
    | none => Parser.stuck (·.mismatch b.expected)

def readLine (options : Options) (b : Boundary) (s : Stage) : Parser (Option Stage) := do
  match ← s.readMember options with
  | some s => return some s
  | none => s.readItem b

def readLines (options : Options) (b : Boundary) : List (List Char) → Stage → Parser Stage
  | [], s => do
    let _ ← b.gate
    return s
  | _ :: ls, s => do
    match ← s.readLine options b with
    | some s => readLines options b ls s
    | none => return s

/-- What is read from a stage on, in two loops. -/
def resume (options : Options) (b : Boundary) (s : Stage) : Parser (List Item) := do
  match s.opened with
  | none => return s.complete ++ (← b.items options)
  | some e =>
    let e ← e.body options
    return s.complete ++ .entity e :: (← b.items options)

/-- The open entity reaches as far as the text that was read. -/
def EndsAt (s : Stage) (p : Position) : Prop := ∀ e ∈ s.opened, e.span.stop = p.location

variable {options : Options} {b : Boundary}

/-- The loop of lines does what the two loops do, from every stage in front of these lines. -/
def Fused (options : Options) (b : Boundary) (ls : List (List Char)) : Prop :=
  ∀ (s : Stage) (σ : ParserState), σ.cursor.rest = ls.flatten → s.EndsAt σ.cursor.position →
    (items <$> s.readLines options b ls) σ = s.resume options b σ

theorem resume_of_closed {s : Stage} (h : s.opened = none) (σ : ParserState) :
    s.resume options b σ = ((s.items ++ ·) <$> b.items options) σ := by
  rw [resume, h, map_apply]
  simp only [bind_apply, items, h]
  cases b.items options σ with
  | error e t => rfl
  | ok is t => simp [pure_apply]

theorem resume_of_opened {s : Stage} {e : Entity} (h : s.opened = some e) (σ : ParserState) :
    s.resume options b σ = match e.body options σ with
      | .ok e t => ((s.complete ++ .entity e :: ·) <$> b.items options) t
      | .error err t => .error err t := by
  rw [resume, h]
  simp only [bind_apply]
  cases e.body options σ with
  | error e t => rfl
  | ok e t =>
    simp only [map_apply]
    cases b.items options t <;> rfl

theorem push_fused {rest : List (List Char)} (ih : Fused options b rest) (s : Stage) {item : Item}
    (hi : item.entity? = none) {t : ParserState} (ht : t.cursor.rest = rest.flatten) :
    (items <$> (s.add item).readLines options b rest) t =
      ((s.items ++ item :: ·) <$> b.items options) t := by
  have hadd : s.add item = s.push item := add_of_entity?_eq_none hi
  have hends : (s.push item).EndsAt t.cursor.position := by intro e he; cases he
  have hread := ih (s.push item) t ht hends
  rw [resume_of_closed (s := s.push item) rfl] at hread
  rw [hadd, hread, map_apply, map_apply]
  cases b.items options t with
  | error e u => rfl
  | ok is u => simp [push, items]

theorem start_fused {rest : List (List Char)} (ih : Fused options b rest) (s : Stage) {e : Entity}
    {t : ParserState} (ht : t.cursor.rest = rest.flatten)
    (he : e.span.stop = t.cursor.position.location) :
    (items <$> (s.add (.entity e)).readLines options b rest) t = match e.body options t with
      | .ok e u => ((s.items ++ .entity e :: ·) <$> b.items options) u
      | .error err u => .error err u := by
  have hends : (s.start e).EndsAt t.cursor.position := by
    intro e' he'
    cases he'
    exact he
  have hread := ih (s.start e) t ht hends
  rw [resume_of_opened (s := s.start e) rfl] at hread
  exact hread

theorem readItem_fused {line : List Char} {rest : List (List Char)} (h : Linewise (line :: rest))
    (ih : Fused options b rest) (s : Stage) {σ : ParserState}
    (hσ : σ.cursor.rest = (line :: rest).flatten) :
    (items <$> (s.readItem b >>= fun
      | some s' => s'.readLines options b rest
      | none => return s)) σ = ((s.items ++ ·) <$> b.items options) σ := by
  have hnext := h.nextLine_eq hσ
  have hrest : σ.cursor.nextLine.rest = rest.flatten := by rw [hnext]
  have hlt : σ.cursor.position.offset < σ.cursor.nextLine.position.offset := by
    rw [hnext]
    exact h.offset_lt _
  rw [map_apply, bind_apply, readItem, bind_apply, map_apply, b.items_apply]
  cases hg : b.gate σ with
  | error e t => rfl
  | ok found t =>
    match found with
    | some none => simp [pure_apply]
    | some (some item) =>
      obtain ⟨hi, ht⟩ := b.takes _ _ _ hg
      have hpush := push_fused ih s hi (ht ▸ hrest)
      rw [map_apply] at hpush
      rw [← ht] at hlt
      simp only [pure_apply, Option.map_some, if_pos hlt]
      rw [hpush, map_apply, map_apply]
      cases b.items options t <;> rfl
    | none =>
      obtain rfl := b.stays _ _ hg
      simp only [Item.attempt_eq, bind_apply]
      cases ha : Item.lineParser.attempt t with
      | error e u => rfl
      | ok found u =>
        cases found with
        | none => rfl
        | some item =>
          have hp := Parser.attempt_some ha
          have hu := Item.lineParser_next hp
          have hrest' : u.cursor.rest = rest.flatten := hu ▸ hrest
          simp only [pure_apply, Parser.onSome, map_apply]
          have hlt' : t.cursor.position.offset < u.cursor.position.offset := hu ▸ hlt
          cases hi : item.entity? with
          | some e =>
            -- a header: the loop goes on with an open entity, the grammar with its members
            obtain rfl := Item.eq_entity hi
            have hstart := start_fused ih s hrest' (Item.lineParser_stop hp)
            rw [map_apply] at hstart
            rw [hstart]
            simp only [Item.finish, map_apply]
            cases hbody : e.body options u with
            | error err v => rfl
            | ok e' v =>
              have hv : u.cursor.LeadsTo v.cursor := (e.body_forward options u).1 e' v hbody
              have hlt'' := Nat.lt_of_lt_of_le hlt' hv.offset_le
              simp only [if_pos hlt'']
              cases b.items options v <;> rfl
          | none =>
            have hpush := push_fused ih s hi hrest'
            rw [map_apply] at hpush
            rw [Item.finish_of_entity?_eq_none options hi, hpush]
            simp only [pure_apply, if_pos hlt', map_apply]
            cases b.items options u <;> rfl

theorem readLines_cons (line : List Char) (rest : List (List Char)) (s : Stage) (σ : ParserState) :
    s.readLines options b (line :: rest) σ = match s.readMember options σ with
      | .ok (some s') t => s'.readLines options b rest t
      | .ok none t => (s.readItem b >>= fun
          | some s' => s'.readLines options b rest
          | none => return s) t
      | .error e t => .error e t := by
  rw [readLines, readLine, bind_apply, bind_apply]
  cases s.readMember options σ with
  | error e t => rfl
  | ok found t =>
    cases found with
    | some s' => rfl
    | none => simp only [bind_apply]

theorem readMember_of_closed {s : Stage} (h : s.opened = none) (σ : ParserState) :
    s.readMember options σ = .ok none σ := by
  rw [readMember, h]
  rfl

theorem readMember_of_opened {s : Stage} {e : Entity} (h : s.opened = some e) (σ : ParserState) :
    s.readMember options σ = match (Member.choice options).tried σ with
      | .ok (some m) t =>
        .ok (some { s with opened := some (e.extend m t.cursor.position.location) }) t
      | .ok none t => .ok none t
      | .error err t => .error err t := by
  rw [readMember, h]
  simp only [bind_apply]
  cases (Member.choice options).tried σ with
  | error err t => rfl
  | ok found t => cases found <;> rfl

theorem readLines_fused {ls : List (List Char)} (h : Linewise ls) : Fused options b ls := by
  -- for all stages at once: while an entity is open, its members come before the items
  induction ls with
  | nil =>
    intro s σ hσ hends
    have hstop : s.resume options b σ = ((s.items ++ ·) <$> b.items options) σ := by
      cases ho : s.opened with
      | none => exact resume_of_closed ho σ
      | some e =>
        have hm : (Member.choice options).mayStart σ.cursor.rest = false := by
          rw [hσ]
          rfl
        have htried := Choice.tried_eq_none hm
        rw [resume_of_opened ho, Entity.body_of_none htried (hends e ho)]
        simp only [map_apply]
        cases b.items options σ with
        | error err t => rfl
        | ok is t => simp [items, ho]
    rw [hstop, readLines, map_apply, bind_apply, map_apply, b.items_apply]
    cases hg : b.gate σ with
    | error e t => rfl
    | ok found t =>
      obtain rfl := b.stops σ found t hσ hg
      simp [pure_apply]
  | cons line rest ih =>
    intro s σ hσ hends
    have ih := ih h.2
    cases ho : s.opened with
    | none =>
      rw [resume_of_closed ho, ← readItem_fused h ih s hσ, map_apply, map_apply, readLines_cons,
        readMember_of_closed ho]
    | some e =>
      rw [map_apply, readLines_cons, readMember_of_opened ho, resume_of_opened ho]
      cases ht : (Member.choice options).tried σ with
      | error err t => rw [Entity.body_of_error ht]
      | ok found t =>
        cases found with
        | none =>
          have hc := Choice.tried_none ht
          have hread := readItem_fused h ih s (hc ▸ hσ)
          have hitems : s.items = s.complete ++ [.entity e] := by simp [items, ho]
          rw [Entity.body_of_none ht (by rw [hends e ho, hc])]
          simp only [map_apply, hitems] at hread ⊢
          rw [hread]
          cases b.items options t with
          | error err u => rfl
          | ok is u => simp
        | some m =>
          have hnext := (Member.choice_next ht).trans (h.nextLine_eq hσ)
          have hlt : HasCursor.offset σ < HasCursor.offset t := by
            change σ.cursor.position.offset < t.cursor.position.offset
            rw [hnext]
            exact h.offset_lt _
          let s' : Stage := { s with opened := some (e.extend m t.cursor.position.location) }
          have hends' : s'.EndsAt t.cursor.position := by
            intro e' he'
            cases he'
            rfl
          have hread := ih s' t (by rw [hnext]) hends'
          rw [map_apply, resume_of_opened (s := s') rfl] at hread
          rw [Entity.body_of_some ht hlt]
          exact hread

end Stage

theorem Boundary.items_eq_readLines (b : Boundary) (options : Options) {ls : List (List Char)}
    (h : Linewise ls) {σ : ParserState} (hσ : σ.cursor.rest = ls.flatten) :
    b.items options σ = (Stage.items <$> Stage.readLines options b ls {}) σ := by
  have hends : Stage.EndsAt {} σ.cursor.position := by intro e he; cases he
  rw [Stage.readLines_fused h {} σ hσ hends, Stage.resume_of_closed rfl, map_apply]
  cases b.items options σ <;> rfl

end EntityModels
