import EntityModels.Grammar.Options
import EntityModels.Proofs.Parsing.Failures
import EntityModels.Proofs.Parsing.Selection

/-!
Parsers that keep an account. All parsers of a reading share the options and the farthest of the
failures that were noted; here every failure that is noted goes into a list as well. With or without
the account the outcome is the same, and all that a parser adds to the account can be given up and
stands no farther back than where the parser began.
-/

namespace EntityModels

structure Context where
  options : Options := {}
  farthest : Option Failure := none
  deriving DecidableEq, Repr

/-- A state of a reading and all failures that were noted on the way, the oldest one first. -/
structure Account where
  cursor : Cursor
  context : Context := {}
  noted : List Failure := []
  deriving DecidableEq, Repr

instance : HasCursor Account := ⟨Account.cursor⟩

namespace Account

def state (a : Account) : ParserState := ⟨a.cursor, a.context.farthest⟩

/-- Goes on in another state, in front of which some more failures were noted. -/
def extend (a : Account) (noted : List Failure) (s : ParserState) : Account :=
  ⟨s.cursor, { a.context with farthest := s.farthest }, a.noted ++ noted⟩

def record (a : Account) (e : Failure) : Account := a.extend [e] (a.state.record e)

theorem extend_nil (a : Account) (s : ParserState) :
    a.extend [] s = { a with cursor := s.cursor, context.farthest := s.farthest } := by
  rw [extend, List.append_nil]

theorem extend_extend (a : Account) (m n : List Failure) (s t : ParserState) :
    (a.extend m s).extend n t = a.extend (m ++ n) t := by
  simp only [extend, List.append_assoc]

end Account

abbrev Recorder := EStateM Failure Account

namespace Recorder

variable {α : Type}

def reading (r : Options → Reader α) : Recorder α := fun a ↦
  match r a.context.options a.cursor with
  | .ok x c => .ok x { a with cursor := c }
  | .error e c => .error e { a with cursor := c }

def attempt (r : Recorder α) : Recorder (Option α) := fun a ↦
  match r a with
  | .ok x b => .ok (some x) b
  | .error e b =>
    if e.fatal then .error e b else .ok none (Account.record { b with cursor := a.cursor } e)

def tried (mayStart : List Char → Bool) (r : Recorder α) : Recorder (Option α) := fun a ↦
  if mayStart a.cursor.rest then r.attempt a else .ok none a

def first : List (Recorder (Option α)) → Recorder (Option α)
  | [] => return none
  | r :: rs => do
    match ← r with
    | some x => return some x
    | none => first rs

def firstOr (expected : String) (rs : List (Recorder (Option α))) : Recorder α := do
  match ← first rs with
  | some x => return x
  | none => reading fun _ ↦ Reader.mismatch expected

def outcome (r : Recorder α) (a : Account) : EStateM.Result Failure ParserState α :=
  match r a with
  | .ok x b => .ok x b.state
  | .error e b => .error e b.state

end Recorder

/-- From one state to the other these failures were noted, in this order. Each of them could be
given up, and none stands in front of the first state. -/
structure ParserState.Adds (s : ParserState) (noted : List Failure) (t : ParserState) : Prop where
  leads : s.cursor.LeadsTo t.cursor
  farthest : t.farthest = (noted.foldl record s).farthest
  ahead : ∀ e ∈ noted, e.fatal = false ∧ s.cursor.position.offset ≤ e.offset

namespace ParserState.Adds

variable {s t u : ParserState} {m n : List Failure} {e : Failure}

theorem of_leads {c : Cursor} (h : s.cursor.LeadsTo c) : s.Adds [] { s with cursor := c } :=
  ⟨h, rfl, by simp⟩

theorem refl (s : ParserState) : s.Adds [] s := of_leads (.refl _)

theorem trans (h : s.Adds m t) (k : t.Adds n u) : s.Adds (m ++ n) u where
  leads := h.leads.trans k.leads
  farthest := by
    rw [k.farthest, List.foldl_append, foldl_record, foldl_record _ n, h.farthest]
  ahead e he := by
    rcases List.mem_append.1 he with he | he
    · exact h.ahead e he
    · obtain ⟨hmild, hle⟩ := k.ahead e he
      exact ⟨hmild, h.leads.offset_le.trans hle⟩

theorem giveUp (h : s.Adds m t) (hmild : e.fatal = false)
    (hle : s.cursor.position.offset ≤ e.offset) :
    s.Adds (m ++ [e]) (record { t with cursor := s.cursor } e) where
  leads := .refl _
  farthest := by
    rw [List.foldl_append, List.foldl_cons, List.foldl_nil, record_eq, record_eq, h.farthest]
  ahead f hf := by
    rcases List.mem_append.1 hf with hf | hf
    · exact h.ahead f hf
    · cases List.mem_singleton.1 hf
      exact ⟨hmild, hle⟩

theorem farthest_cases (h : s.Adds m t) : t.farthest = s.farthest ∨
    ∃ f, t.farthest = some f ∧ s.cursor.position.offset ≤ f.offset ∧
      ∀ g ∈ s.farthest, g.rank < f.rank := by
  rw [h.farthest]
  rcases s.farthest_foldl_record m with heq | ⟨f, hf, hsome, hlt⟩
  · exact .inl heq
  · exact .inr ⟨f, hsome, (h.ahead f hf).2, hlt⟩

end ParserState.Adds

open EStateM (Result)

/-- Two outcomes from the account, without it and with it: they are the same, and what was noted on
the way is in the account. -/
inductive Account.Keeps {α : Type} (a : Account) :
    Result Failure ParserState α → Result Failure Account α → Prop
  | ok {x t noted} (h : a.state.Adds noted t) : Keeps a (.ok x t) (.ok x (a.extend noted t))
  | error {e t noted} (h : a.state.Adds noted t) (hle : a.cursor.position.offset ≤ e.offset) :
    Keeps a (.error e t) (.error e (a.extend noted t))

namespace Account.Keeps

variable {α : Type} {a : Account} {x : Result Failure ParserState α}
  {y : Result Failure Account α}

theorem inv (h : a.Keeps x y) :
    (∃ v noted t, a.state.Adds noted t ∧ x = .ok v t ∧ y = .ok v (a.extend noted t)) ∨
    ∃ e noted t, a.state.Adds noted t ∧ a.cursor.position.offset ≤ e.offset ∧
      x = .error e t ∧ y = .error e (a.extend noted t) := by
  cases h with
  | ok h => exact .inl ⟨_, _, _, h, rfl, rfl⟩
  | error h hle => exact .inr ⟨_, _, _, h, hle, rfl, rfl⟩

theorem before {m : List Failure} {s : ParserState} (h : (a.extend m s).Keeps x y)
    (hs : a.state.Adds m s) : a.Keeps x y := by
  cases h with
  | ok h =>
    rw [extend_extend]
    exact .ok (hs.trans h)
  | error h hle =>
    rw [extend_extend]
    exact .error (hs.trans h) (hs.leads.offset_le.trans hle)

end Account.Keeps

/-- The recorder does what the parser does, and keeps the account. -/
def Recorder.Accounts {α : Type} (r : Recorder α) (p : Options → Parser α) : Prop :=
  ∀ a : Account, a.Keeps (p a.context.options a.state) (r a)

namespace Recorder

variable {α β : Type} {r : Recorder α} {p : Options → Parser α}

namespace Accounts

theorem forward (h : r.Accounts p) : Forward r := by
  intro a
  obtain ⟨v, noted, t, hadds, -, hr⟩ | ⟨e, noted, t, hadds, -, -, hr⟩ := (h a).inv
  · refine ⟨fun w b hb ↦ ?_, fun e b hb ↦ ?_⟩
    · cases hr.symm.trans hb
      exact hadds.leads
    · cases hr.symm.trans hb
  · refine ⟨fun w b hb ↦ ?_, fun e b hb ↦ ?_⟩
    · cases hr.symm.trans hb
    · cases hr.symm.trans hb
      exact hadds.leads

theorem outcome_eq (h : r.Accounts p) (a : Account) :
    r.outcome a = p a.context.options a.state := by
  obtain ⟨v, noted, t, -, hp, hr⟩ | ⟨e, noted, t, -, -, hp, hr⟩ := (h a).inv
  · rw [Recorder.outcome, hp, hr]
    rfl
  · rw [Recorder.outcome, hp, hr]
    rfl

theorem exists_extend (h : r.Accounts p) (a : Account) : ∃ noted s, a.state.Adds noted s ∧
    stateBehind r a = a.extend noted s := by
  obtain ⟨v, noted, t, hadds, -, hr⟩ | ⟨e, noted, t, hadds, -, -, hr⟩ := (h a).inv
  · exact ⟨noted, t, hadds, by rw [stateBehind, hr]⟩
  · exact ⟨noted, t, hadds, by rw [stateBehind, hr]⟩

theorem pure (x : α) : Accounts (pure x) fun _ ↦ pure x := by
  intro a
  have h : a.Keeps (.ok x a.state) (.ok x (a.extend [] a.state)) := .ok (.refl _)
  rwa [Account.extend_nil] at h

theorem reading {q : Options → Reader α} (hq : ∀ o, Forward (q o)) (h : ∀ o, (q o).FailsAlong) :
    Accounts (reading q) fun o ↦ (q o : Parser α) := by
  intro a
  change a.Keeps (Parser.ofReader (q a.context.options) a.state) _
  unfold Recorder.reading Parser.ofReader
  have hstate : a.state.cursor = a.cursor := rfl
  rw [hstate]
  cases hc : q a.context.options a.cursor with
  | ok x c =>
    have hadds : a.state.Adds [] { a.state with cursor := c } :=
      .of_leads ((hq _ a.cursor).1 x c hc)
    have hkeeps : a.Keeps (.ok x _) _ := .ok hadds
    rwa [Account.extend_nil] at hkeeps
  | error e c =>
    have hadds : a.state.Adds [] { a.state with cursor := c } :=
      .of_leads ((hq _ a.cursor).2 e c hc)
    obtain ⟨d, hd, he⟩ := (h _ a.cursor e c hc).isAhead (.refl _)
    have hle : a.cursor.position.offset ≤ e.offset := by
      rw [Failure.offset, he.position]
      exact hd.offset_le
    have hkeeps : a.Keeps (.error e _ : Result Failure ParserState α) _ := .error hadds hle
    rwa [Account.extend_nil] at hkeeps

theorem bind {k : α → Recorder β} {l : α → Options → Parser β} (hr : r.Accounts p)
    (hk : ∀ x, (k x).Accounts (l x)) : Accounts (r >>= k) fun o ↦ p o >>= fun x ↦ l x o := by
  intro a
  change a.Keeps ((p a.context.options >>= _) a.state) _
  obtain ⟨v, noted, t, hadds, hx, hy⟩ | ⟨e, noted, t, hadds, hle, hx, hy⟩ := (hr a).inv
  · rw [bind_of_ok hx, bind_of_ok hy]
    exact (hk v (a.extend noted t)).before hadds
  · rw [bind_of_error hx, bind_of_error hy]
    exact .error hadds hle

theorem attempt (hr : r.Accounts p) : r.attempt.Accounts fun o ↦ (p o).attempt := by
  intro a
  change a.Keeps ((p a.context.options).attempt a.state) _
  unfold Recorder.attempt Parser.attempt
  obtain ⟨v, noted, t, hadds, hx, hy⟩ | ⟨e, noted, t, hadds, hle, hx, hy⟩ := (hr a).inv
  · rw [hx, hy]
    exact .ok hadds
  · rw [hx, hy]
    cases he : e.fatal with
    | true =>
      simp only [he, if_true]
      exact .error hadds hle
    | false =>
      -- what the alternative noted comes first, then the cursor is back and it is noted itself
      have hkeeps : a.Keeps (.ok (none : Option α) _) _ := .ok (hadds.giveUp he hle)
      rw [← Account.extend_extend _ _ _ { t with cursor := a.cursor }] at hkeeps
      simp only [he, Bool.false_eq_true, if_false]
      exact hkeeps

theorem tried {choice : Options → Choice α} {mayStart : List Char → Bool}
    (hr : r.Accounts fun o ↦ (choice o).parser) (hm : ∀ o, (choice o).mayStart = mayStart) :
    (tried mayStart r).Accounts fun o ↦ (choice o).tried := by
  intro a
  change a.Keeps ((choice a.context.options).tried a.state) _
  unfold Recorder.tried Choice.tried
  rw [hm]
  change a.Keeps (if mayStart a.cursor.rest then _ else _) _
  split
  · exact hr.attempt a
  · exact Accounts.pure none a

section

variable {K : Type} {kinds : List K} {rs : K → Recorder (Option α)}
  {choice : Options → K → Choice α} (h : ∀ k, (rs k).Accounts fun o ↦ (choice o k).tried)
include h

theorem first : (first (kinds.map rs)).Accounts fun o ↦ Choice.first (kinds.map (choice o)) := by
  induction kinds with
  | nil => exact .pure none
  | cons k kinds ih =>
    refine (h k).bind fun found ↦ ?_
    cases found with
    | some x => exact .pure (some x)
    | none => exact ih

theorem firstOr (expected : String) : (firstOr expected (kinds.map rs)).Accounts fun o ↦
    Choice.firstOr expected (kinds.map (choice o)) := by
  refine (first h).bind fun found ↦ ?_
  cases found with
  | some x => exact .pure x
  | none =>
    exact .reading (fun _ ↦ .mismatch expected) fun _ ↦ (Reader.Along.mismatch expected).fails

end

theorem collect {r : Recorder (Option α)} {p : Options → Parser (Option α)} (h : r.Accounts p)
    (hp : ∀ o, Forward (p o)) :
    Accounts (collect r h.forward) fun o ↦ EntityModels.collect (p o) (hp o) := by
  intro a
  induction hn : a.cursor.rest.length using Nat.strongRecOn generalizing a with
  | ind n ih =>
    change a.Keeps (EntityModels.collect (p a.context.options) _ a.state) _
    rw [collect_apply, collect_apply]
    obtain ⟨found, noted, t, hadds, hx, hy⟩ | ⟨e, noted, t, hadds, hle, hx, hy⟩ := (h a).inv
    · rw [hx, hy]
      cases found with
      | none => exact .ok hadds
      | some v =>
        -- the two repetitions go on under the same condition, and with the same options
        have hoffset : HasCursor.offset a < HasCursor.offset (a.extend noted t) ↔
            HasCursor.offset a.state < HasCursor.offset t := Iff.rfl
        simp only [hoffset]
        split
        · next hlt =>
          have hrest : (a.extend noted t).Keeps
              (EntityModels.collect (p a.context.options) (hp _) t) _ :=
            ih _ (hn ▸ hadds.leads.length_lt hlt) (a.extend noted t) rfl
          refine Account.Keeps.before ?_ hadds
          obtain ⟨vs, _, _, hmore, hx, hy⟩ | ⟨e, _, _, hmore, hle, hx, hy⟩ := hrest.inv
          · rw [hx, hy]
            exact .ok hmore
          · rw [hx, hy]
            exact .error hmore hle
        · exact .ok hadds
    · rw [hx, hy]
      exact .error hadds hle

end Accounts

end Recorder

end EntityModels
