import EntityModels.Proofs.Reading.Documents

namespace EntityModels

namespace Stage

def mapSpan (f : Span → Span) (s : Stage) : Stage :=
  ⟨s.complete.map (Item.mapSpan f), s.opened.map (Entity.mapSpan f)⟩

variable (options : Options) (f : Span → Span)

theorem mapSpan_items (s : Stage) : (s.mapSpan f).items = s.items.map (Item.mapSpan f) := by
  cases ho : s.opened <;> simp [items, mapSpan, ho, Item.mapSpan]

theorem mapSpan_push (s : Stage) (item : Item) :
    (s.push item).mapSpan f = (s.mapSpan f).push (item.mapSpan f) := by
  rw [push, push, mapSpan_items, mapSpan, List.map_append]
  rfl

theorem mapSpan_start (s : Stage) (e : Entity) :
    (s.start e).mapSpan f = (s.mapSpan f).start (e.mapSpan f) := by
  rw [start, start, mapSpan_items]
  rfl

section

variable (base : Location) (place : Span → Span) (line : List Char) (s : Stage)

theorem member?_within :
    (s.mapSpan (Span.within base)).member? options (Span.within base ∘ place) line =
      (s.member? options place line).map (mapSpan (Span.within base)) := by
  cases ho : s.opened with
  | none =>
    have ho' : (s.mapSpan (Span.within base)).opened = none := by rw [mapSpan, ho]; rfl
    rw [member?_of_closed ho, member?_of_closed ho', Option.map_none]
  | some e =>
    have ho' : (s.mapSpan (Span.within base)).opened = some (e.mapSpan (Span.within base)) := by
      rw [mapSpan, ho]
      rfl
    rw [member?_of_opened ho, member?_of_opened ho', Option.map_map]
    refine Option.map_congr fun m _ ↦ ?_
    simp only [Function.comp, mapSpan, Option.map_some, Entity.extend, Entity.mapSpan,
      List.map_append, List.map_cons, List.map_nil, Member.mapSpan_mapSpan]
    rfl

theorem header?_within :
    (s.mapSpan (Span.within base)).header? options (Span.within base ∘ place) line =
      (s.header? options place line).map (mapSpan (Span.within base)) := by
  rw [header?, header?]
  cases readAlone (Entity.parser options) line with
  | none => rfl
  | some e =>
    simp only [Option.bind_eq_bind, Option.bind_some, Option.pure_def, Option.map_some,
      mapSpan_start, Entity.mapSpan_mapSpan]

theorem trivia?_within :
    (s.mapSpan (Span.within base)).trivia? (Span.within base ∘ place) line =
      (s.trivia? place line).map (mapSpan (Span.within base)) := by
  have ho : (s.mapSpan (Span.within base)).opened.isSome = s.opened.isSome := Option.isSome_map
  rw [trivia?, trivia?, ho]
  split
  · rfl
  · cases readAlone BlankLine.reader line with
    | some l =>
      refine congrArg some ?_
      rw [mapSpan_push]
      rfl
    | none =>
      cases readAlone CommentLine.reader line with
      | some l =>
        refine congrArg some ?_
        rw [mapSpan_push]
        rfl
      | none => rfl

theorem trailing?_within :
    (s.mapSpan (Span.within base)).trailing? options (Span.within base ∘ place) line =
      (s.trailing? options place line).map (mapSpan (Span.within base)) := by
  rw [trailing?, trailing?]
  split
  · rw [Option.map_some, mapSpan_push]
    rfl
  · rfl

theorem step_within :
    (s.mapSpan (Span.within base)).step options (Span.within base ∘ place) line =
      (s.step options place line).map (mapSpan (Span.within base)) := by
  rw [step, step, member?_within, header?_within, trivia?_within, trailing?_within]
  cases s.member? options place line with
  | some s' => rfl
  | none =>
    cases s.header? options place line with
    | some s' => rfl
    | none => cases s.trivia? place line <;> rfl

end

/-- What the machine has in a place is what it has alone, moved to the place. -/
theorem run_within (base : Position) (ls : List (List Char)) {p : Position} (hp : p.Genuine)
    (s : Stage) :
    run options inPlace (base.within p) ls (s.mapSpan (Span.within base.location)) =
      (run options inPlace p ls s).map (mapSpan (Span.within base.location)) := by
  induction ls generalizing p s with
  | nil => rfl
  | cons line rest ih =>
    have hplace : inPlace (base.within p) = Span.within base.location ∘ inPlace p :=
      (Span.within_comp_within base.location hp.1 hp.2).symm
    rw [run, run, hplace, step_within, ← Position.within_after base hp]
    cases s.step options (inPlace p) line with
    | none => rfl
    | some s' => exact ih (hp.after line) s'

end Stage

theorem Document.parse_ofList_iff (options : Options) {ls : List (List Char)} (h : Linewise ls)
    (base : Position) (d : Document) :
    (∃ g, parse options (String.ofList ls.flatten) = .ok g ∧
        d = g.mapSpan (Span.within base.location)) ↔
      ∃ s, Stage.run options Stage.inPlace base ls {} = some s ∧
        d = ⟨s.items, base.spanTo (base.after ls.flatten)⟩ := by
  have hrun := Stage.run_within options base ls Position.genuine_start {}
  rw [Position.within_start] at hrun
  have hempty : Stage.mapSpan (Span.within base.location) {} = {} := rfl
  rw [hempty] at hrun
  have hspan : Span.within base.location (wholeSpan ls.flatten) =
      base.spanTo (base.after ls.flatten) := by
    rw [Position.after_eq_within base]
    exact (Position.spanTo_within base .start _).symm
  have hmoved (s : Stage) : mapSpan (Span.within base.location) ⟨s.items, wholeSpan ls.flatten⟩ =
      ⟨(s.mapSpan (Span.within base.location)).items, base.spanTo (base.after ls.flatten)⟩ := by
    rw [Stage.mapSpan_items, mapSpan, hspan]
  have hparse (g : Document) : parse options (String.ofList ls.flatten) = .ok g ↔
      ∃ s, Stage.run options Stage.inPlace .start ls {} = some s ∧
        g = ⟨s.items, wholeSpan ls.flatten⟩ := by
    rw [parse_eq_ok_iff, String.toList_ofList, h.lines_flatten]
  rw [hrun]
  constructor
  · rintro ⟨g, hg, rfl⟩
    obtain ⟨s, hs, rfl⟩ := (hparse g).1 hg
    refine ⟨s.mapSpan (Span.within base.location), ?_, hmoved s⟩
    rw [hs, Option.map_some]
  · rintro ⟨t, ht, rfl⟩
    obtain ⟨s, hs, rfl⟩ := Option.map_eq_some_iff.1 ht
    exact ⟨_, (hparse _).2 ⟨s, hs, rfl⟩, (hmoved s).symm⟩

end EntityModels
