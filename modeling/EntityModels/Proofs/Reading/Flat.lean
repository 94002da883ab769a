import EntityModels.Grammar.Block
import EntityModels.Proofs.Grammar.Locality
import EntityModels.Proofs.Parsing.Outcome
import EntityModels.Proofs.Reading.Stage

/-!
The grammar reads a document in two loops, the members of an entity inside the items of the
document. Here the two are shown to be one loop that takes a line each time round.
-/

namespace EntityModels

/-- A place with nothing around. -/
def Place.alone : Place := ⟨.start, [], none⟩

theorem Member.choice_next {options : Options} {s t : ParserState} {m : Member}
    (h : (choice options).tried s = .ok (some m) t) : t.cursor = s.cursor.nextLine :=
  (@choice_endsLine .alone options).tried.leads s (some m) t h

namespace Entity

def head : Reader Entity := do
  let start ← Reader.position
  let header ← header
  let stop ← Reader.position
  return { header with members := [], span := start.spanTo stop }

def body (options : Options) (e : Entity) : Parser Entity := do
  let members ← collect (Member.choice options).tried (Member.choice options).tried_forward
  let stop ← Reader.position
  return { e with members := e.members ++ members, span := ⟨e.span.start, stop.location⟩ }

theorem head_forward : Forward head :=
  Forward.position.bind fun _ ↦ header_forward.bind fun _ ↦ Forward.position.bind fun _ ↦ .pure _

theorem body_forward (options : Options) (e : Entity) : Forward (body options e) :=
  (collect_forward _).bind fun _ ↦ (Parser.ofReader_forward .position).bind fun _ ↦ .pure _

theorem head_endsLine {place : Place} : EndsLine place (mapSpan place.move) head head :=
  InLine.position.bindEnds fun _ ↦ header_endsLine.bindStays fun _ ↦
    Stays.position.bind fun _ ↦ .pure rfl

theorem head_stop {c d : Cursor} {e : Entity} (h : head c = .ok e d) :
    e.span.stop = d.position.location := by
  obtain ⟨start, c', -, h⟩ := bind_ok h
  obtain ⟨header, d', -, h⟩ := bind_ok h
  cases h
  rfl

theorem parser_eq (options : Options) :
    parser options = (head : Parser Entity) >>= body options := by
  funext s
  simp only [parser, parserWith, head, body, Parser.ofReader_bind, Parser.ofReader_pure, bind_apply,
    position_apply, pure_apply]
  cases (header : Parser Header) s with
  | error e t => rfl
  | ok h t =>
    simp only [List.nil_append]
    rfl

section

variable {options : Options} {e : Entity} {s t : ParserState}

theorem body_of_error {err : Failure} (h : (Member.choice options).tried s = .error err t) :
    e.body options s = .error err t := by
  rw [body, bind_apply, collect_apply, h]

theorem body_of_none (h : (Member.choice options).tried s = .ok none t)
    (he : e.span.stop = t.cursor.position.location) : e.body options s = .ok e t := by
  rw [body, bind_apply, collect_apply, h]
  simp [bind_apply, position_apply, pure_apply, ← he]

/-- With one more line an entity reaches as far as this line, and goes on from there. -/
theorem body_of_some {m : Member} (h : (Member.choice options).tried s = .ok (some m) t)
    (ho : HasCursor.offset s < HasCursor.offset t) :
    e.body options s = (e.extend m t.cursor.position.location).body options t := by
  rw [body, body, bind_apply, bind_apply, collect_apply, h]
  simp only [if_pos ho]
  cases collect (Member.choice options).tried (Member.choice options).tried_forward t with
  | error err u => rfl
  | ok ms u => simp [bind_apply, position_apply, pure_apply, extend]

end

/-- A line under an entity that cannot be given up ends the reading. -/
theorem body_fatal {options : Options} {e : Entity} {s t : ParserState} {err : Failure}
    (h : body options e s = .error err t) : err.fatal = true := by
  unfold body at h
  rw [bind_apply] at h
  have hcollect : ∀ s err t, collect (Member.choice options).tried
      (Member.choice options).tried_forward s = .error err t → err.fatal = true := by
    intro s
    fun_induction collect (Member.choice options).tried
      (Member.choice options).tried_forward s with
    | case1 s e t hs =>
      intro err u hu
      cases hu
      exact (Choice.tried_error hs).2
    | case2 | case3 | case5 => intro err u hu; cases hu
    | case4 s a t hs _ e u hu ih => intro err v hv; cases hv; exact ih _ _ hu
  split at h
  · cases h
  · next e' t' hc => cases h; exact hcollect _ _ _ hc

end Entity

namespace ItemKind

def lineReader : ItemKind → Reader Item
  | entity => return .entity (← Entity.head)
  | blank => return .blank (← BlankLine.reader)
  | comment => return .comment (← CommentLine.reader)

theorem lineReader_forward (kind : ItemKind) : Forward kind.lineReader := by
  cases kind with
  | entity => exact Entity.head_forward.bind fun _ ↦ .pure _
  | blank => exact BlankLine.reader_forward.bind fun _ ↦ .pure _
  | comment => exact CommentLine.reader_forward.bind fun _ ↦ .pure _

theorem lineReader_endsLine {place : Place} (kind : ItemKind) :
    EndsLine place (Item.mapSpan place.move) kind.lineReader kind.lineReader := by
  cases kind with
  | entity => exact Entity.head_endsLine.bindStays fun _ ↦ .pure rfl
  | blank => exact BlankLine.reader_endsLine.bindStays fun _ ↦ .pure rfl
  | comment => exact CommentLine.reader_endsLine.bindStays fun _ ↦ .pure rfl

theorem mayStart_asksLine (kind : ItemKind) : AsksLine kind.mayStart := by
  cases kind with
  | entity => exact asksLine_char _
  | blank => exact BlankLine.mayStart_asksLine
  | comment => exact CommentLine.mayStart_asksLine

def lineChoice (kind : ItemKind) : Choice Item :=
  ⟨kind.mayStart, kind.lineReader, Parser.ofReader_forward kind.lineReader_forward⟩

end ItemKind

namespace Item

def lineParser : Parser Item := Choice.firstOr expected (ItemKind.all.map ItemKind.lineChoice)

theorem lineParser_endsLine {place : Place} :
    EndsLine place (mapSpan place.move) lineParser lineParser := by
  refine Choice.firstOr_endsLine _ fun choice h ↦ ?_
  obtain ⟨kind, -, rfl⟩ := List.mem_map.1 h
  exact ⟨kind.lineReader_endsLine.ofReader, kind.mayStart_asksLine place⟩

theorem lineParser_next {s t : ParserState} {item : Item} (h : lineParser s = .ok item t) :
    t.cursor = s.cursor.nextLine :=
  (@lineParser_endsLine .alone).leads s item t h

theorem lineParser_stop {s t : ParserState} {e : Entity}
    (h : lineParser s = .ok (.entity e) t) : e.span.stop = t.cursor.position.location := by
  obtain ⟨choice, hc, s', -, -, hp⟩ := Choice.firstOr_ok h
  obtain ⟨kind, -, rfl⟩ := List.mem_map.1 hc
  have hr : kind.lineReader s'.cursor = .ok (.entity e) t.cursor := Parser.ofReader_ok hp
  cases kind with
  | entity =>
    obtain ⟨e', d, hh, hr⟩ := bind_ok hr
    obtain ⟨⟩ := hr
    exact Entity.head_stop hh
  | blank =>
    obtain ⟨line, d, -, hr⟩ := bind_ok hr
    cases hr
  | comment =>
    obtain ⟨line, d, -, hr⟩ := bind_ok hr
    cases hr

/-- What of an item stands behind its first line. -/
def finish (options : Options) : Item → Parser Item
  | entity e => Item.entity <$> e.body options
  | item => return item

theorem eq_entity {item : Item} {e : Entity} (h : item.entity? = some e) : item = .entity e := by
  cases item with
  | entity e' =>
    cases h
    rfl
  | blank line => cases h
  | comment line => cases h

theorem finish_of_entity?_eq_none (options : Options) {item : Item} (h : item.entity? = none) :
    item.finish options = pure item := by
  cases item with
  | entity e => cases h
  | blank line => rfl
  | comment line => rfl

theorem finish_fatal (options : Options) (item : Item) (s : ParserState) (err : Failure)
    (t : ParserState) (h : finish options item s = .error err t) : err.fatal = true := by
  cases item with
  | entity e =>
    change (Item.entity <$> e.body options) s = _ at h
    rw [map_apply] at h
    split at h
    · cases h
    · next hb => cases h; exact Entity.body_fatal hb
  | blank line => cases h
  | comment line => cases h

end Item

theorem ItemKind.parser_eq (options : Options) (kind : ItemKind) :
    kind.parser options = (kind.lineReader : Parser Item) >>= Item.finish options := by
  funext s
  cases kind with
  | entity =>
    simp only [ItemKind.parser, lineReader, Entity.parser_eq, Parser.ofReader_bind,
      Parser.ofReader_pure, bind_apply, pure_apply]
    cases (Entity.head : Parser Entity) s with
    | error e t => rfl
    | ok e t =>
      simp only [Item.finish, map_apply]
      cases e.body options t <;> rfl
  | blank =>
    simp only [ItemKind.parser, lineReader, Parser.ofReader_bind, Parser.ofReader_pure, bind_apply,
      pure_apply]
    cases (BlankLine.reader : Parser BlankLine) s <;> rfl
  | comment =>
    simp only [ItemKind.parser, lineReader, Parser.ofReader_bind, Parser.ofReader_pure, bind_apply,
      pure_apply]
    cases (CommentLine.reader : Parser CommentLine) s <;> rfl

/-- Of an alternative of which the first line is read, the rest is read as well. -/
theorem ItemKind.tried_eq (options : Options) (kind : ItemKind) :
    (kind.choice options).tried =
      kind.lineChoice.tried >>= Parser.onSome (Item.finish options) := by
  funext s
  rw [bind_apply]
  unfold Choice.tried
  change (if kind.mayStart s.cursor.rest then (kind.parser options).attempt s else _) = _
  by_cases hm : kind.mayStart s.cursor.rest
  · have hl : kind.lineChoice.mayStart s.cursor.rest = true := hm
    rw [if_pos hm, if_pos hl, kind.parser_eq, Parser.attempt_bind (Item.finish_fatal options),
      bind_apply]
    rfl
  · have hl : ¬kind.lineChoice.mayStart s.cursor.rest = true := hm
    rw [if_neg hm, if_neg hl]
    rfl

namespace Item

theorem first_eq (options : Options) (kinds : List ItemKind) :
    Choice.first (kinds.map (ItemKind.choice options)) =
      Choice.first (kinds.map ItemKind.lineChoice) >>= Parser.onSome (finish options) := by
  induction kinds with
  | nil => rfl
  | cons kind kinds ih =>
    funext s
    rw [List.map_cons, List.map_cons, Choice.first, Choice.first, ih, kind.tried_eq]
    simp only [bind_apply]
    cases kind.lineChoice.tried s with
    | error e t => rfl
    | ok found t =>
      cases found with
      | none => exact bind_apply _ _ t
      | some item =>
        simp only [Parser.onSome, map_apply, pure_apply]
        cases item.finish options t <;> rfl

theorem parser_eq (options : Options) : parser options = lineParser >>= finish options := by
  funext s
  rw [parser, lineParser, Choice.firstOr, Choice.firstOr, first_eq]
  simp only [bind_apply]
  cases Choice.first (ItemKind.all.map ItemKind.lineChoice) s with
  | error e t => rfl
  | ok found t =>
    cases found with
    | none => rfl
    | some item =>
      simp only [Parser.onSome, map_apply, pure_apply]
      cases item.finish options t <;> rfl

theorem attempt_eq (options : Options) :
    (parser options).attempt = lineParser.attempt >>= Parser.onSome (finish options) := by
  rw [parser_eq, Parser.attempt_bind (finish_fatal options)]

end Item

end EntityModels
