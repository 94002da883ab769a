import Mathlib.Data.List.Induction
import Mathlib.Data.List.TakeWhile
import EntityModels.Proofs.Reading.Concatenation
import EntityModels.Proofs.Reading.MissingMarker
import EntityModels.Proofs.Text.Places

namespace EntityModels

section

variable {options : Options} {c : Cursor}

theorem Member.tried_failsAhead : Parser.FailsAhead c (choice options).tried := by
  refine .tried (.firstOr fun choice hc ↦ ?_)
  obtain ⟨kind, -, rfl⟩ := List.mem_map.1 hc
  exact .ofReader (kind.reader_forward options) (kind.reader_failsAlong options)

theorem Reader.position_failsAhead : Parser.FailsAhead c (Reader.position : Parser Position) :=
  .ofReader .position Reader.Along.position.fails

theorem Entity.parser_failsAhead : Parser.FailsAhead c (parser options) :=
  Reader.position_failsAhead.bind fun _ ↦
    (Parser.FailsAhead.ofReader header_forward header_failsAlong).bind fun _ ↦
      (Parser.Triple.collect _ Member.tried_failsAhead).bind fun _ ↦
        Reader.position_failsAhead.bind fun _ ↦ .pure fun _ hd ↦ hd

theorem ItemKind.parser_failsAhead (kind : ItemKind) :
    Parser.FailsAhead c (kind.parser options) := by
  cases kind with
  | entity => exact Entity.parser_failsAhead.bind fun _ ↦ .pure fun _ hd ↦ hd
  | blank =>
    exact (Parser.FailsAhead.ofReader BlankLine.reader_forward BlankLine.reader_failsAlong).bind
      fun _ ↦ .pure fun _ hd ↦ hd
  | comment =>
    exact (Parser.FailsAhead.ofReader CommentLine.reader_forward CommentLine.reader_failsAlong).bind
      fun _ ↦ .pure fun _ hd ↦ hd

theorem Item.required_failsAhead (expected : String) :
    Parser.FailsAhead c (required options expected) := by
  have hparser : Parser.FailsAhead c (parser options) := by
    refine .firstOr fun choice hc ↦ ?_
    obtain ⟨kind, -, rfl⟩ := List.mem_map.1 hc
    exact kind.parser_failsAhead
  refine hparser.attempt.bind fun found ↦ ?_
  cases found with
  | some item => exact .pure fun _ hd ↦ hd
  | none => exact .stuck fun d hd ↦ (Failure.IsAt.mismatch d expected).isAhead hd

theorem Document.items_failsAhead {next : Parser (Option Item)} (hf : Forward next)
    (h : Parser.FailsAhead c next) : Parser.FailsAhead c (do
      let start ← Reader.position
      let items ← collect next hf
      let stop ← Reader.position
      return ⟨items, start.spanTo stop⟩ : Parser Document) :=
  Reader.position_failsAhead.bind fun _ ↦ (Parser.Triple.collect hf h).bind fun _ ↦
    Reader.position_failsAhead.bind fun _ ↦ .pure fun _ hd ↦ hd

theorem Document.nextItem_failsAhead : Parser.FailsAhead c (nextItem options) := by
  have htrailing : Parser.FailsAhead c (trailing options : Parser (Option BlankLine)) := by
    refine .ofReader (.ite BlankLine.trailing_forward (.pure _)) (.of_ok fun d ↦ ?_)
    unfold trailing
    split
    · rw [BlankLine.trailing_apply]
      split
      · exact ⟨_, _, rfl⟩
      · exact ⟨_, _, rfl⟩
    · exact ⟨_, d, rfl⟩
  refine (Parser.FailsAhead.ofReader .next? Reader.Along.next?.fails).bind fun _ ↦
    .ite (.pure fun _ hd ↦ hd) (htrailing.bind fun line ↦ ?_)
  cases line with
  | some line => exact .pure fun _ hd ↦ hd
  | none => exact (Item.required_failsAhead _).bind fun _ ↦ .pure fun _ hd ↦ hd

theorem Block.nextItem_failsAhead : Parser.FailsAhead c (nextItem options) := by
  have hclosing : Parser.FailsAhead c (Reader.startsWith options.markers.closing : Parser Bool) :=
    .ofReader (.startsWith _) (.of_ok fun d ↦ ⟨_, d, rfl⟩)
  refine hclosing.bind fun _ ↦ .ite (.pure fun _ hd ↦ hd) ?_
  refine (Parser.FailsAhead.ofReader .next? Reader.Along.next?.fails).bind fun _ ↦ .ite ?_ ?_
  · exact .stuck fun d hd ↦ Failure.IsAt.isAhead ⟨rfl, rfl⟩ hd
  · exact (Item.required_failsAhead _).bind fun _ ↦ .pure fun _ hd ↦ hd

variable {text : String} {e : Failure}

theorem Document.isAhead_of_parse (h : parse options text = .error e) :
    e.IsAhead (.ofText text.toList) := by
  unfold parse at h
  split at h
  · cases h
  · next t hread =>
    cases h
    have hparser : Parser.FailsAhead (.ofText text.toList) (parser options) :=
      items_failsAhead _ nextItem_failsAhead
    exact (hparser.error _ _ _ hread (.refl _) fun f hf ↦ by cases hf).1

theorem Block.isAhead_of_parse (h : parse options text = .error e) :
    e.IsAhead (.ofText text.toList) := by
  unfold parse at h
  cases hafter : afterOpening options.markers.opening text.toList .start with
  | error e' =>
    rw [hafter] at h
    cases h
    obtain ⟨-, expected, rfl⟩ := afterOpening_error hafter
    have hend : (Cursor.ofText text.toList).LeadsTo ⟨[], Position.start.after text.toList⟩ :=
      ⟨text.toList, (List.append_nil _).symm, rfl⟩
    exact Failure.IsAt.isAhead ⟨rfl, rfl⟩ hend
  | ok inside =>
    rw [hafter] at h
    have hinside := leadsTo_of_afterOpening hafter
    dsimp only [bind, Except.bind] at h
    split at h
    · cases h
    · next t hread =>
      cases h
      have hparser : Parser.FailsAhead (.ofText text.toList) (parser options) :=
        Document.items_failsAhead _ nextItem_failsAhead
      exact (hparser.error _ _ _ hread hinside fun f hf ↦ by cases hf).1

end

/-- What a message says of a text: that it ends here, that its line ends here, that there is space,
or else the word that stands here, up to its sixteenth character. -/
inductive Describes : List Char → String → Prop
  | input : Describes [] "end of input"
  | line (rest : List Char) : Describes ('\n' :: rest) "end of line"
  | space {x : Char} (rest : List Char) : Unicode.isWhiteSpace x → x ≠ '\n' →
      Describes (x :: rest) "whitespace"
  | word {word rest : List Char} : word ≠ [] → (∀ x ∈ word, Unicode.isWhiteSpace x = false) →
      word.length ≤ 16 → (word.length < 16 → rest.head?.all Unicode.isWhiteSpace) →
        Describes (word ++ rest) ("`" ++ String.ofList word ++ "`")

theorem describes_word {x : Char} (hx : Unicode.isWhiteSpace x = false) (rest : List Char) :
    Describes (x :: rest) ("`" ++ String.ofList
      (((x :: rest).takeWhile fun y ↦ !Unicode.isWhiteSpace y).take 16) ++ "`") := by
  let run := (x :: rest).takeWhile fun y ↦ !Unicode.isWhiteSpace y
  let behind := (x :: rest).dropWhile fun y ↦ !Unicode.isWhiteSpace y
  have hrun : run = x :: rest.takeWhile fun y ↦ !Unicode.isWhiteSpace y :=
    List.takeWhile_cons_of_pos (by rw [hx]; rfl)
  have hcut : x :: rest = run.take 16 ++ (run.drop 16 ++ behind) := by
    rw [← List.append_assoc, List.take_append_drop, List.takeWhile_append_dropWhile]
  have hword : Describes (run.take 16 ++ (run.drop 16 ++ behind))
      ("`" ++ String.ofList (run.take 16) ++ "`") := by
    refine .word (by simp [hrun]) (fun y hy ↦ ?_) (List.length_take_le 16 run) fun hlt ↦ ?_
    · have hsolid := List.mem_takeWhile_imp (List.mem_of_mem_take hy)
      simpa using hsolid
    · -- the whole word is shown, and behind it there is space or nothing
      have hall : run.drop 16 = [] := by
        rw [List.length_take] at hlt
        exact List.drop_eq_nil_of_le (by omega)
      rw [hall, List.nil_append]
      cases hb : behind with
      | nil => rfl
      | cons y more =>
        have hstop : behind.head?.any (fun y ↦ !Unicode.isWhiteSpace y) = false :=
          head?_dropWhile_any _ (x :: rest)
        rw [hb] at hstop
        simpa using hstop
  rw [← hcut] at hword
  exact hword

theorem Cursor.describes_describe (c : Cursor) : Describes c.rest c.describe := by
  obtain ⟨rest, p⟩ := c
  cases rest with
  | nil => exact .input
  | cons x rest =>
    let solid (y : Char) : Bool := !Unicode.isWhiteSpace y
    have hshown : describe ⟨x :: rest, p⟩ = if isLineEnd x then "end of line"
        else if Unicode.isWhiteSpace x then "whitespace"
        else "`" ++ String.ofList (((x :: rest).takeWhile solid).take 16) ++ "`" := rfl
    rw [hshown]
    split
    · next hx =>
      obtain rfl := isLineEnd_iff.1 hx
      exact .line rest
    · next hx =>
      split
      · next hs => exact .space rest hs fun he ↦ hx (isLineEnd_iff.2 he)
      · next hs => exact describes_word (Bool.eq_false_iff.2 hs) rest

/-- The front of a run is found again if it is as long as allowed or the run ends with it. -/
theorem take_takeWhile {test : Char → Bool} {word rest : List Char} {n : Nat}
    (hword : ∀ x ∈ word, test x) (hle : word.length ≤ n)
    (hstop : word.length < n → rest.head?.any test = false) :
    ((word ++ rest).takeWhile test).take n = word := by
  rw [List.takeWhile_append_of_pos hword]
  rcases hle.lt_or_eq with hlt | rfl
  · rw [(takeWhile_of_head (hstop hlt)).1, List.append_nil, List.take_of_length_le hle]
  · exact List.take_left

theorem Cursor.describes_iff {c : Cursor} {shown : String} :
    Describes c.rest shown ↔ shown = c.describe := by
  refine ⟨fun h ↦ ?_, fun h ↦ h ▸ c.describes_describe⟩
  obtain ⟨text, p⟩ := c
  cases h with
  | input | line => rfl
  | space rest hs hn => simp [describe, isLineEnd, hs, hn]
  | @word word rest hne hsolid hle hstop =>
    have hfront : ((word ++ rest).takeWhile fun y ↦ !Unicode.isWhiteSpace y).take 16 = word := by
      refine take_takeWhile (fun x hx ↦ by rw [hsolid x hx]; rfl) hle fun hlt ↦ ?_
      have hspace := hstop hlt
      cases hr : rest.head? with
      | none => rfl
      | some y =>
        rw [hr] at hspace
        simpa using hspace
    obtain ⟨x, word, rfl⟩ := List.exists_cons_of_ne_nil hne
    have hx := hsolid x List.mem_cons_self
    have hend : isLineEnd x = false := by
      refine Bool.eq_false_iff.2 fun he ↦ ?_
      obtain rfl := isLineEnd_iff.1 he
      revert hx
      decide
    have hshown : describe ⟨x :: (word ++ rest), p⟩ = "`" ++ String.ofList (x :: word) ++ "`" := by
      rw [List.cons_append] at hfront
      simp only [describe, hend, hx, Bool.false_eq_true, if_false, hfront]
    exact hshown.symm

/-- A text is made up of whole lines and what stands on the last one. -/
theorem exists_lastLine (text : List Char) :
    ∃ front last, text = front ++ last ∧ Ended front ∧ '\n' ∉ last := by
  induction text using List.reverseRecOn with
  | nil => exact ⟨[], [], rfl, .inl rfl, List.not_mem_nil⟩
  | append_singleton text c ih =>
    by_cases hc : c = '\n'
    · subst hc
      exact ⟨text ++ ['\n'], [], (List.append_nil _).symm, .inr (by simp), List.not_mem_nil⟩
    · obtain ⟨front, last, rfl, hfront, hlast⟩ := ih
      refine ⟨front, last ++ [c], List.append_assoc _ _ _, hfront, ?_⟩
      simp [hlast, Ne.symm hc]

theorem Position.after_lastLine {front last : List Char} (hfront : Ended front)
    (hlast : '\n' ∉ last) : Position.start.after (front ++ last) =
      ⟨front.count '\n' + 1, last.length + 1, byteLength (front ++ last)⟩ := by
  rw [after_append, hfront.after_start]
  ext
  · rw [after_line, List.count_eq_zero.2 hlast]
  · rw [after_column _ hlast]
    exact Nat.add_comm _ _
  · rw [after_offset, byteLength_append]

theorem Cursor.shown_invalidInteger (c : Cursor) : ∃ run more, c.rest = run ++ more ∧
    (∀ x ∈ run, isIdentChar x) ∧ more.head?.any isIdentChar = false ∧
      c.shown .invalidInteger = "`" ++ String.ofList run ++ "`" :=
  ⟨_, _, List.takeWhile_append_dropWhile.symm, fun _ hx ↦ List.mem_takeWhile_imp hx,
    head?_dropWhile_any isIdentChar c.rest, rfl⟩

theorem Cursor.describes_shown (c : Cursor) {cause : Cause} (h : cause ≠ .invalidInteger) :
    Describes c.rest (c.shown cause) := by
  cases cause with
  | invalidInteger => exact absurd rfl h
  | structuralMismatch | unterminatedLine | markerNotFound => exact Cursor.describes_iff.2 rfl

/-- A failure stands between two characters of the text. Its bytes are those in front of it, its
line and column are counted there as well, and it shows what stands behind it: the beginning of a
word, or what else there is, and for an integer that is none the whole word. -/
theorem failures_faithful (options : Options) (text : String) (e : Failure)
    (h : Document.parse options text = .error e ∨ Block.parse options text = .error e) :
    ∃ front last rest, text.toList = front ++ last ++ rest ∧ Ended front ∧ '\n' ∉ last ∧
      e.offset = (String.ofList (front ++ last)).utf8ByteSize ∧
      e.location = ⟨front.count '\n' + 1, last.length + 1⟩ ∧
      (e.cause ≠ .invalidInteger → Describes rest e.found) ∧
      (e.cause = .invalidInteger → ∃ run more, rest = run ++ more ∧ (∀ c ∈ run, isIdentChar c) ∧
        more.head?.any isIdentChar = false ∧ e.found = "`" ++ String.ofList run ++ "`") := by
  have hahead : e.IsAhead (.ofText text.toList) :=
    h.elim Document.isAhead_of_parse Block.isAhead_of_parse
  obtain ⟨d, ⟨before, htext, hd⟩, hposition, hfound⟩ := hahead
  obtain ⟨front, last, rfl, hfront, hlast⟩ := exists_lastLine before
  have hplace : e.position =
      ⟨front.count '\n' + 1, last.length + 1, byteLength (front ++ last)⟩ :=
    hposition.trans (hd.trans (Position.after_lastLine hfront hlast))
  refine ⟨front, last, d.rest, htext, hfront, hlast, ?_, ?_, fun hcause ↦ ?_, fun hcause ↦ ?_⟩
  · rw [utf8ByteSize_ofList, Failure.offset, hplace]
  · rw [Failure.location, hplace]
    rfl
  · rw [hfound]
    exact d.describes_shown hcause
  · rw [hfound, hcause]
    exact d.shown_invalidInteger

theorem failure_of_length : ∃ e front last rest,
    Document.parse default "-- é\nA\n  b Int maxlen=1x\n" = .error e ∧
      "-- é\nA\n  b Int maxlen=1x\n".toList = front ++ last ++ rest ∧
        e.offset = (String.ofList (front ++ last)).utf8ByteSize ∧
          e.location = ⟨front.count '\n' + 1, last.length + 1⟩ ∧
            e.location = ⟨3, 16⟩ ∧ e.offset = 23 ∧ e.found = "`1x`" := by
  let e : Failure := ⟨.invalidInteger, "base-10 integer", "`1x`", ⟨3, 16, 23⟩, true⟩
  have hparse : Document.parse default "-- é\nA\n  b Int maxlen=1x\n" = .error e := by
    decide +kernel
  obtain ⟨front, last, rest, htext, -, -, hoffset, hlocation, -, -⟩ :=
    failures_faithful default _ e (.inl hparse)
  exact ⟨e, front, last, rest, hparse, htext, hoffset, hlocation, rfl, rfl, rfl⟩

end EntityModels
