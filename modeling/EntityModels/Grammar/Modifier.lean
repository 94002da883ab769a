import EntityModels.Grammar.Lexeme

/-!
Modifiers of a field. There are two groups of them, flags and settings. A group is read in any
order, each kind at most once, and ends before the first thing that is no modifier still to come.
-/

namespace EntityModels

theorem length_erase_lt {K : Type} [DecidableEq K] {k : K} {kinds : List K} (h : k ∈ kinds) :
    (kinds.erase k).length < kinds.length := by
  have := List.length_pos_of_mem h
  rw [List.length_erase_of_mem h]
  omega

def Reader.firstKind {K V : Type} (read : K → Reader (Option V)) :
    (kinds : List K) → Reader (Option ({k // k ∈ kinds} × V))
  | [] => return none
  | k :: kinds => do
    match ← rewindUnless Option.isSome (read k) with
    | some v => return some (⟨k, List.mem_cons_self⟩, v)
    | none =>
      let found ← firstKind read kinds
      return found.map fun (m, v) ↦ (⟨m.1, List.mem_cons_of_mem k m.2⟩, v)

def Reader.modifiers {K V : Type} [DecidableEq K] (read : K → Reader (Option V)) (kinds : List K) :
    Reader (List (K × V)) := do
  let found ← rewindUnless Option.isSome do
    if ← someSpace then firstKind read kinds else return none
  match found with
  | none => return []
  | some (⟨k, _⟩, v) => return (k, v) :: (← modifiers read (kinds.erase k))
termination_by kinds.length
decreasing_by exact length_erase_lt ‹k ∈ kinds›

namespace Reader

variable {K V : Type}

theorem firstKind_forward {read : K → Reader (Option V)} (h : ∀ k, Forward (read k))
    (kinds : List K) : Forward (firstKind read kinds) := by
  induction kinds with
  | nil => exact .pure _
  | cons k kinds ih =>
    refine (Forward.rewindUnless (h k)).bind fun v ↦ ?_
    cases v with
    | some v => exact .pure _
    | none => exact ih.bind fun _ ↦ .pure _

theorem modifiers_forward [DecidableEq K] {read : K → Reader (Option V)}
    (h : ∀ k, Forward (read k)) (kinds : List K) : Forward (modifiers read kinds) := by
  induction hn : kinds.length using Nat.strongRecOn generalizing kinds with
  | ind n ih =>
    rw [modifiers]
    refine (Forward.rewindUnless (someSpace_forward.bind fun _ ↦
      .ite (firstKind_forward h kinds) (.pure _))).bind fun found ↦ ?_
    match found with
    | none => exact .pure _
    | some (⟨k, hk⟩, v) =>
      exact (ih _ (hn ▸ length_erase_lt hk) (kinds.erase k) rfl).bind fun _ ↦ .pure _

end Reader

/-- Flags are given by their word alone, whatever stands behind it. -/
inductive Flag where
  | migrationOnly
  | safeToRemove
  deriving DecidableEq, Repr

namespace Flag

def all : List Flag := [migrationOnly, safeToRemove]

def keyword : Flag → String
  | migrationOnly => "MigrationOnly"
  | safeToRemove => "SafeToRemove"

def reader (flag : Flag) : Reader (Option Unit) := do
  return if ← Reader.literal flag.keyword then some () else none

def group : Reader (List (Flag × Unit)) := Reader.modifiers reader all

theorem reader_forward (flag : Flag) : Forward flag.reader :=
  (Forward.literal _).bind fun _ ↦ .pure _

end Flag

inductive Setting where
  | default
  | sql
  | sqlType
  | maxLen
  deriving DecidableEq, Repr

namespace Setting

def all : List Setting := [default, sql, sqlType, maxLen]

def keyword : Setting → String
  | default => "default"
  | sql => "sql"
  | sqlType => "sqltype"
  | maxLen => "maxlen"

inductive Value where
  | text (text : String)
  | integer (value : Nat)
  deriving DecidableEq, Repr

namespace Value

def text? : Value → Option String
  | text t => some t
  | integer _ => none

def integer? : Value → Option Nat
  | text _ => none
  | integer n => some n

end Value

/-- The largest length that can be set, that of a signed word of eight bytes. -/
def maxInteger : Nat := 0x7FFFFFFFFFFFFFFF

def decimal (digits : List Char) : Nat :=
  digits.foldl (fun n c ↦ 10 * n + (c.toNat - '0'.toNat)) 0

def integer? (text : List Char) : Option Nat :=
  if !text.isEmpty && text.all Char.isDigit && decimal text ≤ maxInteger then some (decimal text)
  else none

/-- What a token means as the value of the setting. -/
def value? (setting : Setting) (text : List Char) : Option Value :=
  match setting with
  | maxLen => (integer? text).map .integer
  | _ => some (.text (String.ofList text))

/-- Reads the setting. Where a part of it is missing there is no value, and what was read up to
there is not given back. -/
def reader (setting : Setting) : Reader (Option Value) := do
  if ← Reader.literal setting.keyword then
    let _ ← Reader.space
    if ← Reader.literal "=" then
      let _ ← Reader.space
      let start ← Reader.position
      match ← Reader.token with
      | none => return none
      | some text =>
        match setting.value? text with
        | some value => return some value
        | none => throw (.invalidInteger text start)
    else return none
  else return none

def group : Reader (List (Setting × Value)) := Reader.modifiers reader all

theorem reader_forward (setting : Setting) : Forward setting.reader := by
  refine (Forward.literal _).bind fun _ ↦ .ite (Reader.space_forward.bind fun _ ↦
    (Forward.literal _).bind fun _ ↦ .ite (Reader.space_forward.bind fun _ ↦ Forward.position.bind
      fun start ↦ Reader.token_forward.bind fun text ↦ ?_) (.pure _)) (.pure _)
  cases text with
  | none => exact .pure _
  | some text =>
    dsimp only
    split
    · exact .pure _
    · exact .throw _

end Setting

end EntityModels
