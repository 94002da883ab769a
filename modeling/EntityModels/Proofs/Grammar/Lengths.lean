import EntityModels.Proofs.Grammar.BadFields
import Mathlib.Data.List.Induction
import Mathlib.Data.Nat.Digits.Defs

namespace EntityModels.Setting

def digit (x : Char) : Nat := x.toNat - '0'.toNat

/-- The number that is written by the digits, the weightiest first. -/
def numeral (digits : List Char) : Nat := Nat.ofDigits 10 (digits.reverse.map digit)

theorem numeral_append_singleton (digits : List Char) (x : Char) :
    numeral (digits ++ [x]) = 10 * numeral digits + digit x := by
  simp [numeral, Nat.ofDigits_cons, Nat.add_comm]

theorem decimal_eq_numeral (digits : List Char) : decimal digits = numeral digits := by
  induction digits using List.reverseRecOn with
  | nil => rfl
  | append_singleton digits x ih =>
    rw [numeral_append_singleton, ← ih]
    simp [decimal, digit]

/-- A token is a length if there is nothing in it but digits, and not too large a number. -/
def IsLength (token : List Char) : Prop :=
  token ≠ [] ∧ token.all Char.isDigit ∧ numeral token ≤ 2 ^ 63 - 1

instance (token : List Char) : Decidable (IsLength token) :=
  inferInstanceAs (Decidable (_ ∧ _ ∧ _))

theorem integer?_eq (token : List Char) :
    integer? token = if IsLength token then some (numeral token) else none := by
  have hmax : maxInteger = 2 ^ 63 - 1 := by decide
  have hiff : (!token.isEmpty && token.all Char.isDigit && decide (numeral token ≤ maxInteger)) ↔
      IsLength token := by
    simp [IsLength, hmax, and_assoc]
  simp only [integer?, decimal_eq_numeral, hiff]

theorem value?_maxLen (token : List Char) : maxLen.value? token =
    if IsLength token then some (.integer (numeral token)) else none := by
  rw [value?, integer?_eq]
  split <;> rfl

def signedBy (negative : Bool) (n : Nat) : Int := if negative then -n else n

/-- The number of eight bytes that is longer by one digit, if there is one. -/
def push (negative : Bool) (n : Int) (x : Char) : Option Int :=
  let longer := 10 * n + signedBy negative (digit x)
  if x.isDigit ∧ -2 ^ 63 ≤ longer ∧ longer < 2 ^ 63 then some longer else none

/-- Digits, at least one, as a number of eight bytes. It is checked after every digit whether the
number still has a place in them. -/
def signedDigits? (negative : Bool) (digits : List Char) : Option Int :=
  if digits = [] then none else digits.foldlM (push negative) 0

def signed? : List Char → Option Int
  | '+' :: digits => signedDigits? false digits
  | '-' :: digits => signedDigits? true digits
  | digits => signedDigits? false digits

def Fits (negative : Bool) (digits : List Char) : Prop :=
  digits.all Char.isDigit ∧ numeral digits ≤ if negative then 2 ^ 63 else 2 ^ 63 - 1

instance (negative : Bool) (digits : List Char) : Decidable (Fits negative digits) :=
  inferInstanceAs (Decidable (_ ∧ _))

theorem fits_append_singleton {negative : Bool} {digits : List Char} {x : Char} :
    Fits negative (digits ++ [x]) ↔ Fits negative digits ∧ x.isDigit ∧
      -2 ^ 63 ≤ signedBy negative (numeral (digits ++ [x])) ∧
        signedBy negative (numeral (digits ++ [x])) < 2 ^ 63 := by
  have hdigits : (digits ++ [x]).all Char.isDigit ↔ digits.all Char.isDigit ∧ x.isDigit := by
    simp
  have hrange : (numeral (digits ++ [x]) ≤ if negative then 2 ^ 63 else 2 ^ 63 - 1) ↔
      (numeral digits ≤ if negative then 2 ^ 63 else 2 ^ 63 - 1) ∧
        -2 ^ 63 ≤ signedBy negative (numeral (digits ++ [x])) ∧
          signedBy negative (numeral (digits ++ [x])) < 2 ^ 63 := by
    have hlonger := numeral_append_singleton digits x
    cases negative <;> simp only [signedBy, if_true, Bool.false_eq_true, if_false] <;> omega
  rw [Fits, Fits, hdigits, hrange]
  tauto

theorem foldlM_push (negative : Bool) (digits : List Char) :
    digits.foldlM (push negative) 0 =
      if Fits negative digits then some (signedBy negative (numeral digits)) else none := by
  -- from the last digit: all that is checked in front of it is a number of its own
  induction digits using List.reverseRecOn with
  | nil => cases negative <;> rfl
  | append_singleton digits x ih =>
    have hlonger : 10 * signedBy negative (numeral digits) + signedBy negative (digit x) =
        signedBy negative (numeral (digits ++ [x])) := by
      rw [numeral_append_singleton]
      cases negative <;> simp only [signedBy, if_true, Bool.false_eq_true, if_false] <;> omega
    rw [List.foldlM_append, ih]
    by_cases hfits : Fits negative digits
    · simp [hfits, push, hlonger, fits_append_singleton]
    · simp [hfits, fits_append_singleton]

theorem signedDigits?_eq (negative : Bool) (digits : List Char) : signedDigits? negative digits =
    if digits ≠ [] ∧ Fits negative digits then some (signedBy negative (numeral digits))
    else none := by
  rw [signedDigits?, foldlM_push]
  by_cases h : digits = [] <;> simp [h]

/-- There is no sign in a token: as a number of eight bytes it is a length or nothing. -/
theorem signed?_token {token : List Char} (h : ∀ x ∈ token, isIdentChar x) :
    signed? token = if IsLength token then some (numeral token : Int) else none := by
  have hsigned : signed? token = signedDigits? false token := by
    cases token with
    | nil => rfl
    | cons x token =>
      have hx := h x List.mem_cons_self
      have hplus : x ≠ '+' := by
        rintro rfl
        exact absurd hx (by decide)
      have hminus : x ≠ '-' := by
        rintro rfl
        exact absurd hx (by decide)
      unfold signed?
      split <;> simp_all
  rw [hsigned, signedDigits?_eq]
  rfl

/-- Behind the word and the equals sign a length is read exactly: nothing where no token follows,
the number where the token is a length, and else a failure for good that shows the token, at the
place where it begins. -/
theorem maxLen_exact {before after token rest : List Char} {c : Cursor}
    (hbefore : ∀ x ∈ before, isHorizontalSpace x) (hafter : ∀ x ∈ after, isHorizontalSpace x)
    (htoken : ∀ x ∈ token, isIdentChar x) (hrest : rest.head?.any isIdentChar = false)
    (hunspaced : Unspaced (token ++ rest))
    (hc : c.rest = maxLen.front before after ++ (token ++ rest)) :
    let first := c.past (maxLen.front before after) (token ++ rest)
    (maxLen.reader c =
      if token = [] then .ok none first
      else if token.all Char.isDigit ∧ numeral token ≤ 2 ^ 63 - 1 then
        .ok (some (.integer (numeral token))) (first.past token rest)
      else .error ⟨.invalidInteger, "base-10 integer", "`" ++ String.ofList token ++ "`",
        first.position, true⟩ (first.past token rest)) ∧
    signed? token = if token ≠ [] ∧ token.all Char.isDigit ∧ numeral token ≤ 2 ^ 63 - 1 then
      some (numeral token : Int) else none := by
  refine ⟨?_, signed?_token htoken⟩
  rw [reader_of_front hbefore hafter hunspaced hc, assigned_of_token htoken hrest rfl]
  by_cases hne : token = []
  · simp [hne]
  rw [if_neg hne, if_neg hne, value?_maxLen]
  by_cases hlength : token.all Char.isDigit ∧ numeral token ≤ 2 ^ 63 - 1
  · rw [if_pos hlength, if_pos ⟨hne, hlength⟩]
  · rw [if_neg hlength, if_neg fun h : IsLength token ↦ hlength h.2]
    rfl

theorem maxLen_at_bound :
    maxLen.reader (.ofText "maxlen =\t009223372036854775807\n".toList) =
      .ok (some (.integer 9223372036854775807)) ⟨['\n'], ⟨1, 31, 30⟩⟩ ∧
    maxLen.reader (.ofText "maxlen=9223372036854775808\n".toList) =
      .error ⟨.invalidInteger, "base-10 integer", "`9223372036854775808`", ⟨1, 8, 7⟩, true⟩
        ⟨['\n'], ⟨1, 27, 26⟩⟩ := by
  have htab : ∀ x ∈ ['\t'], isHorizontalSpace x := List.all_eq_true.1 (by decide)
  have htoken : ∀ x ∈ "009223372036854775807".toList, isIdentChar x :=
    List.all_eq_true.1 (by decide)
  have htoken' : ∀ x ∈ "9223372036854775808".toList, isIdentChar x :=
    List.all_eq_true.1 (by decide)
  have hlargest := (@maxLen_exact [' '] ['\t'] "009223372036854775807".toList ['\n']
    (.ofText "maxlen =\t009223372036854775807\n".toList) gap_space.2 htab htoken (by decide)
    (.of_head (by decide) _) rfl).1
  have hbehind := (@maxLen_exact [] [] "9223372036854775808".toList ['\n']
    (.ofText "maxlen=9223372036854775808\n".toList) (by simp) (by simp) htoken' (by decide)
    (.of_head (by decide) _) rfl).1
  rw [if_neg (by decide), if_pos (by decide +kernel)] at hlargest
  rw [if_neg (by decide), if_neg (by decide +kernel)] at hbehind
  exact ⟨hlargest, hbehind⟩

end EntityModels.Setting
