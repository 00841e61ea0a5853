import NodeSelection.Word

/-!
Decimal numerals. A written integer is its digits, after a minus sign if it is
negative; reading also takes a plus sign and leading zeros. Main statement:
reading what was written gives the integer back (`int?_ofInt`).
-/

namespace NodeSelection.Numeral

def digitChar (d : Nat) : Char := Char.ofNat (48 + d)

def digit? (c : Char) : Option Nat :=
  if 48 ≤ c.toNat ∧ c.toNat ≤ 57 then some (c.toNat - 48) else none

def digits (n : Nat) : List Char :=
  if n < 10 then [digitChar n] else digits (n / 10) ++ [digitChar (n % 10)]
termination_by n
decreasing_by omega

/-- Reads on in a row of digits of which the part before had the given value. -/
def natFrom (value : Nat) : List Char → Option Nat
  | [] => some value
  | c :: rest =>
    match digit? c with
    | some d => natFrom (value * 10 + d) rest
    | none => none

def nat? : List Char → Option Nat
  | [] => none
  | cs => natFrom 0 cs

/-- Reads one or more digits after at most one sign. -/
def int? : List Char → Option Int
  | '-' :: rest => (nat? rest).map fun n : Nat => -(n : Int)
  | '+' :: rest => (nat? rest).map fun n : Nat => (n : Int)
  | cs => (nat? cs).map fun n : Nat => (n : Int)

def ofNat (n : Nat) : String := String.ofList (digits n)

def intChars (x : Int) : List Char :=
  if x < 0 then '-' :: digits x.natAbs else digits x.natAbs

def ofInt (x : Int) : String := String.ofList (intChars x)

def signedWord? (s : String) : Option Int :=
  (int? s.toList).filter fun x => Word.minSigned ≤ x ∧ x ≤ Word.maxSigned

def unsignedWord? (s : String) : Option Nat :=
  (match s.toList with
    | '+' :: rest => nat? rest
    | cs => nat? cs).filter fun n => n ≤ Word.maxUnsigned

theorem digit?_digitChar {d : Nat} (h : d < 10) : digit? (digitChar d) = some d := by
  match d, h with
  | 0, _ | 1, _ | 2, _ | 3, _ | 4, _ | 5, _ | 6, _ | 7, _ | 8, _ | 9, _ => rfl
  | d + 10, h => omega

theorem natFrom_append (value : Nat) (a b : List Char) :
    natFrom value (a ++ b) = (natFrom value a).bind fun v => natFrom v b := by
  induction a generalizing value with
  | nil => rfl
  | cons c rest ih =>
    cases h : digit? c with
    | none => simp [natFrom, h]
    | some d => simp [natFrom, h, ih]

theorem natFrom_digits (n : Nat) : natFrom 0 (digits n) = some n := by
  induction n using Nat.strongRecOn with
  | ind n ih =>
    by_cases h : n < 10
    · rw [digits, if_pos h]
      simp [natFrom, digit?_digitChar h]
    · rw [digits, if_neg h, natFrom_append, ih (n / 10) (by omega)]
      have small : n % 10 < 10 := by omega
      simp only [Option.bind_some, natFrom, digit?_digitChar small]
      congr 1
      omega

theorem digits_ne_nil (n : Nat) : digits n ≠ [] := by
  rw [digits]
  split <;> simp

theorem nat?_digits (n : Nat) : nat? (digits n) = some n := by
  rw [nat?]
  · exact natFrom_digits n
  · exact digits_ne_nil n

theorem digit?_isSome_head {cs : List Char} {v w : Nat} {c : Char} {rest : List Char}
    (h : natFrom v cs = some w) (hc : cs = c :: rest) : (digit? c).isSome := by
  subst hc
  cases hd : digit? c with
  | none => simp [natFrom, hd] at h
  | some d => rfl

theorem int?_digits (n : Nat) : int? (digits n) = some (n : Int) := by
  have hv := natFrom_digits n
  cases hd : digits n with
  | nil => exact absurd hd (digits_ne_nil n)
  | cons c rest =>
    have hc : (digit? c).isSome := digit?_isSome_head hv hd
    have minus : c ≠ '-' := by rintro rfl; simp [digit?] at hc
    have plus : c ≠ '+' := by rintro rfl; simp [digit?] at hc
    have whole : nat? (c :: rest) = some n := by rw [← hd]; exact nat?_digits n
    rw [int?]
    · simp [whole]
    · rintro rest' h
      exact minus (List.cons.inj h).1
    · rintro rest' h
      exact plus (List.cons.inj h).1

theorem int?_intChars (x : Int) : int? (intChars x) = some x := by
  by_cases h : x < 0
  · have magnitude : -(x.natAbs : Int) = x := by omega
    rw [intChars, if_pos h, int?, nat?_digits, Option.map_some, magnitude]
  · have magnitude : (x.natAbs : Int) = x := by omega
    rw [intChars, if_neg h, int?_digits, magnitude]

@[simp]
theorem int?_ofInt (x : Int) : int? (ofInt x).toList = some x := by
  simp [ofInt, int?_intChars]

end NodeSelection.Numeral
