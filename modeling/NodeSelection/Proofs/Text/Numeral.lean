import Mathlib
import NodeSelection.Text.Blank
import NodeSelection.Text.Numeral

/-! Which texts are integers. Reading takes at most one sign and one or more digits and nothing else,
and gives the integer that they write in the decimal system; writing gives the one such text that
every integer is shown as. No numeral has a blank in it, so that taking blanks off a text and
reading it finds the numeral between them. -/

namespace NodeSelection

namespace Text

theorem exists_trimBlanks (cs : List Char) :
    ∃ before after, cs = before ++ trimBlanks cs ++ after ∧ ∀ c ∈ before ++ after, isBlank c := by
  let rest := cs.dropWhile isBlank
  refine ⟨cs.takeWhile isBlank, (rest.reverse.takeWhile isBlank).reverse, ?_, ?_⟩
  · rw [List.append_assoc, trimBlanks, ← List.reverse_append, List.takeWhile_append_dropWhile,
      List.reverse_reverse, List.takeWhile_append_dropWhile]
  · intro c member
    cases List.mem_append.1 member with
    | inl before => exact List.mem_takeWhile_imp before
    | inr after => exact List.mem_takeWhile_imp (List.mem_reverse.1 after)

theorem dropWhile_isBlank_of_bare {cs : List Char} (bare : ∀ c ∈ cs, isBlank c = false) :
    cs.dropWhile isBlank = cs := by
  rw [List.dropWhile_eq_self_iff]
  intro pos
  simp [bare _ (List.getElem_mem pos)]

theorem trimBlanks_around {before core after : List Char}
    (blank : ∀ c ∈ before ++ after, isBlank c) (bare : ∀ c ∈ core, isBlank c = false) :
    trimBlanks (before ++ core ++ after) = core := by
  have left : ∀ c ∈ before, isBlank c := fun c member => blank c (List.mem_append_left _ member)
  have right : ∀ c ∈ after, isBlank c := fun c member => blank c (List.mem_append_right _ member)
  rw [trimBlanks, List.append_assoc, List.dropWhile_append_of_pos left]
  cases core with
  | nil =>
    rw [List.nil_append, dropWhile_eq_nil_iff.2 (List.all_eq_true.2 right)]
    rfl
  | cons c rest =>
    have first : isBlank c ≠ true := by
      rw [bare c List.mem_cons_self]
      exact Bool.false_ne_true
    rw [List.cons_append, List.dropWhile_cons_of_neg first, ← List.cons_append, List.reverse_append,
      List.dropWhile_append_of_pos fun d member => right d (List.mem_reverse.1 member),
      dropWhile_isBlank_of_bare fun d member => bare d (List.mem_reverse.1 member),
      List.reverse_reverse]

end Text

namespace Numeral

structure WritesNat (digits : List Char) (n : Nat) : Prop where
  some : digits ≠ []
  all : ∀ c ∈ digits, c.isDigit
  value : Nat.ofDigitChars 10 digits 0 = n

inductive Writes : List Char → Int → Prop
  | unsigned {digits : List Char} {n : Nat} (number : WritesNat digits n) : Writes digits n
  | plus {digits : List Char} {n : Nat} (number : WritesNat digits n) : Writes ('+' :: digits) n
  | minus {digits : List Char} {n : Nat} (number : WritesNat digits n) : Writes ('-' :: digits) (-n)

theorem digit?_eq_some_iff {c : Char} {d : Nat} :
    digit? c = some d ↔ c.isDigit ∧ c.toNat - '0'.toNat = d := by
  rw [Char.isDigit_iff_toNat, digit?]
  split
  · rename_i digit
    rw [Option.some.injEq]
    exact (and_iff_right digit).symm
  · rename_i other
    exact iff_of_false (Option.some_ne_none d).symm fun both => other both.1

theorem natFrom_eq_some_iff {value n : Nat} {cs : List Char} :
    natFrom value cs = some n ↔ (∀ c ∈ cs, c.isDigit) ∧ Nat.ofDigitChars 10 cs value = n := by
  induction cs generalizing value with
  | nil => simp [natFrom, Nat.ofDigitChars]
  | cons c rest ih =>
    rw [natFrom, List.forall_mem_cons, Nat.ofDigitChars_cons]
    cases digit : digit? c with
    | none =>
      have other : ¬ c.isDigit := fun decimal => by
        rw [digit?_eq_some_iff.2 ⟨decimal, rfl⟩] at digit
        cases digit
      exact iff_of_false (Option.some_ne_none n).symm fun both => other both.1.1
    | some d =>
      obtain ⟨decimal, rfl⟩ := digit?_eq_some_iff.1 digit
      dsimp only
      rw [ih, Nat.mul_comm, and_iff_right decimal]

theorem nat?_eq_some_iff {cs : List Char} {n : Nat} : nat? cs = some n ↔ WritesNat cs n := by
  cases cs with
  | nil => exact iff_of_false (Option.some_ne_none n).symm fun number => number.some rfl
  | cons c rest =>
    rw [nat?, natFrom_eq_some_iff]
    · exact ⟨fun both => ⟨List.cons_ne_nil c rest, both.1, both.2⟩,
        fun number => ⟨number.all, number.value⟩⟩
    · exact List.cons_ne_nil c rest

theorem int?_eq_some_iff {cs : List Char} {x : Int} : int? cs = some x ↔ Writes cs x := by
  constructor
  · intro read
    rw [int?.eq_def] at read
    split at read <;> obtain ⟨n, number, rfl⟩ := Option.map_eq_some_iff.1 read
    · exact .minus (nat?_eq_some_iff.1 number)
    · exact .plus (nat?_eq_some_iff.1 number)
    · exact .unsigned (nat?_eq_some_iff.1 number)
  · intro written
    cases written with
    | unsigned number =>
      -- No sign stands in front, since a sign is no digit.
      have signless (sign : Char) (other : sign.isDigit = false) (rest : List Char)
          (signed : cs = sign :: rest) : False := by
        have decimal := number.all sign (signed ▸ List.mem_cons_self)
        rw [other] at decimal
        cases decimal
      rw [int?, nat?_eq_some_iff.2 number, Option.map_some]
      · exact signless '-' rfl
      · exact signless '+' rfl
    | plus number => rw [int?, nat?_eq_some_iff.2 number, Option.map_some]
    | minus number => rw [int?, nat?_eq_some_iff.2 number, Option.map_some]

theorem isBlank_of_isDigit {c : Char} (decimal : c.isDigit) : Text.isBlank c = false := by
  rw [Char.isDigit_iff_toNat] at decimal
  simp only [Text.isBlank, Text.blankRanges, List.any_cons, List.any_nil, Bool.or_false,
    Bool.or_eq_false_iff, Bool.and_eq_false_iff, decide_eq_false_iff_not]
  change 48 ≤ c.toNat ∧ c.toNat ≤ 57 at decimal
  omega

theorem Writes.bare {cs : List Char} {x : Int} (written : Writes cs x) :
    ∀ c ∈ cs, Text.isBlank c = false := by
  cases written with
  | unsigned number => exact fun c member => isBlank_of_isDigit (number.all c member)
  | plus number =>
    exact List.forall_mem_cons.2 ⟨rfl, fun c member => isBlank_of_isDigit (number.all c member)⟩
  | minus number =>
    exact List.forall_mem_cons.2 ⟨rfl, fun c member => isBlank_of_isDigit (number.all c member)⟩

theorem digitChar_eq {d : Nat} (small : d < 10) : digitChar d = Nat.digitChar d := by
  match d, small with
  | 0, _ | 1, _ | 2, _ | 3, _ | 4, _ | 5, _ | 6, _ | 7, _ | 8, _ | 9, _ => rfl
  | d + 10, small => omega

theorem digits_eq (n : Nat) : digits n = Nat.toDigits 10 n := by
  induction n using Nat.strongRecOn with
  | ind n ih =>
    rw [digits, Nat.toDigits_eq_if (by decide)]
    split
    · rename_i small
      rw [digitChar_eq small]
    · rename_i large
      rw [ih (n / 10) (by omega), digitChar_eq (Nat.mod_lt n (by decide))]

theorem ofInt_eq_toString (x : Int) : ofInt x = toString x := by
  rw [ofInt, intChars, Int.toString_eq_repr]
  cases x with
  | ofNat n =>
    have nonneg : ¬ Int.ofNat n < 0 := Int.not_lt.2 (Int.natCast_nonneg n)
    rw [if_neg nonneg, digits_eq]
    exact Nat.toString_eq_ofList_toDigits.symm
  | negSucc n =>
    have magnitude : (n + 1).repr = String.ofList (Nat.toDigits 10 (n + 1)) :=
      Nat.toString_eq_ofList_toDigits
    rw [if_pos (Int.negSucc_lt_zero n), digits_eq, Int.repr, magnitude, ← String.toList_inj]
    simp

theorem trim_ofInt (x : Int) : Text.trim (ofInt x) = ofInt x := by
  have written : Writes (ofInt x).toList x := int?_eq_some_iff.1 (int?_ofInt x)
  have around : ∀ c ∈ ([] ++ [] : List Char), Text.isBlank c := by simp
  have kept := Text.trimBlanks_around around written.bare
  rw [List.nil_append, List.append_nil] at kept
  rw [Text.trim, kept, String.ofList_toList]

/-- An integer with nothing but blanks around it. -/
def Holds (text : String) (x : Int) : Prop :=
  ∃ before numeral after, text.toList = before ++ numeral ++ after ∧
    (∀ c ∈ before ++ after, Text.isBlank c) ∧ Writes numeral x

theorem int?_trim_eq_some_iff {text : String} {x : Int} :
    int? (Text.trim text).toList = some x ↔ Holds text x := by
  rw [Text.trim, String.toList_ofList, int?_eq_some_iff]
  constructor
  · intro written
    obtain ⟨before, after, split, blank⟩ := Text.exists_trimBlanks text.toList
    exact ⟨before, _, after, split, blank, written⟩
  · rintro ⟨before, numeral, after, split, blank, written⟩
    rw [split, Text.trimBlanks_around blank written.bare]
    exact written

end Numeral
end NodeSelection
