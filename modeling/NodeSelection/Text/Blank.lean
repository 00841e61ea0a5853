/-!
Blank characters: the code points of the property `White_Space`. `trim` takes
them off both ends of a text and nothing else: what is left starts and ends with
no blank, and a text without blanks at its ends stays as it is.
-/

namespace NodeSelection.Text

/-- The ranges of `White_Space`, ends included. -/
def blankRanges : List (Nat × Nat) :=
  [(0x9, 0xD), (0x20, 0x20), (0x85, 0x85), (0xA0, 0xA0), (0x1680, 0x1680), (0x2000, 0x200A),
    (0x2028, 0x2029), (0x202F, 0x202F), (0x205F, 0x205F), (0x3000, 0x3000)]

def isBlank (c : Char) : Bool :=
  blankRanges.any fun r => r.1 ≤ c.toNat && c.toNat ≤ r.2

def trimBlanks (cs : List Char) : List Char :=
  ((cs.dropWhile isBlank).reverse.dropWhile isBlank).reverse

def trim (s : String) : String := String.ofList (trimBlanks s.toList)

def isBlankText (s : String) : Bool := s.toList.all isBlank

def lowerAscii (s : String) : String := String.ofList (s.toList.map Char.toLower)

theorem dropWhile_eq_nil_iff {p : Char → Bool} {cs : List Char} :
    cs.dropWhile p = [] ↔ cs.all p := by
  induction cs with
  | nil => simp
  | cons c cs ih => by_cases h : p c <;> simp [h, ih]

theorem trimBlanks_eq_nil_iff {cs : List Char} : trimBlanks cs = [] ↔ cs.all isBlank := by
  simp only [trimBlanks, List.reverse_eq_nil_iff, dropWhile_eq_nil_iff, List.all_reverse]
  constructor
  · intro h
    rw [← dropWhile_eq_nil_iff]
    cases hd : cs.dropWhile isBlank with
    | nil => rfl
    | cons c rest =>
      have hc : ¬ isBlank c = true := by
        have head := List.head_dropWhile_not (p := isBlank) (l := cs) (by simp [hd])
        simpa [hd] using head
      simp [hd, hc] at h
  · intro h
    simp [dropWhile_eq_nil_iff.2 h]

end NodeSelection.Text
