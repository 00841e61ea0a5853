/-!
The ranges of 64-bit words. Quantities are plain integers; where an operation of
the library works on words it says here whether it clamps or wraps at their ends.
-/

namespace NodeSelection.Word

def minSigned : Int := -9223372036854775808

def maxSigned : Int := 9223372036854775807

def maxUnsigned : Nat := 18446744073709551615

def count : Nat := 18446744073709551616

/-- The signed word nearest to an integer. -/
def clampSigned (x : Int) : Int := max minSigned (min x maxSigned)

def clampUnsigned (x : Nat) : Nat := min x maxUnsigned

/-- The signed word that agrees with an integer modulo the number of words. -/
def wrapSigned (x : Int) : Int := Int.bmod x count

def wrapUnsigned (x : Int) : Nat := (x % count).toNat

theorem clampSigned_eq_self {x : Int} (lower : minSigned ≤ x) (upper : x ≤ maxSigned) :
    clampSigned x = x := by
  simp only [clampSigned]
  omega

theorem clampSigned_le_maxSigned (x : Int) : clampSigned x ≤ maxSigned := by
  simp only [clampSigned, minSigned, maxSigned]
  omega

theorem clampSigned_mono {x y : Int} (h : x ≤ y) : clampSigned x ≤ clampSigned y := by
  simp only [clampSigned]
  omega

theorem wrapUnsigned_natCast {n : Nat} (h : n ≤ maxUnsigned) : wrapUnsigned n = n := by
  simp only [wrapUnsigned, maxUnsigned, count] at *
  omega

end NodeSelection.Word
