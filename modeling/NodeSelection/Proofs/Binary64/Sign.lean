import NodeSelection.Proofs.Binary64.Exact

/-! The signs of doubles. Rounding never turns a sign, so what is made of doubles that are not below
zero by products and sums is not below zero, nor is the complement to one of a share. This holds
with overflow to infinity, underflow to zero, zeros of either sign and what is not a number. -/

namespace NodeSelection.Binary64
open Float.Model (Format UnpackedFloat)
open Float.Model.UnpackedFloat

/-- Neither a negative number nor negative infinity. -/
def Unsigned : UnpackedFloat → Prop
  | .infinity s => s = .positive
  | .finite s _ _ _ => s = .positive
  | .zero _ => True
  | .notANumber => True

theorem unsigned_roundWithAccuracy (m : Nat) (e : Int) (a : Accuracy) :
    Unsigned (roundWithAccuracy .binary64 .positive m e a) := by
  simp only [roundWithAccuracy]
  split
  · trivial
  · rfl

theorem unsigned_normalize {m : Int} (nonneg : 0 ≤ m) (e : Int) :
    Unsigned (UnpackedFloat.normalize .binary64 m e .positive) := by
  rcases eq_or_lt_of_le nonneg with rfl | positive
  · trivial
  · rw [UnpackedFloat.normalize, Int.compare_eq_gt.2 positive]
    exact unsigned_roundWithAccuracy _ _ _

section
variable {x y : UnpackedFloat} (hx : Unsigned x) (hy : Unsigned y)
include hx hy

theorem unsigned_mul : Unsigned (UnpackedFloat.mul .binary64 x y) := by
  -- Only of two finite numbers the product is rounded; elsewhere it is read off the cases.
  cases x <;> cases y <;> cases hx <;> cases hy <;> try trivial
  case finite.finite => exact unsigned_roundWithAccuracy _ _ _

theorem unsigned_add : Unsigned (UnpackedFloat.add .binary64 x y) := by
  cases x <;> cases y <;> cases hx <;> cases hy <;> try trivial
  case zero.zero s t => cases s <;> cases t <;> trivial
  case finite.finite =>
    exact unsigned_normalize (Int.add_nonneg (Int.natCast_nonneg _) (Int.natCast_nonneg _)) _

end

/-- The significand has full width, unless the exponent is the least one. -/
def Canonical : UnpackedFloat → Prop
  | .finite _ m e _ => m < 2 ^ 53 ∧ -1074 ≤ e ∧ e ≤ 971 ∧ (2 ^ 52 ≤ m ∨ e = -1074)
  | _ => True

theorem canonical_unpack (b : BitVec Format.binary64.numBits) :
    Canonical (UnpackedFloat.unpack .binary64 b) := by
  simp only [UnpackedFloat.unpack]
  split_ifs with ones _ zeros none
  · trivial
  · trivial
  · trivial
  · have narrow := (unpackMantissa b).isLt
    rw [zeros]
    exact ⟨narrow.trans (by decide), by decide, by decide, Or.inr rfl⟩
  · have range := (unpackExponent b).isLt
    have notOnes : (unpackExponent b).toNat ≠ 2047 := fun all => ones (BitVec.eq_of_toNat_eq all)
    have notZeros : (unpackExponent b).toNat ≠ 0 := fun none => zeros (BitVec.eq_of_toNat_eq none)
    have bias : ((Format.binary64.exponentBias : Int) + (52 : Nat)) = 1075 := rfl
    have wide : 2 ^ 52 ≤ (1#1 ++ unpackMantissa b).toNat := by
      rw [BitVec.toNat_append]
      exact Nat.left_le_or
    refine ⟨(1#1 ++ unpackMantissa b).isLt, ?_, ?_, Or.inl wide⟩ <;> rw [bias]
    · omega
    · have top : (unpackExponent b).toNat < 2048 := range
      omega

theorem unpacked_one : unpacked 1 = .finite .positive (2 ^ 52) (-52) (by decide) := rfl

theorem decreaseExponent_le_one {m : Nat} {e : Int} {pos : 0 < m} (narrow : m < 2 ^ 53)
    (le : UnpackedFloat.le (.finite .positive m e pos) (unpacked 1) = true) :
    (decreaseExponent m e (min (-52) e)).1 ≤
      (decreaseExponent (2 ^ 52) (-52) (min (-52) e)).1 := by
  simp only [decreaseExponent, Nat.shiftLeft_eq]
  rw [unpacked_one, UnpackedFloat.le, UnpackedFloat.compare, Option.any_some] at le
  rcases Int.lt_trichotomy e (-52) with less | rfl | greater
  · -- With a smaller exponent the significand of one is shifted by a place at least.
    have shifted : 2 ^ 1 ≤ 2 ^ (-52 - min (-52) e).toNat :=
      Nat.pow_le_pow_right (by decide) (by omega)
    have still : (e - min (-52) e).toNat = 0 := by omega
    have wide : m ≤ 2 ^ 52 * 2 ^ 1 := narrow.le
    rw [still, Nat.pow_zero, Nat.mul_one]
    exact wide.trans (Nat.mul_le_mul_left _ shifted)
  · have small : m ≤ 2 ^ 52 := by
      rwa [Int.compare_eq_eq.2 rfl, Ordering.eq_then, Nat.isLE_compare] at le
    simpa using small
  · rw [Int.compare_eq_gt.2 greater] at le
    cases le

theorem unsigned_one_sub {w : UnpackedFloat} (canonical : Canonical w)
    (le : UnpackedFloat.le w (unpacked 1) = true) :
    Unsigned (UnpackedFloat.sub .binary64 (unpacked 1) w) := by
  match w with
  | .infinity .negative => rfl
  | .infinity .positive => cases le
  | .zero _ => rfl
  | .notANumber => trivial
  | .finite .negative m e _ =>
    refine unsigned_normalize ?_ _
    simp only [Sign.apply, sub_neg_eq_add]
    exact Int.add_nonneg (Int.natCast_nonneg _) (Int.natCast_nonneg _)
  | .finite .positive m e _ =>
    refine unsigned_normalize (Int.sub_nonneg_of_le ?_) _
    exact Int.ofNat_le.2 (decreaseExponent_le_one canonical.1 le)

theorem unsigned_unpack_packComponents (exponent : BitVec 11) (mantissa : BitVec 52) :
    Unsigned (UnpackedFloat.unpack .binary64
      (packComponents .binary64 .positive exponent mantissa)) := by
  simp only [UnpackedFloat.unpack, unpackSign_packComponents, ofBitVec_toBitVec]
  split_ifs
  · rfl
  · trivial
  · trivial
  · rfl
  · rfl

theorem unsigned_unpack_pack {x : UnpackedFloat} (hx : Unsigned x) :
    Unsigned (Float.Model.pack x).unpack := by
  show Unsigned (UnpackedFloat.unpack .binary64 (UnpackedFloat.pack .binary64 x))
  cases x with
  | notANumber => exact unsigned_unpack_packComponents _ _
  | infinity s =>
    cases hx
    exact unsigned_unpack_packComponents _ _
  | zero s => cases s <;> trivial
  | finite s m e pos =>
    cases hx
    simp only [UnpackedFloat.pack]
    split_ifs
    · exact unsigned_unpack_packComponents _ _
    · exact unsigned_unpack_packComponents _ _
    · exact unsigned_unpack_packComponents _ _

theorem not_lt_zero_iff {x : Float} : ¬ x < 0 ↔ Unsigned x.toModel.unpack := by
  show ¬ decide ((UnpackedFloat.lt x.toModel.unpack (.zero .positive) : Bool) = true) = true ↔ _
  rw [decide_eq_true_iff]
  match x.toModel.unpack with
  | .infinity .negative => exact iff_of_false (fun above => above rfl) (by rintro ⟨⟩)
  | .finite .negative .. => exact iff_of_false (fun above => above rfl) (by rintro ⟨⟩)
  | .infinity .positive => exact iff_of_true (by rintro ⟨⟩) rfl
  | .finite .positive .. => exact iff_of_true (by rintro ⟨⟩) rfl
  | .zero _ => exact iff_of_true (by rintro ⟨⟩) trivial
  | .notANumber => exact iff_of_true (by rintro ⟨⟩) trivial

theorem not_lt_zero_of_le {x : Float} (nonneg : 0 ≤ x) : ¬ x < 0 := by
  rw [not_lt_zero_iff]
  replace nonneg : decide ((UnpackedFloat.le (.zero .positive) x.toModel.unpack : Bool) = true) =
    true := nonneg
  rw [decide_eq_true_iff] at nonneg
  match x.toModel.unpack, nonneg with
  | .infinity .positive, _ => rfl
  | .finite .positive .., _ => rfl
  | .zero _, _ => trivial

theorem mul_not_lt_zero {x y : Float} (hx : ¬ x < 0) (hy : ¬ y < 0) : ¬ x * y < 0 := by
  rw [not_lt_zero_iff] at hx hy ⊢
  exact unsigned_unpack_pack (unsigned_mul hx hy)

theorem add_not_lt_zero {x y : Float} (hx : ¬ x < 0) (hy : ¬ y < 0) : ¬ x + y < 0 := by
  rw [not_lt_zero_iff] at hx hy ⊢
  exact unsigned_unpack_pack (unsigned_add hx hy)

theorem one_sub_not_lt_zero {w : Float} (le : w ≤ 1) : ¬ ofInt 1 - w < 0 := by
  replace le : decide ((UnpackedFloat.le w.toModel.unpack (unpacked 1) : Bool) = true) = true := le
  rw [decide_eq_true_iff] at le
  rw [not_lt_zero_iff]
  exact unsigned_unpack_pack (unsigned_one_sub (canonical_unpack _) le)

theorem ofInt_not_lt_zero {x : Int} (nonneg : 0 ≤ x) (word : x ≤ Word.maxUnsigned) :
    ¬ ofInt x < 0 := by
  rw [not_lt_zero_iff, ofInt, if_neg (not_lt.2 nonneg), ofNat_normalize (by omega)]
  exact unsigned_unpack_pack (unsigned_normalize (Int.natCast_nonneg _) 0)

theorem toInt_nonneg {x : Float} (above : ¬ x < 0) : 0 ≤ toInt x := by
  rw [toInt, if_neg above]
  exact le_min (Int.natCast_nonneg _) (by decide)

theorem toInt_le_maxSigned (x : Float) : toInt x ≤ Word.maxSigned := by
  rw [toInt, Word.maxSigned, Word.minSigned]
  split <;> omega

end NodeSelection.Binary64
