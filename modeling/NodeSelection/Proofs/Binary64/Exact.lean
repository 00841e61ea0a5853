import Mathlib
import NodeSelection.Scalar

/-! Whole numbers as doubles. Integers below `2^53` in absolute value are doubles
themselves, and among them sums, differences and comparisons of doubles are those
of the integers. An exact integer is unpacked as a significand of full width with
the exponent that goes with it; rounding such a number only drops zeros. -/

namespace NodeSelection.Binary64
open Float.Model (Format UnpackedFloat totalExponent)
open Float.Model.UnpackedFloat

/-- The integers among which doubles compute without loss. -/
def Exact (x : Int) : Prop := x.natAbs < 2 ^ 53

/-- A positive number shifted up to the full width of a significand. -/
def significand (n : Nat) : Nat := n * 2 ^ (52 - n.log2)

theorem significand_pos {n : Nat} (pos : 0 < n) : 0 < significand n :=
  Nat.mul_pos pos (Nat.two_pow_pos _)

theorem two_pow_le_significand {n : Nat} (pos : 0 < n) (small : n < 2 ^ 53) :
    2 ^ 52 ≤ significand n := by
  have log : n.log2 ≤ 52 := Nat.le_of_lt_succ ((Nat.log2_lt (by omega)).2 small)
  have lower := Nat.mul_le_mul_right (2 ^ (52 - n.log2)) (Nat.log2_self_le (n := n) (by omega))
  rw [← Nat.pow_add, Nat.add_sub_cancel' log] at lower
  exact lower

theorem significand_lt_two_pow {n : Nat} (small : n < 2 ^ 53) : significand n < 2 ^ 53 := by
  rcases Nat.eq_zero_or_pos n with rfl | pos
  · simp [significand]
  have log : n.log2 ≤ 52 := Nat.le_of_lt_succ ((Nat.log2_lt (by omega)).2 small)
  have upper := Nat.mul_lt_mul_of_pos_right (Nat.lt_log2_self (n := n))
    (Nat.two_pow_pos (52 - n.log2))
  have width : n.log2 + 1 + (52 - n.log2) = 53 := by omega
  rwa [← Nat.pow_add, width] at upper

theorem log2_significand {n : Nat} (pos : 0 < n) (small : n < 2 ^ 53) :
    (significand n).log2 = 52 := by
  have lower := two_pow_le_significand pos small
  exact (Nat.log2_eq_iff (by omega)).2 ⟨lower, significand_lt_two_pow small⟩

theorem log2_mul_two_pow {n : Nat} (pos : 0 < n) (k : Nat) : (n * 2 ^ k).log2 = n.log2 + k := by
  have power := Nat.two_pow_pos k
  refine (Nat.log2_eq_iff (Nat.ne_of_gt (Nat.mul_pos pos power))).2 ⟨?_, ?_⟩
  · rw [Nat.pow_add]
    exact Nat.mul_le_mul_right _ (Nat.log2_self_le (Nat.ne_of_gt pos))
  · have split : n.log2 + k + 1 = n.log2 + 1 + k := by omega
    rw [split, Nat.pow_add]
    exact Nat.mul_lt_mul_of_pos_right Nat.lt_log2_self power

theorem log2_le {x : Int} (ne : x ≠ 0) (exact : Exact x) : x.natAbs.log2 ≤ 52 :=
  Nat.le_of_lt_succ ((Nat.log2_lt (Int.natAbs_ne_zero.2 ne)).2 exact)

def signOf (x : Int) : Sign := if x < 0 then .negative else .positive

def unpacked (x : Int) : UnpackedFloat :=
  if h : 0 < significand x.natAbs then
    .finite (signOf x) (significand x.natAbs) (x.natAbs.log2 - 52) h
  else .zero .positive

theorem unpacked_zero : unpacked 0 = .zero .positive := rfl

theorem unpacked_of_ne_zero {x : Int} (ne : x ≠ 0) :
    unpacked x = .finite (signOf x) (significand x.natAbs) (x.natAbs.log2 - 52)
      (significand_pos (Int.natAbs_pos.2 ne)) :=
  dif_pos _

theorem unpacked_pos {x : Int} (positive : 0 < x) :
    unpacked x = .finite .positive (significand x.natAbs) (x.natAbs.log2 - 52)
      (significand_pos (by omega)) := by
  rw [unpacked_of_ne_zero (by omega), signOf, if_neg (by omega)]

theorem unpacked_neg {x : Int} (negative : x < 0) :
    unpacked x = .finite .negative (significand x.natAbs) (x.natAbs.log2 - 52)
      (significand_pos (by omega)) := by
  rw [unpacked_of_ne_zero (by omega), signOf, if_pos negative]

theorem neg_unpacked {x : Int} (ne : x ≠ 0) : (unpacked x).neg = unpacked (-x) := by
  rcases Int.lt_or_gt_of_ne ne with negative | positive
  · rw [unpacked_neg negative, unpacked_pos (by omega)]
    simp only [Int.natAbs_neg]
    rfl
  · rw [unpacked_pos positive, unpacked_neg (by omega)]
    simp only [Int.natAbs_neg]
    rfl

theorem shiftRight_exact (m j : Nat) :
    (ExtendedMantissa.mk (m * 2 ^ j) false false >>> j) = ExtendedMantissa.mk m false false := by
  induction j generalizing m with
  | zero => simp [HShiftRight.hShiftRight, Nat.repeat]
  | succ j ih =>
    have split : m * 2 ^ (j + 1) = m * 2 * 2 ^ j := by
      rw [Nat.pow_succ, Nat.mul_right_comm, Nat.mul_assoc]
    have shifted := ih (m * 2)
    simp only [HShiftRight.hShiftRight, Nat.repeat] at shifted ⊢
    rw [split, shifted]
    simp [ExtendedMantissa.shiftRightOne]

theorem targetExponent_eq {m l : Nat} {e : Int} (log : m.log2 + e = l) :
    Format.binary64.targetExponent (totalExponent m e) = (l : Int) - 52 := by
  simp only [Format.targetExponent, totalExponent, Format.mantissaBits, Format.minExponent]
  omega

theorem roundWithAccuracy_significand {n : Nat} (pos : 0 < n) (small : n < 2 ^ 53) (s : Sign)
    (j : Nat) :
    roundWithAccuracy .binary64 s (significand n * 2 ^ j) (n.log2 - 52 - j) .exact =
      .finite s (significand n) (n.log2 - 52) (significand_pos pos) := by
  have lower := two_pow_le_significand pos small
  have log := log2_significand pos small
  have first : Format.binary64.targetExponent
      (totalExponent (significand n * 2 ^ j) (n.log2 - 52 - j)) = n.log2 - 52 :=
    targetExponent_eq (by rw [log2_mul_two_pow (by omega), log]; omega)
  have second : Format.binary64.targetExponent
      (totalExponent (significand n) (n.log2 - 52)) = n.log2 - 52 :=
    targetExponent_eq (by rw [log]; omega)
  have amount : ((n.log2 : Int) - 52 - (n.log2 - 52 - j)).toNat = j := by omega
  have reached : (n.log2 : Int) - 52 - j + j = n.log2 - 52 := by omega
  have rest : (n.log2 : Int) - 52 + (0 : Nat) = n.log2 - 52 := by omega
  have still : ∀ m : ExtendedMantissa, m >>> (0 : Nat) = m := fun _ => rfl
  simp only [roundWithAccuracy, shiftToTargetExponent, shiftToExponent, first, amount, reached,
    ExtendedMantissa.ofMantissaAndAccuracy, shiftRight_exact, ExtendedMantissa.roundedMantissa,
    ExtendedMantissa.accuracy, Accuracy.roundToNearestEven, second, Int.sub_self, Int.toNat_zero,
    still, rest]
  exact dif_neg (by omega)

theorem round_shifted {n : Nat} (pos : 0 < n) (small : n < 2 ^ 53) (s : Sign) (k : Nat) :
    UnpackedFloat.round .binary64 s (n * 2 ^ k) (-k) =
      .finite s (significand n) (n.log2 - 52) (significand_pos pos) := by
  have log : n.log2 ≤ 52 := Nat.le_of_lt_succ ((Nat.log2_lt (by omega)).2 small)
  have target : Format.binary64.targetExponent (totalExponent (n * 2 ^ k) (-k)) = n.log2 - 52 :=
    targetExponent_eq (by rw [log2_mul_two_pow pos]; omega)
  let d := (-(k : Int) - (n.log2 - 52)).toNat
  have widened : n * 2 ^ k * 2 ^ d = significand n * 2 ^ (k + d - (52 - n.log2)) := by
    rw [significand, Nat.mul_assoc, Nat.mul_assoc, ← Nat.pow_add, ← Nat.pow_add]
    congr 2
    omega
  have lowered : -(k : Int) - d = n.log2 - 52 - (k + d - (52 - n.log2) : Nat) := by omega
  simp only [UnpackedFloat.round, target, decreaseExponent, Nat.shiftLeft_eq]
  rw [widened, lowered]
  exact roundWithAccuracy_significand pos small s _

theorem toNat_mul_two_pow (n k : Nat) : ((n : Int) * 2 ^ k).toNat = n * 2 ^ k := by
  have cast : (n : Int) * 2 ^ k = (n * 2 ^ k : Nat) := by simp
  rw [cast, Int.toNat_natCast]

theorem normalize_shifted {x : Int} (exact : Exact x) (k : Nat) :
    UnpackedFloat.normalize .binary64 (x * 2 ^ k) (-k) .positive = unpacked x := by
  have power : (0 : Int) < 2 ^ k := Int.pow_pos (by decide)
  rcases Int.lt_trichotomy x 0 with negative | rfl | positive
  · have scaled : x * 2 ^ k < 0 := Int.mul_neg_of_neg_of_pos negative power
    have magnitude : -(x * 2 ^ k) = (x.natAbs : Int) * 2 ^ k := by
      rw [← Int.neg_mul]
      congr 1
      omega
    rw [unpacked_neg negative, UnpackedFloat.normalize, Int.compare_eq_lt.2 scaled]
    simp only [magnitude, toNat_mul_two_pow]
    exact round_shifted (by omega) exact _ k
  · rw [Int.zero_mul]
    rfl
  · have scaled : 0 < x * 2 ^ k := Int.mul_pos positive power
    have magnitude : x * 2 ^ k = (x.natAbs : Int) * 2 ^ k := by
      congr 1
      omega
    rw [unpacked_pos positive, UnpackedFloat.normalize, Int.compare_eq_gt.2 scaled]
    simp only [magnitude, toNat_mul_two_pow]
    exact round_shifted (by omega) exact _ k

theorem unpackSign_packComponents {spec : Format} {s : Sign} {exponent mantissa} :
    unpackSign (packComponents spec s exponent mantissa) = s.toBitVec := by
  ext i hi
  have first : i = 0 := by omega
  subst first
  simp [unpackSign, packComponents, BitVec.getLsbD_append, BitVec.getElem_append]

theorem ofBitVec_toBitVec (s : Sign) : Sign.ofBitVec s.toBitVec = s := by
  cases s <;> rfl

theorem unpack_pack_normal {s : Sign} {m : Nat} {e : Int} {pos : 0 < m} (wide : 2 ^ 52 ≤ m)
    (narrow : m < 2 ^ 53) (least : -1074 ≤ e) (most : e ≤ 971) :
    (Float.Model.pack (.finite s m e pos)).unpack = .finite s m e pos := by
  show UnpackedFloat.unpack .binary64 (UnpackedFloat.pack .binary64 _) = _
  have log : m.log2 = 52 := (Nat.log2_eq_iff (Nat.ne_of_gt pos)).2 ⟨wide, narrow⟩
  -- A variable, so that nothing tries to evaluate the sum.
  obtain ⟨biased, value⟩ : ∃ biased : Nat, (biased : Int) = e + 1075 := ⟨(e + 1075).toNat, by omega⟩
  have shifted : (e + Format.binary64.exponentBias +
      Format.binary64.mantissaBitsWithoutImplicit).toNat = biased := by
    simp only [Format.exponentBias]
    omega
  have bits : (BitVec.ofNat 11 biased).toNat = biased := by
    rw [BitVec.toNat_ofNat]
    omega
  have notOnes : BitVec.ofNat 11 biased ≠ -1#11 := by
    intro ones
    have := bits.symm.trans (congrArg BitVec.toNat ones)
    simp at this
    omega
  have notZeros : BitVec.ofNat 11 biased ≠ 0#11 := by
    intro zeros
    have := bits.symm.trans (congrArg BitVec.toNat zeros)
    simp at this
    omega
  have whole : (1#1 ++ BitVec.ofNat 52 m).toNat = m := by
    rw [BitVec.toNat_append, Nat.shiftLeft_eq, Nat.or_comm,
      show (1#1).toNat * 2 ^ 52 = 2 ^ 52 from rfl, BitVec.toNat_ofNat,
      Nat.or_two_pow_eq_add_of_lt (Nat.mod_lt _ (Nat.two_pow_pos 52))]
    omega
  simp only [UnpackedFloat.pack, shifted, log]
  rw [if_neg (by omega), if_pos (show 52 + 1 = Format.binary64.mantissaBits from rfl)]
  simp only [UnpackedFloat.unpack, unpackMantissa_packComponents, unpackExponent_packComponents,
    unpackSign_packComponents, ofBitVec_toBitVec]
  rw [if_neg notOnes, if_neg notZeros]
  simp only [whole, bits]
  congr 1
  simp only [Format.exponentBias]
  omega

theorem unpack_pack {x : Int} (exact : Exact x) :
    (Float.Model.pack (unpacked x)).unpack = unpacked x := by
  by_cases zero : x = 0
  · subst zero
    rfl
  have pos : 0 < x.natAbs := Int.natAbs_pos.2 zero
  have log := log2_le zero exact
  rw [unpacked_of_ne_zero zero]
  exact unpack_pack_normal (two_pow_le_significand pos exact) (significand_lt_two_pow exact)
    (by omega) (by omega)

theorem ofNat_normalize {n : Nat} (word : n ≤ Word.maxUnsigned) :
    ofNat n = .ofModel (.pack (UnpackedFloat.normalize .binary64 n 0 .positive)) := by
  have size : n.toUInt64.toNat = n := by
    rw [Nat.toUInt64, UInt64.toNat_ofNat']
    rw [Word.maxUnsigned] at word
    omega
  rw [ofNat, if_pos word, UInt64.toFloat, Float.Model.ofUInt64, UnpackedFloat.ofUInt64, size,
    UnpackedFloat.ofNat, UnpackedFloat.ofInt]

theorem ofNat_eq {n : Nat} (small : n < 2 ^ 53) : ofNat n = .ofModel (.pack (unpacked n)) := by
  have shifted := normalize_shifted (x := n) (by simp only [Exact]; omega) 0
  rw [Int.pow_zero, Int.mul_one] at shifted
  rw [ofNat_normalize (by rw [Word.maxUnsigned]; omega), ← shifted]
  rfl

theorem ofInt_eq {x : Int} (exact : Exact x) : ofInt x = .ofModel (.pack (unpacked x)) := by
  rw [ofInt]
  split
  · rename_i negative
    have magnitude : Exact x.natAbs := by simpa only [Exact, Int.natAbs_natCast] using exact
    have flipped : (unpacked x.natAbs).neg = unpacked x := by
      rw [neg_unpacked (by omega)]
      congr 1
      omega
    rw [ofNat_eq exact]
    show Float.ofModel (Float.Model.neg _) = _
    rw [Float.Model.neg, unpack_pack magnitude, flipped]
  · rename_i nonneg
    rw [ofNat_eq exact, Int.natAbs_of_nonneg (by omega)]

theorem apply_decreaseExponent {x : Int} (log : x.natAbs.log2 ≤ 52) {k : Nat}
    (low : 52 - x.natAbs.log2 ≤ k) :
    (signOf x).apply (decreaseExponent (significand x.natAbs) (x.natAbs.log2 - 52) (-k)).1 =
      x * 2 ^ k := by
  have amount : ((x.natAbs.log2 : Int) - 52 - -(k : Int)).toNat = k - (52 - x.natAbs.log2) := by
    omega
  have width : 52 - x.natAbs.log2 + (k - (52 - x.natAbs.log2)) = k := by omega
  simp only [decreaseExponent, amount]
  rw [significand, Nat.shiftLeft_eq, Nat.mul_assoc, ← Nat.pow_add, width]
  rcases Int.lt_or_le x 0 with negative | nonneg
  · have magnitude : (x.natAbs : Int) = -x := by omega
    rw [signOf, if_pos negative, Sign.apply, Int.natCast_mul, magnitude, Int.neg_mul, Int.neg_neg]
    simp
  · have magnitude : (x.natAbs : Int) = x := by omega
    rw [signOf, if_neg (by omega), Sign.apply, Int.natCast_mul, magnitude]
    simp

theorem add_unpacked {x y : Int} (hx : Exact x) (hy : Exact y) (sum : Exact (x + y)) :
    UnpackedFloat.add .binary64 (unpacked x) (unpacked y) = unpacked (x + y) := by
  by_cases zx : x = 0
  · subst zx
    rw [Int.zero_add, unpacked_zero]
    by_cases zy : y = 0
    · subst zy
      rfl
    · rw [unpacked_of_ne_zero zy]
      rfl
  by_cases zy : y = 0
  · subst zy
    rw [Int.add_zero, unpacked_zero, unpacked_of_ne_zero zx]
    rfl
  have lx := log2_le zx hx
  have ly := log2_le zy hy
  obtain ⟨k, lowest⟩ : ∃ k, k = 52 - min x.natAbs.log2 y.natAbs.log2 := ⟨_, rfl⟩
  have exponent : min ((x.natAbs.log2 : Int) - 52) (y.natAbs.log2 - 52) = -k := by omega
  rw [unpacked_of_ne_zero zx, unpacked_of_ne_zero zy, UnpackedFloat.add]
  simp only [exponent]
  rw [apply_decreaseExponent lx (by omega), apply_decreaseExponent ly (by omega), ← Int.add_mul]
  exact normalize_shifted sum k

theorem sub_unpacked {x y : Int} (hx : Exact x) (hy : Exact y) (difference : Exact (x - y)) :
    UnpackedFloat.sub .binary64 (unpacked x) (unpacked y) = unpacked (x - y) := by
  by_cases zx : x = 0
  · subst zx
    by_cases zy : y = 0
    · subst zy
      rfl
    · rw [Int.zero_sub, ← neg_unpacked zy, unpacked_zero, unpacked_of_ne_zero zy]
      rfl
  by_cases zy : y = 0
  · subst zy
    rw [Int.sub_zero, unpacked_zero, unpacked_of_ne_zero zx]
    rfl
  have lx := log2_le zx hx
  have ly := log2_le zy hy
  obtain ⟨k, lowest⟩ : ∃ k, k = 52 - min x.natAbs.log2 y.natAbs.log2 := ⟨_, rfl⟩
  have exponent : min ((x.natAbs.log2 : Int) - 52) (y.natAbs.log2 - 52) = -k := by omega
  rw [unpacked_of_ne_zero zx, unpacked_of_ne_zero zy, UnpackedFloat.sub]
  simp only [exponent]
  rw [apply_decreaseExponent lx (by omega), apply_decreaseExponent ly (by omega), ← Int.sub_mul]
  exact normalize_shifted difference k

theorem lt_of_log2_lt {m n : Nat} (hn : 0 < n) (less : m.log2 < n.log2) : m < n :=
  calc
    m < 2 ^ (m.log2 + 1) := Nat.lt_log2_self
    _ ≤ 2 ^ n.log2 := Nat.pow_le_pow_right (by decide) less
    _ ≤ n := Nat.log2_self_le (Nat.ne_of_gt hn)

theorem compare_significand {m n : Nat} (hm : 0 < m) (hn : 0 < n) :
    (compare ((m.log2 : Int) - 52) (n.log2 - 52)).then (compare (significand m) (significand n)) =
      compare (m : Int) n := by
  rcases Nat.lt_trichotomy m.log2 n.log2 with less | same | greater
  · have ordered := lt_of_log2_lt hn less
    rw [Int.compare_eq_lt.2 (by omega), Int.compare_eq_lt.2 (by omega)]
    rfl
  · have power := Nat.two_pow_pos (52 - n.log2)
    rw [Int.compare_eq_eq.2 (by omega), significand, significand, same]
    rcases Nat.lt_trichotomy m n with below | rfl | above
    · rw [Int.compare_eq_lt.2 (by omega),
        Nat.compare_eq_lt.2 (Nat.mul_lt_mul_of_pos_right below power)]
      rfl
    · rw [Int.compare_eq_eq.2 rfl, Nat.compare_eq_eq.2 rfl]
      rfl
    · rw [Int.compare_eq_gt.2 (by omega),
        Nat.compare_eq_gt.2 (Nat.mul_lt_mul_of_pos_right above power)]
      rfl
  · have ordered := lt_of_log2_lt hm greater
    rw [Int.compare_eq_gt.2 (by omega), Int.compare_eq_gt.2 (by omega)]
    rfl

theorem compare_unpacked (x y : Int) :
    UnpackedFloat.compare (unpacked x) (unpacked y) = some (compare x y) := by
  rcases Int.lt_trichotomy x 0 with nx | rfl | px <;>
    rcases Int.lt_trichotomy y 0 with ny | rfl | py
  · rw [unpacked_neg nx, unpacked_neg ny, UnpackedFloat.compare,
      compare_significand (by omega) (by omega), Int.compare_swap, Int.compare_eq_ite_lt,
      Int.compare_eq_ite_lt]
    simp only [show (y.natAbs : Int) < x.natAbs ↔ x < y by omega,
      show (x.natAbs : Int) < y.natAbs ↔ y < x by omega]
  · rw [Int.compare_eq_lt.2 nx, unpacked_neg nx]
    rfl
  · rw [Int.compare_eq_lt.2 (by omega), unpacked_neg nx, unpacked_pos py]
    rfl
  · rw [Int.compare_eq_gt.2 ny, unpacked_neg ny]
    rfl
  · rfl
  · rw [Int.compare_eq_lt.2 py, unpacked_pos py]
    rfl
  · rw [Int.compare_eq_gt.2 (by omega), unpacked_pos px, unpacked_neg ny]
    rfl
  · rw [Int.compare_eq_gt.2 px, unpacked_pos px]
    rfl
  · rw [unpacked_pos px, unpacked_pos py, UnpackedFloat.compare,
      compare_significand (by omega) (by omega), Int.natAbs_of_nonneg (by omega),
      Int.natAbs_of_nonneg (by omega)]

theorem lt_unpacked (x y : Int) :
    UnpackedFloat.lt (unpacked x) (unpacked y) = decide (x < y) := by
  rw [UnpackedFloat.lt, compare_unpacked]
  rcases Int.lt_trichotomy x y with less | rfl | greater
  · rw [Int.compare_eq_lt.2 less, decide_eq_true less]
    rfl
  · rw [Int.compare_eq_eq.2 rfl, decide_eq_false (Int.lt_irrefl x)]
    rfl
  · rw [Int.compare_eq_gt.2 greater, decide_eq_false (by omega)]
    rfl

@[simp]
theorem ofInt_zero : ofInt 0 = 0 := rfl

theorem ofInt_add {x y : Int} (hx : Exact x) (hy : Exact y) (sum : Exact (x + y)) :
    ofInt x + ofInt y = ofInt (x + y) := by
  rw [ofInt_eq hx, ofInt_eq hy, ofInt_eq sum, ← add_unpacked hx hy sum]
  show Float.ofModel (Float.Model.add _ _) = _
  rw [Float.Model.add, unpack_pack hx, unpack_pack hy]

theorem ofInt_sub {x y : Int} (hx : Exact x) (hy : Exact y) (difference : Exact (x - y)) :
    ofInt x - ofInt y = ofInt (x - y) := by
  rw [ofInt_eq hx, ofInt_eq hy, ofInt_eq difference, ← sub_unpacked hx hy difference]
  show Float.ofModel (Float.Model.sub _ _) = _
  rw [Float.Model.sub, unpack_pack hx, unpack_pack hy]

theorem ofInt_lt_ofInt {x y : Int} (hx : Exact x) (hy : Exact y) :
    ofInt x < ofInt y ↔ x < y := by
  rw [ofInt_eq hx, ofInt_eq hy]
  show decide ((Float.Model.lt _ _ : Bool) = true) = true ↔ _
  rw [decide_eq_true_iff, Float.Model.lt, unpack_pack hx, unpack_pack hy, lt_unpacked,
    decide_eq_true_iff]

end NodeSelection.Binary64
