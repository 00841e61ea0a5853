import NodeSelection.Proofs.Binary64.Sign

/-! How far doubles are from the numbers that they stand for. Rounding moves a number by no more than a
unit in its last place, which is a 2⁵²th part of it, or of one where the number is smaller. Only doubles
without a sign are looked at, and numbers that are far from overflow. -/

namespace NodeSelection.Binary64
open Float.Model (Format UnpackedFloat totalExponent)
open Float.Model.UnpackedFloat

theorem unpack_pack_subnormal {s : Sign} {m : Nat} {pos : 0 < m} (narrow : m < 2 ^ 52) :
    (Float.Model.pack (.finite s m (-1074) pos)).unpack = .finite s m (-1074) pos := by
  show UnpackedFloat.unpack .binary64 (UnpackedFloat.pack .binary64 _) = _
  have log : m.log2 + 1 ≠ Format.binary64.mantissaBits := by
    have small := (Nat.log2_lt (Nat.ne_of_gt pos)).2 narrow
    show m.log2 + 1 ≠ 1 + 52
    omega
  have bits : (BitVec.ofNat 52 m).toNat = m := by
    rw [BitVec.toNat_ofNat]
    omega
  have notZeros : BitVec.ofNat 52 m ≠ 0#52 := by
    intro zeros
    have := bits.symm.trans (congrArg BitVec.toNat zeros)
    simp at this
    omega
  simp only [UnpackedFloat.pack]
  rw [if_neg (by decide), if_neg log]
  simp only [UnpackedFloat.unpack, unpackMantissa_packComponents, unpackExponent_packComponents,
    unpackSign_packComponents, ofBitVec_toBitVec]
  rw [if_neg (by decide), if_pos trivial, dif_neg notZeros]
  simp only [bits]
  rfl

theorem unpack_pack_canonical {s : Sign} {m : Nat} {e : Int} {pos : 0 < m}
    (canonical : Canonical (.finite s m e pos)) :
    (Float.Model.pack (.finite s m e pos)).unpack = .finite s m e pos := by
  obtain ⟨narrow, least, most, wide⟩ := canonical
  by_cases normal : 2 ^ 52 ≤ m
  · exact unpack_pack_normal normal narrow least most
  · obtain rfl := wide.resolve_left normal
    exact unpack_pack_subnormal (Nat.lt_of_not_le normal)

/-- The number that an unpacked double without a sign stands for. -/
inductive Stands : UnpackedFloat → ℝ → Prop
  | zero {s : Sign} : Stands (.zero s) 0
  | finite {m : Nat} {e : Int} {pos : 0 < m} : Stands (.finite .positive m e pos) (m * 2 ^ e)

structure Near (r x : ℝ) : Prop where
  off : |r - x| ≤ (x + 1) / 2 ^ 52

def Rounds (x : UnpackedFloat) (v : ℝ) : Prop := Canonical x ∧ ∃ r, Stands x r ∧ Near r v

/-- The exponent that a number is rounded at. -/
def target (m : Nat) (e : Int) : Int := max (m.log2 + e - 52) (-1074)

theorem targetExponent_eq_target (m : Nat) (e : Int) :
    Format.binary64.targetExponent (totalExponent m e) = target m e := by
  simp only [Format.targetExponent, totalExponent, Format.mantissaBits, Format.minExponent, target]
  norm_num
  omega

theorem mantissa_shiftRight (em : ExtendedMantissa) (k : Nat) :
    (em >>> k).mantissa = em.mantissa / 2 ^ k := by
  induction k with
  | zero => exact (Nat.div_one _).symm
  | succ k ih =>
    have next : (em >>> (k + 1)).mantissa = (em >>> k).mantissa / 2 := rfl
    rw [next, ih, Nat.div_div_eq_div_mul, Nat.pow_succ]

theorem roundedMantissa_bounds (em : ExtendedMantissa) :
    em.mantissa ≤ em.roundedMantissa ∧ em.roundedMantissa ≤ em.mantissa + 1 := by
  obtain ⟨m, round, sticky⟩ := em
  have parity := Nat.mod_lt m Nat.two_pos
  cases round <;> cases sticky <;>
    simp only [ExtendedMantissa.roundedMantissa, ExtendedMantissa.accuracy,
      Accuracy.roundToNearestEven] <;> omega

theorem shiftToTargetExponent_eq (m : Nat) (e : Int) :
    shiftToTargetExponent .binary64 m e .exact =
      (ExtendedMantissa.mk m false false >>> (target m e - e).toNat,
        e + (target m e - e).toNat) := by
  rw [shiftToTargetExponent, targetExponent_eq_target]
  rfl

theorem log2_le_of_lt {m : Nat} (narrow : m < 2 ^ 53) : m.log2 ≤ 52 := by
  rcases Nat.eq_zero_or_pos m with rfl | pos
  · decide
  · exact Nat.le_of_lt_succ ((Nat.log2_lt (Nat.ne_of_gt pos)).2 narrow)

section
variable {e : Int} (least : -1074 ≤ e)
include least

theorem shift_narrow {m : Nat} (narrow : m < 2 ^ 53) :
    shiftToTargetExponent .binary64 m e .exact = (ExtendedMantissa.mk m false false, e) := by
  have log := log2_le_of_lt narrow
  have still : (target m e - e).toNat = 0 := by
    rw [target]
    omega
  rw [shiftToTargetExponent_eq, still, Nat.cast_zero, Int.add_zero]
  rfl

theorem shift_carry :
    shiftToTargetExponent .binary64 (2 ^ 53) e .exact =
      (ExtendedMantissa.mk (2 ^ 52) false false, e + 1) := by
  have one : (target (2 ^ 53) e - e).toNat = 1 := by
    rw [target, Nat.log2_two_pow]
    omega
  rw [shiftToTargetExponent_eq, one]
  rfl

end

theorem div_shift_lt (m : Nat) (e : Int) : m / 2 ^ (target m e - e).toNat < 2 ^ 53 := by
  rw [Nat.div_lt_iff_lt_mul (Nat.two_pow_pos _), ← Nat.pow_add]
  have reach : m.log2 + 1 ≤ 53 + (target m e - e).toNat := by
    rw [target]
    omega
  exact Nat.lt_log2_self.trans_le (Nat.pow_le_pow_right Nat.two_pos reach)

theorem le_div_shift {m : Nat} (pos : 0 < m) {e : Int} (low : e ≤ target m e)
    (normal : target m e ≠ -1074) : 2 ^ 52 ≤ m / 2 ^ (target m e - e).toNat := by
  rw [Nat.le_div_iff_mul_le (Nat.two_pow_pos _), ← Nat.pow_add]
  have reach : 52 + (target m e - e).toNat = m.log2 := by
    rw [target] at low normal ⊢
    omega
  rw [reach]
  exact Nat.log2_self_le (Nat.ne_of_gt pos)

/-- A unit in the last place is a small part of the number, or of one. -/
theorem two_zpow_target_le {m : Nat} (pos : 0 < m) (e : Int) :
    (2 : ℝ) ^ target m e ≤ (m * 2 ^ e + 1) / 2 ^ 52 := by
  have power : (0 : ℝ) < 2 ^ e := zpow_pos two_pos e
  rw [le_div_iff₀ (by positivity), ← zpow_natCast, ← zpow_add₀ two_ne_zero]
  rcases le_total ((m.log2 : Int) + e - 52) (-1074) with small | large
  · have tiny : target m e + (52 : Nat) ≤ 0 := by
      rw [target]
      omega
    have le_one : (2 : ℝ) ^ (target m e + (52 : Nat)) ≤ 1 := zpow_le_one_of_nonpos₀ one_le_two tiny
    have product : 0 ≤ (m : ℝ) * 2 ^ e := by positivity
    linarith
  · have exponent : target m e + (52 : Nat) = m.log2 + e := by
      rw [target]
      omega
    have log : (2 : ℝ) ^ m.log2 ≤ m := by exact_mod_cast Nat.log2_self_le (Nat.ne_of_gt pos)
    have scaled := mul_le_mul_of_nonneg_right log power.le
    rw [exponent, zpow_add₀ two_ne_zero, zpow_natCast]
    linarith

theorem abs_rounded_sub_le {m r k : Nat} (lower : m / 2 ^ k ≤ r) (upper : r ≤ m / 2 ^ k + 1)
    (e : Int) : |(r : ℝ) * 2 ^ (e + k) - m * 2 ^ e| ≤ 2 ^ (e + k) := by
  have parts := Nat.div_add_mod m (2 ^ k)
  have rest := Nat.mod_lt m (Nat.two_pow_pos k)
  have below := Nat.mul_le_mul_right (2 ^ k) upper
  have above := Nat.mul_le_mul_right (2 ^ k) lower
  rw [Nat.add_mul, Nat.one_mul, Nat.mul_comm (m / 2 ^ k)] at below
  rw [Nat.mul_comm (m / 2 ^ k)] at above
  have power : (0 : ℝ) < 2 ^ e := zpow_pos two_pos e
  have split : (2 : ℝ) ^ (e + k) = 2 ^ k * 2 ^ e := by
    rw [zpow_add₀ two_ne_zero, zpow_natCast, mul_comm]
  have off : |(r : ℝ) * 2 ^ k - m| ≤ 2 ^ k := by
    rw [abs_le]
    have least : (m : ℝ) ≤ r * 2 ^ k + 2 ^ k := by
      exact_mod_cast (show m ≤ r * 2 ^ k + 2 ^ k by omega)
    have most : (r : ℝ) * 2 ^ k ≤ m + 2 ^ k := by
      exact_mod_cast (show r * 2 ^ k ≤ m + 2 ^ k by omega)
    constructor <;> linarith
  calc
    |(r : ℝ) * 2 ^ (e + k) - m * 2 ^ e| = |(r : ℝ) * 2 ^ k - m| * 2 ^ e := by
      rw [split, ← abs_of_pos power, ← abs_mul, abs_of_pos power]
      ring_nf
    _ ≤ 2 ^ k * 2 ^ e := mul_le_mul_of_nonneg_right off power.le
    _ = 2 ^ (e + k) := split.symm

theorem rounds_roundWithAccuracy {m : Nat} (pos : 0 < m) {e : Int} (low : e ≤ target m e)
    (high : target m e ≤ 970) :
    Rounds (roundWithAccuracy .binary64 .positive m e .exact) (m * 2 ^ e) := by
  have first := shiftToTargetExponent_eq m e
  have narrow := div_shift_lt m e
  have normal := le_div_shift pos low
  have unit := two_zpow_target_le pos e
  have least : -1074 ≤ target m e := le_max_right _ _
  obtain ⟨lower, upper⟩ :=
    roundedMantissa_bounds (ExtendedMantissa.mk m false false >>> (target m e - e).toNat)
  rw [mantissa_shiftRight] at lower upper
  dsimp only at lower upper
  have off := abs_rounded_sub_le lower upper e
  have exponent : e + ((target m e - e).toNat : Int) = target m e := by omega
  rw [exponent] at first off
  generalize ExtendedMantissa.mk m false false >>> (target m e - e).toNat = em
    at lower upper off first
  rw [roundWithAccuracy, first]
  dsimp only
  generalize em.roundedMantissa = r at lower upper off
  have wide : 2 ^ 52 ≤ r ∨ target m e = -1074 := by
    by_cases small : target m e = -1074
    · exact Or.inr small
    · exact Or.inl ((normal small).trans lower)
  have near : Near (r * 2 ^ target m e) (m * 2 ^ e) := ⟨off.trans unit⟩
  rcases Nat.lt_or_ge r (2 ^ 53) with fits | full
  · rw [shift_narrow least fits]
    dsimp only
    split
    · rename_i none
      refine ⟨trivial, 0, .zero, ?_⟩
      rwa [none, Nat.cast_zero, zero_mul] at near
    · exact ⟨⟨fits, least, by omega, wide⟩, _, .finite, near⟩
  · -- The carry is one more digit, which is a zero.
    obtain rfl : r = 2 ^ 53 := by omega
    have value : ((2 ^ 53 : Nat) : ℝ) * 2 ^ target m e = (2 ^ 52 : Nat) * 2 ^ (target m e + 1) := by
      rw [zpow_add₀ two_ne_zero]
      push_cast
      ring
    rw [shift_carry least]
    exact ⟨⟨Nat.pow_lt_pow_right Nat.one_lt_two (by decide), by omega, by omega, Or.inl le_rfl⟩, _,
      .finite, value ▸ near⟩

theorem target_le {m : Nat} (pos : 0 < m) {e : Int} (fits : (m : ℝ) * 2 ^ e ≤ 2 ^ 100) :
    target m e ≤ 970 := by
  have log : (2 : ℝ) ^ m.log2 ≤ m := by exact_mod_cast Nat.log2_self_le (Nat.ne_of_gt pos)
  have scaled := (mul_le_mul_of_nonneg_right log (zpow_pos two_pos e).le).trans fits
  rw [← zpow_natCast, ← zpow_natCast, ← zpow_add₀ two_ne_zero,
    zpow_le_zpow_iff_right₀ one_lt_two] at scaled
  rw [target]
  omega

theorem target_shiftLeft {m : Nat} (pos : 0 < m) (e : Int) (k : Nat) :
    target (m <<< k) (e - k) = target m e := by
  rw [target, target, Nat.shiftLeft_eq, log2_mul_two_pow pos]
  omega

theorem shiftLeft_value (m k : Nat) (e : Int) :
    ((m <<< k : Nat) : ℝ) * 2 ^ (e - k) = m * 2 ^ e := by
  rw [Nat.shiftLeft_eq, zpow_sub₀ two_ne_zero, zpow_natCast]
  push_cast
  field_simp

theorem decreaseExponent_value {m : Nat} {e least : Int} (le : least ≤ e) :
    ((decreaseExponent m e least).1 : ℝ) * 2 ^ least = m * 2 ^ e := by
  have reached : e - ((e - least).toNat : Int) = least := by omega
  rw [← shiftLeft_value m (e - least).toNat e, reached]
  rfl

theorem rounds_round {m : Nat} (pos : 0 < m) {e : Int} (fits : (m : ℝ) * 2 ^ e ≤ 2 ^ 100) :
    Rounds (UnpackedFloat.round .binary64 .positive m e) (m * 2 ^ e) := by
  have shifted := target_shiftLeft pos e (e - target m e).toNat
  have wide : 0 < m <<< (e - target m e).toNat := by
    rw [Nat.shiftLeft_eq]
    exact Nat.mul_pos pos (Nat.two_pow_pos _)
  have rounded := rounds_roundWithAccuracy wide (e := e - (e - target m e).toNat)
    (by rw [shifted]; omega) (by rw [shifted]; exact target_le pos fits)
  rw [shiftLeft_value] at rounded
  rw [UnpackedFloat.round, targetExponent_eq_target]
  exact rounded

theorem rounds_zero (s : Sign) : Rounds (.zero s) 0 := by
  refine ⟨trivial, 0, .zero, ⟨?_⟩⟩
  rw [sub_zero, abs_zero]
  norm_num

theorem rounds_normalize {m : Int} (nonneg : 0 ≤ m) {e : Int} {v : ℝ}
    (value : (m : ℝ) * 2 ^ e = v) (fits : v ≤ 2 ^ 100) :
    Rounds (UnpackedFloat.normalize .binary64 m e .positive) v := by
  subst value
  obtain ⟨n, rfl⟩ := Int.eq_ofNat_of_zero_le nonneg
  rw [Int.cast_natCast] at fits ⊢
  rcases Nat.eq_zero_or_pos n with rfl | pos
  · have none : ((0 : Nat) : ℝ) * 2 ^ e = 0 := by simp
    rw [none]
    exact rounds_zero _
  · rw [UnpackedFloat.normalize, Int.compare_eq_gt.2 (Int.natCast_pos.2 pos)]
    exact rounds_round pos fits

theorem near_self {r : ℝ} (nonneg : 0 ≤ r) : Near r r := by
  constructor
  rw [sub_self, abs_zero]
  positivity

theorem Near.abs_sub_le {r x : ℝ} (near : Near r x) (top : ℝ) (most : x + 1 ≤ top) :
    |r - x| ≤ top / 2 ^ 52 :=
  near.off.trans (div_le_div_of_nonneg_right most (by positivity))

section
variable {x y : UnpackedFloat} {a b : ℝ}

theorem Stands.nonneg (stands : Stands x a) : 0 ≤ a := by
  cases stands with
  | zero => exact le_rfl
  | finite => positivity

variable (one : Stands x a) (other : Stands y b) (left : Canonical x) (right : Canonical y)
include one other left right

theorem rounds_mul (fits : a * b ≤ 2 ^ 100) :
    Rounds (UnpackedFloat.mul .binary64 x y) (a * b) := by
  match one, other with
  | .zero, .zero =>
    rw [zero_mul]
    exact rounds_zero _
  | .zero, .finite =>
    rw [zero_mul]
    exact rounds_zero _
  | .finite, .zero =>
    rw [mul_zero]
    exact rounds_zero _
  | @Stands.finite m e mpos, @Stands.finite n f npos =>
    have value : (m : ℝ) * 2 ^ e * (n * 2 ^ f) = (m * n : Nat) * 2 ^ (e + f) := by
      rw [zpow_add₀ two_ne_zero]
      push_cast
      ring
    rw [value] at fits ⊢
    -- The product is as wide as a wide factor, and below all exponents without one.
    have low : e + f ≤ target (m * n) (e + f) := by
      have log (wide : 2 ^ 52 ≤ m * n) : 52 ≤ (m * n).log2 :=
        (Nat.le_log2 (Nat.ne_of_gt (Nat.mul_pos mpos npos))).2 wide
      rw [target]
      rcases left.2.2.2 with wide | least
      · have := log (wide.trans (Nat.le_mul_of_pos_right m npos))
        omega
      · rcases right.2.2.2 with wide | small
        · have := log (wide.trans (Nat.le_mul_of_pos_left n mpos))
          omega
        · omega
    exact rounds_roundWithAccuracy (Nat.mul_pos mpos npos) low
      (target_le (Nat.mul_pos mpos npos) fits)

theorem rounds_add (fits : a + b ≤ 2 ^ 100) :
    Rounds (UnpackedFloat.add .binary64 x y) (a + b) := by
  match one, other with
  | @Stands.zero s, @Stands.zero t =>
    rw [add_zero]
    cases s <;> cases t <;> exact rounds_zero _
  | .zero, .finite =>
    rw [zero_add]
    exact ⟨right, _, .finite, near_self (by positivity)⟩
  | .finite, .zero =>
    rw [add_zero]
    exact ⟨left, _, .finite, near_self (by positivity)⟩
  | @Stands.finite m e _, @Stands.finite n f _ =>
    have sum : ((decreaseExponent m e (min e f)).1 + (decreaseExponent n f (min e f)).1 : ℝ) *
        2 ^ min e f = m * 2 ^ e + n * 2 ^ f := by
      rw [add_mul, decreaseExponent_value (min_le_left e f),
        decreaseExponent_value (min_le_right e f)]
    refine rounds_normalize (Int.add_nonneg (Int.natCast_nonneg _) (Int.natCast_nonneg _)) ?_ fits
    rw [Int.cast_add, ← sum]
    rfl

end

theorem stands_one : Stands (unpacked 1) 1 := by
  have one : ((2 ^ 52 : Nat) : ℝ) * 2 ^ (-52 : Int) = 1 := by norm_num
  rw [unpacked_one, ← one]
  exact .finite

theorem rounds_one_sub {w : UnpackedFloat} {a : ℝ} (stands : Stands w a) (le : a ≤ 1) :
    Rounds (UnpackedFloat.sub .binary64 (unpacked 1) w) (1 - a) := by
  cases stands with
  | zero =>
    rw [sub_zero]
    refine ⟨⟨by decide, by decide, by decide, Or.inl le_rfl⟩, 1, stands_one, near_self zero_le_one⟩
  | @finite m e pos =>
    have one : ((2 ^ 52 : Nat) : ℝ) * 2 ^ (-52 : Int) = 1 := by norm_num
    have difference : ((decreaseExponent (2 ^ 52) (-52) (min (-52) e)).1 -
        (decreaseExponent m e (min (-52) e)).1 : ℝ) * 2 ^ min (-52) e = 1 - m * 2 ^ e := by
      rw [sub_mul, decreaseExponent_value (min_le_left _ e),
        decreaseExponent_value (min_le_right _ e), one]
    have nonneg : ((decreaseExponent m e (min (-52) e)).1 : Int) ≤
        (decreaseExponent (2 ^ 52) (-52) (min (-52) e)).1 := by
      have power : (0 : ℝ) < 2 ^ min (-52) e := zpow_pos two_pos _
      have product := sub_nonneg.2 le
      rw [← difference] at product
      exact_mod_cast sub_nonneg.1 (nonneg_of_mul_nonneg_left product power)
    refine rounds_normalize (Int.sub_nonneg_of_le nonneg) ?_
      ((sub_le_self 1 (by positivity)).trans (one_le_pow₀ one_le_two))
    rw [Int.cast_sub, ← difference]
    rfl

/-- A double is finite and has no sign, and this is its value. -/
def Reads (x : Float) (r : ℝ) : Prop := Stands x.toModel.unpack r

theorem reads_of_unpack {x : Float} {m : Nat} {e : Int} {pos : 0 < m}
    (unpacked : x.toModel.unpack = .finite .positive m e pos) : Reads x (m * 2 ^ e) := by
  rw [Reads, unpacked]
  exact .finite

theorem Rounds.exists_reads {x : UnpackedFloat} {v : ℝ} (rounds : Rounds x v) :
    ∃ r, Reads (.ofModel (.pack x)) r ∧ Near r v := by
  obtain ⟨canonical, r, stands, near⟩ := rounds
  refine ⟨r, ?_, near⟩
  show Stands (Float.Model.pack x).unpack r
  cases stands with
  | @zero s => cases s <;> exact .zero
  | finite =>
    rw [unpack_pack_canonical canonical]
    exact .finite

section
variable {x y : Float} {a b : ℝ} (one : Reads x a) (other : Reads y b)
include one other

theorem exists_reads_mul (fits : a * b ≤ 2 ^ 100) : ∃ r, Reads (x * y) r ∧ Near r (a * b) :=
  (rounds_mul one other (canonical_unpack _) (canonical_unpack _) fits).exists_reads

theorem exists_reads_add (fits : a + b ≤ 2 ^ 100) : ∃ r, Reads (x + y) r ∧ Near r (a + b) :=
  (rounds_add one other (canonical_unpack _) (canonical_unpack _) fits).exists_reads

end

theorem exists_reads_one_sub {w : Float} {a : ℝ} (reads : Reads w a) (le : a ≤ 1) :
    ∃ r, Reads (ofInt 1 - w) r ∧ Near r (1 - a) :=
  (rounds_one_sub reads le).exists_reads

theorem exists_reads_ofInt {n : Int} (nonneg : 0 ≤ n) (word : n ≤ Word.maxUnsigned) :
    ∃ r, Reads (ofInt n) r ∧ Near r n := by
  have model : ofInt n = .ofModel (.pack (UnpackedFloat.normalize .binary64 n 0 .positive)) := by
    rw [ofInt, if_neg (not_lt.2 nonneg), ofNat_normalize (by omega), Int.natAbs_of_nonneg nonneg]
  have fits : (n : ℝ) ≤ 2 ^ 100 := by
    have power : Word.maxUnsigned ≤ 2 ^ 100 := by decide
    exact_mod_cast word.trans (Int.ofNat_le.2 power)
  rw [model]
  exact (rounds_normalize nonneg (by rw [zpow_zero, mul_one]) fits).exists_reads

theorem reads_ofInt {n : Int} (nonneg : 0 ≤ n) (exact : Exact n) : Reads (ofInt n) n := by
  rw [ofInt_eq exact]
  show Stands (Float.Model.pack (unpacked n)).unpack n
  rw [unpack_pack exact]
  rcases eq_or_lt_of_le nonneg with rfl | pos
  · rw [Int.cast_zero]
    exact .zero
  · have log := log2_le pos.ne' exact
    have magnitude : (n.natAbs : ℝ) = n := by rw [Nat.cast_natAbs, abs_of_nonneg nonneg]
    have exponent : (n.natAbs.log2 : Int) - 52 = -((52 - n.natAbs.log2 : Nat) : Int) := by omega
    have value : (significand n.natAbs : ℝ) * 2 ^ ((n.natAbs.log2 : Int) - 52) = n := by
      rw [significand, exponent, zpow_neg, zpow_natCast, ← magnitude]
      push_cast
      field_simp
    rw [unpacked_pos pos, ← value]
    exact .finite

theorem natFloor_of_stands {x : UnpackedFloat} {r : ℝ} (stands : Stands x r) :
    (x.toInt 0 (UInt64.size - 1)).toNat = ⌊r⌋₊ := by
  cases stands with
  | zero =>
    rw [Nat.floor_zero]
    rfl
  | @finite m e pos =>
    have mantissa : (UnpackedFloat.toInt 0 (UInt64.size - 1) (.finite .positive m e pos)).toNat =
        (m <<< (e - 0).toNat) / 2 ^ (0 - (e - (e - 0).toNat)).toNat := by
      show (((_ : ExtendedMantissa).mantissa : Int)).toNat = _
      rw [Int.toNat_natCast]
      exact mantissa_shiftRight _ _
    rw [mantissa]
    rcases Int.le_total 0 e with whole | fraction
    · obtain ⟨k, rfl⟩ := Int.eq_ofNat_of_zero_le whole
      have none : (0 - ((k : Int) - ((k : Int) - 0).toNat)).toNat = 0 := by omega
      have shift : ((k : Int) - 0).toNat = k := by omega
      have cast : (m : ℝ) * 2 ^ (k : Int) = (m * 2 ^ k : Nat) := by
        rw [zpow_natCast]
        push_cast
        rfl
      rw [none, shift, Nat.shiftLeft_eq, Nat.pow_zero, Nat.div_one, cast, Nat.floor_natCast]
    · obtain ⟨k, rfl⟩ : ∃ k : Nat, e = -k := ⟨e.natAbs, by omega⟩
      have drop : (0 - (-(k : Int) - (-(k : Int) - 0).toNat)).toNat = k := by omega
      have none : (-(k : Int) - 0).toNat = 0 := by omega
      have cast : (m : ℝ) * 2 ^ (-(k : Int)) = m / (2 ^ k : Nat) := by
        rw [zpow_neg, zpow_natCast]
        push_cast
        rfl
      rw [drop, none, Nat.shiftLeft_zero, cast, Nat.floor_div_eq_div]

theorem toNat_toUInt64 {x : Float} {r : ℝ} (reads : Reads x r) :
    x.toUInt64.toNat = min ⌊r⌋₊ Word.maxUnsigned := by
  have whole := natFloor_of_stands reads
  show (UInt64.ofNatClamp (x.toModel.unpack.toInt 0 (UInt64.size - 1)).toNat).toNat = _
  rw [whole, UInt64.ofNatClamp]
  have size : UInt64.size = Word.maxUnsigned + 1 := rfl
  split
  · rename_i fits
    have small : ⌊r⌋₊ ≤ Word.maxUnsigned := Nat.le_of_lt_succ fits
    rw [UInt64.toNat_ofNatLT, min_eq_left small]
  · rename_i large
    rw [UInt64.toNat_ofNatLT, min_eq_right (by omega)]
    rfl

theorem Reads.nonneg {x : Float} {r : ℝ} (reads : Reads x r) : 0 ≤ r := Stands.nonneg reads

theorem Reads.not_lt_zero {x : Float} {r : ℝ} (reads : Reads x r) : ¬ x < 0 := by
  rw [not_lt_zero_iff]
  rw [Reads] at reads
  match x.toModel.unpack, reads with
  | _, .zero => trivial
  | _, .finite => rfl

theorem toInt_of_reads {x : Float} {r : ℝ} (reads : Reads x r) :
    toInt x = min ⌊r⌋ Word.maxSigned := by
  have floor : ((⌊r⌋₊ : Nat) : Int) = ⌊r⌋ := Int.natCast_floor_eq_floor reads.nonneg
  have least : 0 ≤ ⌊r⌋ := Int.floor_nonneg.2 reads.nonneg
  rw [toInt, if_neg reads.not_lt_zero, toNat_toUInt64 reads]
  simp only [Word.maxUnsigned, Word.maxSigned]
  omega

end NodeSelection.Binary64
