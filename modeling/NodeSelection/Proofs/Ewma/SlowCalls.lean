import Mathlib
import NodeSelection.Ewma.OpenCalls
import NodeSelection.Ewma.Prediction

/-! The prediction as a mean. An age that counts as slow is positive, so the clamped sum of the slow
ages is the sum clamped once, in whatever order they are added. Where that sum is a word and more
than half of the calls are slow, none of the ages was clamped either, and the quotient is the mean
age of the slow calls without its fraction. -/

namespace NodeSelection.Ewma

/-- Ages of one sign are clamped at most once on the way. -/
theorem foldl_clampSigned {ages : List Int} (nonneg : ∀ age ∈ ages, 0 ≤ age) {total : Int}
    (start : 0 ≤ total) (word : total ≤ Word.maxSigned) :
    ages.foldl (fun total age => Word.clampSigned (total + age)) total =
      Word.clampSigned (total + ages.sum) := by
  induction ages generalizing total with
  | nil =>
    rw [List.foldl_nil, List.sum_nil, add_zero]
    exact (Word.clampSigned_eq_self (le_trans (by decide) start) word).symm
  | cons age rest ih =>
    obtain ⟨first, others⟩ := List.forall_mem_cons.1 nonneg
    have left : 0 ≤ rest.sum := List.sum_nonneg others
    rw [List.foldl_cons, List.sum_cons, ih others]
    · simp only [Word.clampSigned, Word.minSigned, Word.maxSigned] at word ⊢
      omega
    · simp only [Word.clampSigned, Word.minSigned, Word.maxSigned]
      omega
    · exact Word.clampSigned_le_maxSigned _

theorem clampedSum_eq {ages : List Int} (nonneg : ∀ age ∈ ages, 0 ≤ age) :
    clampedSum ages = Word.clampSigned ages.sum := by
  rw [clampedSum, foldl_clampSigned nonneg le_rfl (by decide), zero_add]

theorem slowAges_eq (now lag : Int) (starts : List Int) :
    slowAges now lag starts =
      (starts.filter fun start => lag < Stamp.age now start).map (Stamp.age now) :=
  List.filter_map

theorem slowAges_pos {lag : Int} (nonneg : 0 ≤ lag) (now : Int) (starts : List Int) :
    ∀ age ∈ slowAges now lag starts, 0 < age := fun _ slow =>
  nonneg.trans_lt (mem_slowAges.1 slow).2

theorem predictedLag_perm {now lag : Int} (nonneg : 0 ≤ lag) {starts others : List Int}
    (same : starts.Perm others) : predictedLag now lag starts = predictedLag now lag others := by
  have slow : (slowAges now lag starts).Perm (slowAges now lag others) :=
    (same.map (Stamp.age now)).filter (lag < ·)
  have sums : clampedSum (slowAges now lag starts) = clampedSum (slowAges now lag others) := by
    rw [clampedSum_eq fun age member => (slowAges_pos nonneg now starts age member).le,
      clampedSum_eq fun age member => (slowAges_pos nonneg now others age member).le, slow.sum_eq]
  rw [predictedLag, predictedLag, same.length_eq, slow.length_eq, sums]

theorem lt_sum_of_mem {ages : List Int} (pos : ∀ age ∈ ages, 0 < age) (several : 1 < ages.length)
    {age : Int} (member : age ∈ ages) : age < ages.sum := by
  have left : ages.erase age ≠ [] := by
    intro none
    have length := List.length_erase_of_mem member
    rw [none, List.length_nil] at length
    omega
  have others : 0 < (ages.erase age).sum :=
    List.sum_pos _ (fun other among => pos other (List.mem_of_mem_erase among)) left
  have split := List.sum_erase member
  omega

theorem age_eq {now start : Int} (pos : 0 < Stamp.age now start)
    (word : Stamp.age now start < Word.maxSigned) : Stamp.age now start = now - start := by
  simp only [Stamp.age, Word.clampSigned, Word.minSigned, Word.maxSigned] at *
  omega

theorem floor_mean (ages : List Int) : ⌊(ages.sum : ℚ) / ages.length⌋ = ages.sum / ages.length :=
  Rat.floor_intCast_div_natCast _ _

section
variable {ages : List Int} (some : 0 < ages.length)
include some

theorem lt_mean {lag : Int} (above : ∀ age ∈ ages, lag < age) : lag < ages.sum / ages.length := by
  have sum := ages.card_nsmul_le_sum (lag + 1) fun age member => above age member
  rw [nsmul_eq_mul, mul_comm] at sum
  exact Int.lt_of_add_one_le ((Int.le_ediv_iff_mul_le (by exact_mod_cast some)).2 sum)

theorem mean_le {most : Int} (below : ∀ age ∈ ages, age ≤ most) :
    ages.sum / ages.length ≤ most := by
  have sum := ages.sum_le_card_nsmul most below
  rw [nsmul_eq_mul, mul_comm] at sum
  exact Int.ediv_le_of_le_mul (by exact_mod_cast some) sum

end

section
variable {now lag : Int} (nonneg : 0 ≤ lag) {starts : List Int}
  (fits : (slowAges now lag starts).sum ≤ Word.maxSigned)
include nonneg fits

theorem length_slowAges_le : (slowAges now lag starts).length ≤ Word.maxSigned := by
  have least := (slowAges now lag starts).card_nsmul_le_sum 1 (slowAges_pos nonneg now starts)
  rw [nsmul_one] at least
  exact least.trans fits

theorem age_eq_of_slow (several : 1 < (slowAges now lag starts).length) {start : Int}
    (slow : Stamp.age now start ∈ slowAges now lag starts) :
    Stamp.age now start = now - start := by
  have pos := slowAges_pos nonneg now starts
  exact age_eq (pos _ slow) ((lt_sum_of_mem pos several slow).trans_le fits)

theorem predictedLag_eq (most : starts.length / 2 + 1 < (slowAges now lag starts).length) :
    predictedLag now lag starts =
      (slowAges now lag starts).sum / (slowAges now lag starts).length := by
  have some : ∀ age ∈ slowAges now lag starts, 0 ≤ age := fun age member =>
    (slowAges_pos nonneg now starts age member).le
  have sum := List.sum_nonneg some
  simp only [predictedLag]
  rw [if_pos most, clampedSum_eq some, Word.clampSigned_eq_self (le_trans (by decide) sum) fits,
    Int.tdiv_eq_ediv_of_nonneg sum]

end

/-- Nothing is predicted while at most half of the open calls, and one more, are slow. Beyond that
the prediction is the mean age of the slow calls without its fraction, and the number that it is
divided by is a positive word. -/
theorem predictedLag_mean (c : OpenCalls) {now lag : Int} (nonneg : 0 ≤ lag)
    (fits : ((c.starts.filter fun start => lag < Stamp.age now start).map
      (Stamp.age now)).sum ≤ Word.maxSigned) :
    let slow := c.starts.filter fun start => lag < Stamp.age now start
    let predicted := predictedLag now lag c.starts
    (slow.length ≤ c.size / 2 + 1 → predicted = 0) ∧
      (c.size ≤ 2 → predicted = 0) ∧
      (c.size / 2 + 1 < slow.length →
        0 < slow.length ∧ slow.length ≤ Word.maxSigned ∧
        (∀ start ∈ slow, Stamp.age now start = now - start) ∧
        predicted = ⌊((slow.map fun start => now - start).sum : ℚ) / slow.length⌋ ∧
        lag < predicted ∧
        ∃ oldest, c.starts.min? = some oldest ∧ predicted ≤ now - oldest) ∧
      ∀ d : OpenCalls, d.starts.Perm c.starts → predictedLag now lag d.starts = predicted := by
  intro slow predicted
  have ages : slowAges now lag c.starts = slow.map (Stamp.age now) := slowAges_eq now lag c.starts
  have size : c.starts.length = c.size := List.length_map _
  have count : (slowAges now lag c.starts).length = slow.length := by rw [ages, List.length_map]
  have few (none : slow.length ≤ c.size / 2 + 1) : predicted = 0 := by
    simp only [predicted, predictedLag]
    rw [size, count, if_neg (not_lt.2 none)]
  refine ⟨few, fun two => few ?_, fun most => ?_, fun d same => predictedLag_perm nonneg same⟩
  · have some : slow.length ≤ c.size := size ▸ List.length_filter_le _ _
    omega
  rw [← ages] at fits
  have unclamped : ∀ start ∈ slow, Stamp.age now start = now - start := fun start member =>
    age_eq_of_slow nonneg fits (by omega) (ages ▸ List.mem_map_of_mem member)
  have differences : slowAges now lag c.starts = slow.map fun start => now - start :=
    ages.trans (List.map_congr_left unclamped)
  have mean : predicted = _ := predictedLag_eq nonneg fits (by omega)
  have several : 0 < (slowAges now lag c.starts).length := by omega
  refine ⟨by omega, count ▸ length_slowAges_le nonneg fits, unclamped, ?_, ?_, ?_⟩
  · rw [mean, ← differences, ← count, floor_mean]
  · rw [mean]
    exact lt_mean several fun age member => (mem_slowAges.1 member).2
  · obtain ⟨start, begun⟩ := List.exists_mem_of_length_pos (show 0 < slow.length by omega)
    obtain ⟨oldest, first⟩ :=
      Option.isSome_iff_exists.1 (List.isSome_min?_of_mem (List.mem_of_mem_filter begun))
    refine ⟨oldest, first, ?_⟩
    rw [mean]
    refine mean_le several fun age member => ?_
    rw [differences] at member
    obtain ⟨other, slowly, rfl⟩ := List.mem_map.1 member
    have later := (List.min?_eq_some_iff.1 first).2 other (List.mem_of_mem_filter slowly)
    omega

/-- Five calls are open, and all but the third have been so for longer than the average. -/
theorem predictedLag_mean_four_of_five :
    let c := ((((OpenCalls.empty.insert 7 1).insert 8 11).insert 9 96).insert 12 31).insert 13 40
    predictedLag 101 10 c.starts = 80 ∧
      ∀ d : OpenCalls, d.starts = [40, 31, 11, 96, 1] → predictedLag 101 10 d.starts = 80 := by
  intro c
  have fits : ((c.starts.filter fun start => 10 < Stamp.age 101 start).map
      (Stamp.age 101)).sum ≤ Word.maxSigned := by decide
  obtain ⟨_, _, several, order⟩ := predictedLag_mean c (by decide) fits
  obtain ⟨_, _, _, mean, _⟩ := several (by decide)
  have predicted : predictedLag 101 10 c.starts = 80 := mean.trans (floor_mean [100, 90, 70, 61])
  refine ⟨predicted, fun d begun => (order d ?_).trans predicted⟩
  rw [begun]
  decide

end NodeSelection.Ewma
