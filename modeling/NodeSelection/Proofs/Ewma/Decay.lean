import NodeSelection.Proofs.Binary64.Rounding
import NodeSelection.Proofs.Ewma.Averages

/-! How the average latency follows calls that all take the same time. By the decay alone it would
depend on the time that has passed and not on the number of calls. But every sample drops a
fraction, so the average falls behind by up to one for each, less what has decayed since:
nothing to speak of where samples are far apart, and everything where they come so fast that
no single one gains a whole nanosecond. All this is about doubles, with any function for the
exponential that comes near enough to it. -/

namespace NodeSelection.Ewma
open Binary64 (Reads Near)

theorem abs_mul_sub_mul_le {a b c d e : ℝ} (near : |a - b| ≤ c) (nonneg : 0 ≤ d) (le : d ≤ e) :
    |a * d - b * d| ≤ c * e := by
  rw [← sub_mul, abs_mul, abs_of_nonneg nonneg]
  exact mul_le_mul near le nonneg ((abs_nonneg _).trans near)

theorem cast_le_of_word {top : Int} (word : top ≤ Word.maxSigned) : (top : ℝ) ≤ 2 ^ 63 := by
  have power : Word.maxSigned ≤ 2 ^ 63 := by decide
  exact_mod_cast word.trans power

section
variable {top : Int} (pos : 0 < top) (word : top ≤ Word.maxSigned)
include pos word

/-- A duration times a double that is off from some share by what a difference may be off. -/
theorem exists_reads_scaled {y : Float} {b share : ℝ} (reads : Reads y b) (near : Near b share)
    (le : share ≤ 1) {n : Int} (nonneg : 0 ≤ n) (most : n ≤ top) :
    ∃ p, Reads (Binary64.ofInt n * y) p ∧ p ≤ 4 * top ∧ |p - n * share| ≤ 10 * top / 2 ^ 52 := by
  have short : Word.maxSigned ≤ Word.maxUnsigned := by decide
  have far := cast_le_of_word word
  norm_num at far
  have one : (1 : ℝ) ≤ top := by exact_mod_cast pos
  have least : (0 : ℝ) ≤ n := by exact_mod_cast nonneg
  have greatest : (n : ℝ) ≤ top := by exact_mod_cast most
  obtain ⟨a, readsInt, nearInt⟩ := Binary64.exists_reads_ofInt nonneg (by omega)
  replace nearInt := nearInt.abs_sub_le (2 * top) (by linarith)
  replace near := near.abs_sub_le 2 (by linarith)
  have double : b ≤ 2 := by linarith [(abs_le.1 near).2]
  have left := abs_mul_sub_mul_le nearInt reads.nonneg double
  have right := abs_mul_sub_mul_le near least greatest
  have product := mul_le_mul_of_nonneg_left double readsInt.nonneg
  norm_num [abs_le] at nearInt left right ⊢
  obtain ⟨p, readsProduct, nearProduct⟩ :=
    Binary64.exists_reads_mul readsInt reads (by norm_num; linarith)
  replace nearProduct := nearProduct.abs_sub_le (4 * top) (by linarith)
  norm_num [abs_le] at nearProduct
  exact ⟨p, readsProduct, by linarith, by linarith, by linarith⟩

theorem exists_reads_blend {w : Float} {share : ℝ} (reads : Reads w share) (le : share ≤ 1)
    {old new : Int} (before : 0 ≤ old ∧ old ≤ top) (sample : 0 ≤ new ∧ new ≤ top) :
    ∃ r, Reads (Binary64.ofInt old * w + Binary64.ofInt new * (Binary64.ofInt 1 - w)) r ∧
      |r - (new + (old - new) * share)| ≤ top / 2 ^ 47 := by
  obtain ⟨rest, readsRest, nearRest⟩ := Binary64.exists_reads_one_sub reads le
  obtain ⟨p, readsKept, keptTop, nearKept⟩ := exists_reads_scaled pos word reads
    (Binary64.near_self reads.nonneg) le before.1 before.2
  obtain ⟨q, readsAdded, addedTop, nearAdded⟩ := exists_reads_scaled pos word readsRest nearRest
    (sub_le_self 1 reads.nonneg) sample.1 sample.2
  have one : (1 : ℝ) ≤ top := by exact_mod_cast pos
  have far := cast_le_of_word word
  norm_num at far
  obtain ⟨r, readsSum, nearSum⟩ :=
    Binary64.exists_reads_add readsKept readsAdded (by norm_num; linarith)
  replace nearSum := nearSum.abs_sub_le (9 * top) (by linarith)
  norm_num [abs_le] at nearKept nearAdded nearSum ⊢
  exact ⟨r, readsSum, by linarith, by linarith⟩

end

/-- A fault of the share moves the blend by as much of what is blended. -/
theorem abs_sub_blend_le {r w kept fault old new top : ℝ} (near : |w - kept| ≤ fault)
    (before : 0 ≤ old ∧ old ≤ top) (sample : 0 ≤ new ∧ new ≤ top)
    (off : |r - (new + (old - new) * w)| ≤ top / 2 ^ 47) :
    |r - (new + (old - new) * kept)| ≤ (fault + 1 / 2 ^ 47) * top := by
  have moved : |(old - new) * (w - kept)| ≤ top * fault := by
    rw [abs_mul]
    exact mul_le_mul (abs_le.2 ⟨by linarith, by linarith⟩) near (abs_nonneg _)
      (before.1.trans before.2)
  rw [abs_le] at off moved ⊢
  constructor <;> linarith

/-- Doubles with an exponential of their own, as the one that is run has no definition. -/
@[reducible]
def computing (exp : Float → Float) : Scalar Float := { (inferInstance : Scalar Float) with exp }

def shareBy (exp : Float → Float) (t : Tuning Float) (elapsed : Int) : Float :=
  letI := computing exp
  decay t.tau elapsed

/-- What a node computes for the share that remains from one stamp to another is a double that does
not exceed one and is off from the share by no more than a fault. -/
structure Accurate (exp : Float → Float) (t : Tuning Float) (tau fault : ℝ) (earlier later : Int) :
    Prop where
  scale : Reads t.tau tau
  share : ∃ w, Reads (shareBy exp t (later - earlier)) w ∧ w ≤ 1 ∧
    |w - Real.exp (-(later - earlier) / tau)| ≤ fault

namespace Averages

def recordBy (exp : Float → Float) (t : Tuning Float) (a : Averages Float) (x : Sample) :
    Averages Float :=
  letI := computing exp
  a.record t x

theorem lag_recordBy (exp : Float → Float) (t : Tuning Float) {a : Averages Float}
    (known : a.lag ≠ 0) (x : Sample) :
    let w := shareBy exp t (Stamp.since x.now a.stamp)
    (a.recordBy exp t x).lag = Binary64.toInt
      (Binary64.ofInt a.lag * w + Binary64.ofInt x.latency * (Binary64.ofInt 1 - w)) := by
  let arithmetic := computing exp
  have share : a.keptShare t x.now = shareBy exp t (Stamp.since x.now a.stamp) := if_neg known
  show Scalar.toInt (blend (a.keptShare t x.now) _ _) = _
  rw [share]
  rfl

end Averages

namespace Ledger

def runBy (exp : Float → Float) (t : Tuning Float) (l : Ledger Float) (acts : List Act) :
    Ledger Float :=
  letI := computing exp
  l.run t acts

def samplesBy (exp : Float → Float) (t : Tuning Float) (l : Ledger Float) (acts : List Act) :
    List Sample :=
  letI := computing exp
  l.samples t acts

/-- With the exponential that is run it is the same run. -/
theorem runBy_exp (t : Tuning Float) (l : Ledger Float) (acts : List Act) :
    l.runBy Float.exp t acts = l.run t acts ∧ l.samplesBy Float.exp t acts = l.samples t acts :=
  ⟨rfl, rfl⟩

theorem averages_runBy (exp : Float → Float) (t : Tuning Float) (l : Ledger Float)
    (acts : List Act) :
    (l.runBy exp t acts).stats.averages =
      (l.samplesBy exp t acts).foldl (Averages.recordBy exp t) l.stats.averages :=
  letI := computing exp
  l.averages_run t acts

end Ledger

/-- What the fractions dropped by some samples come to in the end, each being one at most. -/
noncomputable def dropped (tau : ℝ) (now : Int) (xs : List Sample) : ℝ :=
  (xs.map fun x => Real.exp (-(now - x.now) / tau)).sum

theorem dropped_cons (tau : ℝ) (now : Int) (x : Sample) (xs : List Sample) :
    dropped tau now (x :: xs) = Real.exp (-(now - x.now) / tau) + dropped tau now xs := by
  rw [dropped, List.map_cons, List.sum_cons, dropped]

theorem dropped_nonneg (tau : ℝ) (now : Int) (xs : List Sample) : 0 ≤ dropped tau now xs := by
  refine List.sum_nonneg fun share mem => ?_
  obtain ⟨x, -, rfl⟩ := List.mem_map.1 mem
  exact Real.exp_nonneg _

/-- Samples that keep a distance drop no more than a geometric series. -/
theorem dropped_of_spaced {tau : ℝ} (pos : 0 < tau) {gap : Int} (gapped : 0 < gap) {now : Int}
    {x : Sample} {xs : List Sample} (past : ∀ y ∈ x :: xs, y.now ≤ now)
    (spaced : ((x :: xs).map Sample.now).IsChain fun earlier later => earlier + gap ≤ later) :
    (1 - Real.exp (-gap / tau)) * dropped tau now (x :: xs) ≤
      1 - Real.exp (-gap / tau) * Real.exp (-(now - x.now) / tau) := by
  induction xs generalizing x with
  | nil =>
    have before : (x.now : ℝ) ≤ now := by exact_mod_cast past x List.mem_cons_self
    have kept := share_le_one pos (sub_nonneg.2 before)
    rw [dropped_cons, dropped, List.map_nil, List.sum_nil]
    linarith
  | cons y ys ih =>
    rw [List.map_cons, List.map_cons, List.isChain_cons_cons] at spaced
    have rest := ih (List.forall_mem_cons.1 past).2 spaced.2
    have ratio : 0 ≤ 1 - Real.exp (-gap / tau) :=
      sub_nonneg.2 (share_le_one pos (by exact_mod_cast gapped.le))
    -- The first sample has decayed by one more factor than the second one.
    have first : Real.exp (-(now - x.now) / tau) ≤
        Real.exp (-gap / tau) * Real.exp (-(now - y.now) / tau) := by
      have apart : (x.now + gap : ℝ) ≤ y.now := by exact_mod_cast spaced.1
      rw [← Real.exp_add, Real.exp_le_exp, ← add_div, div_le_div_iff_of_pos_right pos]
      linarith
    rw [dropped_cons]
    nlinarith

theorem exp_gap_lt_one {tau : ℝ} (pos : 0 < tau) {gap : Int} (gapped : 0 < gap) :
    Real.exp (-gap / tau) < 1 := by
  have positive : (0 : ℝ) < gap := by exact_mod_cast gapped
  rw [Real.exp_lt_one_iff, neg_div, neg_neg_iff_pos]
  positivity

theorem dropped_le {tau : ℝ} (pos : 0 < tau) {gap : Int} (gapped : 0 < gap) {now : Int}
    {xs : List Sample} (past : ∀ x ∈ xs, x.now ≤ now)
    (spaced : (xs.map Sample.now).IsChain fun earlier later => earlier + gap ≤ later) :
    dropped tau now xs ≤ 1 / (1 - Real.exp (-gap / tau)) := by
  have ratio := sub_pos.2 (exp_gap_lt_one pos gapped)
  rw [le_div_iff₀ ratio, mul_comm]
  cases xs with
  | nil => simp [dropped]
  | cons x xs =>
    refine (dropped_of_spaced pos gapped past spaced).trans ?_
    linarith [mul_nonneg (Real.exp_nonneg (-gap / tau)) (Real.exp_nonneg (-(now - x.now) / tau))]

namespace Averages

/-- Where an average that keeps its fraction stands when all samples since have had one latency. -/
noncomputable def settled (tau : ℝ) (a : Averages Float) (latency now : Int) : ℝ :=
  latency + (a.lag - latency) * Real.exp (-(now - a.stamp) / tau)

theorem settled_eq (tau : ℝ) (a : Averages Float) (latency between now : Int) :
    a.settled tau latency now =
      latency + (a.settled tau latency between - latency) * Real.exp (-(now - between) / tau) := by
  have split : Real.exp (-(now - a.stamp) / tau) =
      Real.exp (-(between - a.stamp) / tau) * Real.exp (-(now - between) / tau) := by
    rw [← Real.exp_add]
    ring_nf
  rw [settled, settled, split]
  ring

theorem stamp_foldl (exp : Float → Float) (t : Tuning Float) (a : Averages Float)
    (xs : List Sample) :
    (a.stamp :: xs.map Sample.now).getLast? = some (xs.foldl (recordBy exp t) a).stamp := by
  induction xs generalizing a with
  | nil => rfl
  | cons x xs ih =>
    rw [List.map_cons, List.getLast?_cons_cons]
    exact ih (a.recordBy exp t x)

theorem le_stamp_foldl (exp : Float → Float) (t : Tuning Float) (a : Averages Float)
    {xs : List Sample} (ordered : (a.stamp :: xs.map Sample.now).IsChain Follows) :
    ∀ time ∈ a.stamp :: xs.map Sample.now, time ≤ (xs.foldl (recordBy exp t) a).stamp := by
  induction xs generalizing a with
  | nil => simp
  | cons x xs ih =>
    rw [List.map_cons, List.isChain_cons_cons] at ordered
    have rest := ih (a.recordBy exp t x) ordered.2
    exact List.forall_mem_cons.2 ⟨ordered.1.1.trans (rest _ List.mem_cons_self), rest⟩

/-- None of the samples finds the latency unknown. -/
def Warm (exp : Float → Float) (t : Tuning Float) (a : Averages Float) : List Sample → Prop
  | [] => True
  | x :: xs => a.lag ≠ 0 ∧ (a.recordBy exp t x).Warm exp t xs

/-- Samples of one latency that follow a stamp in order, each with a share that is accurate. -/
structure Steady (exp : Float → Float) (t : Tuning Float) (tau fault : ℝ) (latency stamp : Int)
    (xs : List Sample) : Prop where
  same : ∀ x ∈ xs, x.latency = latency
  ordered : (stamp :: xs.map Sample.now).IsChain Follows
  accurate : (stamp :: xs.map Sample.now).IsChain (Accurate exp t tau fault)

theorem Steady.of_cons {exp : Float → Float} {t : Tuning Float} {tau fault : ℝ}
    {latency stamp : Int} {x : Sample} {xs : List Sample}
    (steady : Steady exp t tau fault latency stamp (x :: xs)) :
    (x.latency = latency ∧ Follows stamp x.now ∧ Accurate exp t tau fault stamp x.now) ∧
      Steady exp t tau fault latency x.now xs := by
  obtain ⟨same, ordered, accurate⟩ := steady
  rw [List.forall_mem_cons] at same
  rw [List.map_cons, List.isChain_cons_cons] at ordered accurate
  exact ⟨⟨same.1, ordered.1, accurate.1⟩, same.2, ordered.2, accurate.2⟩

/-- The average is a duration that does not exceed a bound. -/
structure Within (top : Int) (a : Averages Float) : Prop where
  nonneg : 0 ≤ a.lag
  le : a.lag ≤ top

section
variable {exp : Float → Float} {t : Tuning Float} {tau fault error : ℝ} (pos : 0 < tau)
  {top latency : Int} (told : 0 < latency ∧ latency ≤ top) (word : top ≤ Word.maxSigned)
  (sum : (fault + 1 / 2 ^ 47) * top ≤ error) (fine : error < 1)
include pos told word sum fine

/-- One sample. Doubles hardly matter, but the fraction is dropped. -/
theorem exists_lag_recordBy {a : Averages Float} (within : a.Within top) (known : a.lag ≠ 0)
    {x : Sample} (sampled : x.latency = latency ∧ Follows a.stamp x.now ∧
      Accurate exp t tau fault a.stamp x.now) :
    ∃ r : ℝ, (a.recordBy exp t x).lag = ⌊r⌋ ∧ (a.recordBy exp t x).Within top ∧
      |r - a.settled tau latency x.now| ≤ error := by
  obtain ⟨same, follows, -, w, reads, share, near⟩ := sampled
  have elapsed : Stamp.since x.now a.stamp = x.now - a.stamp := follows.since_eq
  obtain ⟨r, blended, off⟩ := exists_reads_blend (told.1.trans_le told.2) word reads share
    ⟨within.nonneg, within.le⟩ ⟨told.1.le, told.2⟩
  have lag := lag_recordBy exp t known x
  dsimp only at lag
  rw [elapsed, same, Binary64.toInt_of_reads blended] at lag
  have before : (0 : ℝ) ≤ a.lag ∧ (a.lag : ℝ) ≤ top := by exact_mod_cast And.intro within.1 within.2
  have sample : (0 : ℝ) ≤ latency ∧ (latency : ℝ) ≤ top := by
    exact_mod_cast And.intro told.1.le told.2
  have total : |r - a.settled tau latency x.now| ≤ error :=
    (abs_sub_blend_le near before sample off).trans sum
  have below : a.settled tau latency x.now ≤ top := by
    have apart : (0 : ℝ) ≤ x.now - a.stamp := by exact_mod_cast Int.sub_nonneg.2 follows.1
    exact (between_of_share (Real.exp_nonneg _) (share_le_one pos apart) a.lag latency).2.trans
      (max_le before.2 sample.2)
  have floor : ⌊r⌋ ≤ top := by
    have above := (abs_le.1 total).2
    exact Int.lt_add_one_iff.1 (Int.floor_lt.2 (by push_cast; linarith))
  rw [min_eq_left (floor.trans word)] at lag
  exact ⟨r, lag, ⟨lag ▸ Int.floor_nonneg.2 blended.nonneg, lag ▸ floor⟩, total⟩

theorem settled_foldl {a : Averages Float} (within : a.Within top) {xs : List Sample}
    (steady : Steady exp t tau fault latency a.stamp xs) (warm : a.Warm exp t xs) :
    let b := xs.foldl (recordBy exp t) a
    b.lag ≤ a.settled tau latency b.stamp + error * dropped tau b.stamp xs ∧
      a.settled tau latency b.stamp ≤ b.lag + (1 + error) * dropped tau b.stamp xs := by
  induction xs generalizing a with
  | nil =>
    have still : a.settled tau latency a.stamp = a.lag := by simp [settled]
    simp [still, dropped]
  | cons x xs ih =>
    obtain ⟨sampled, rest⟩ := steady.of_cons
    obtain ⟨r, lag, later, off⟩ :=
      exists_lag_recordBy pos told word sum fine within warm.1 sampled
    obtain ⟨below, above⟩ := ih later rest warm.2
    rw [List.foldl_cons]
    generalize xs.foldl (recordBy exp t) (a.recordBy exp t x) = b at below above ⊢
    dsimp only
    -- What the first sample drops decays like everything else until the end.
    have least := Int.floor_le r
    have most := Int.lt_floor_add_one r
    rw [← lag] at least most
    have kept := Real.exp_nonneg (-(b.stamp - x.now) / tau)
    have later : (a.recordBy exp t x).settled tau latency b.stamp =
        latency + ((a.recordBy exp t x).lag - latency) * Real.exp (-(b.stamp - x.now) / tau) := rfl
    rw [abs_le] at off
    have lower := mul_le_mul_of_nonneg_right (show ((a.recordBy exp t x).lag : ℝ) ≤
      a.settled tau latency x.now + error by linarith) kept
    have upper := mul_le_mul_of_nonneg_right (show a.settled tau latency x.now ≤
      (a.recordBy exp t x).lag + (1 + error) by linarith) kept
    rw [later] at below above
    rw [settled_eq tau a latency x.now b.stamp, dropped_cons]
    constructor <;> linarith

/-- Samples that keep a distance never let the latency fall back to nothing, as long as one share
makes up for the fractions. -/
theorem warm_of_spaced {gap : Int} {least : ℝ} (low : least ≤ latency)
    (few : (1 + error) / (1 - Real.exp (-gap / tau)) < least) {a : Averages Float}
    (within : a.Within top)
    (above : least - (1 + error) / (1 - Real.exp (-gap / tau)) ≤ a.lag) {xs : List Sample}
    (steady : Steady exp t tau fault latency a.stamp xs) (gapped : 0 < gap)
    (spaced : (a.stamp :: xs.map Sample.now).IsChain fun earlier later => earlier + gap ≤ later) :
    a.Warm exp t xs := by
  have ratio := exp_gap_lt_one pos gapped
  induction xs generalizing a with
  | nil => trivial
  | cons x xs ih =>
    obtain ⟨sampled, rest⟩ := steady.of_cons
    rw [List.map_cons, List.isChain_cons_cons] at spaced
    have known : a.lag ≠ 0 := by
      rintro zero
      rw [zero, Int.cast_zero] at above
      linarith
    obtain ⟨r, lag, later, off⟩ := exists_lag_recordBy pos told word sum fine within known sampled
    refine ⟨known, ih later ?_ rest spaced.2⟩
    -- What is lost in all is the share of it that remains and the fraction of this sample.
    have balance : (1 + error) / (1 - Real.exp (-gap / tau)) * (1 - Real.exp (-gap / tau)) =
        1 + error := div_mul_cancel₀ _ (by linarith)
    have apart : (gap : ℝ) ≤ x.now - a.stamp := by
      have moved := spaced.1
      exact_mod_cast (show gap ≤ x.now - a.stamp by omega)
    have share : Real.exp (-(x.now - a.stamp) / tau) ≤ Real.exp (-gap / tau) := by
      rw [Real.exp_le_exp, div_le_div_iff_of_pos_right pos]
      linarith
    have kept := Real.exp_nonneg (-(x.now - a.stamp) / tau)
    have fraction := Int.lt_floor_add_one r
    rw [← lag] at fraction
    rw [abs_le, settled] at off
    generalize (1 + error) / (1 - Real.exp (-gap / tau)) = lost at few above balance ⊢
    have moved := mul_le_mul_of_nonneg_right above kept
    have added := mul_le_mul_of_nonneg_right low (show (0 : ℝ) ≤
      1 - Real.exp (-(x.now - a.stamp) / tau) by linarith)
    have decayed := mul_le_mul_of_nonneg_left share (show 0 ≤ lost by nlinarith)
    linarith

/-- Where a sample would not move the average by a whole nanosecond toward a greater latency it
does not move it at all. -/
theorem lag_foldl_of_slow {a : Averages Float} (within : a.Within top) (known : a.lag ≠ 0)
    {xs : List Sample} (steady : Steady exp t tau fault latency a.stamp xs)
    (slow : (a.stamp :: xs.map Sample.now).IsChain fun (earlier later : Int) =>
      let gain : ℝ := (latency - a.lag) * (1 - Real.exp (-(later - earlier) / tau))
      error ≤ gain ∧ gain < 1 - error) :
    (xs.foldl (recordBy exp t) a).lag = a.lag := by
  induction xs generalizing a with
  | nil => rfl
  | cons x xs ih =>
    obtain ⟨sampled, rest⟩ := steady.of_cons
    rw [List.map_cons, List.isChain_cons_cons] at slow
    obtain ⟨r, lag, later, off⟩ := exists_lag_recordBy pos told word sum fine within known sampled
    have still : (a.recordBy exp t x).lag = a.lag := by
      obtain ⟨least, most⟩ := slow.1
      rw [abs_le, settled] at off
      rw [lag, Int.floor_eq_iff]
      constructor <;> linarith
    rw [List.foldl_cons, ← still]
    refine ih later (still ▸ known) rest ?_
    rw [still]
    exact slow.2

end
end Averages

/-- Some calls of one latency, however they are spaced. In doubles the average is where it would be
by the time that has passed alone, up to the fractions that were dropped on the way. These are few
where the calls keep a distance. Where they come so fast that none gains a nanosecond the average
stands still, and time passes for nothing. Apart from its fraction a sample is off by no more than
`error`, of which `fault` is for the share and the rest for the doubles that are blended. -/
theorem lag_settles {exp : Float → Float} {t : Tuning Float} {tau fault error : ℝ} (pos : 0 < tau)
    {top latency : Int} (told : 0 < latency ∧ latency ≤ top) (word : top ≤ Word.maxSigned)
    (sum : (fault + 1 / 2 ^ 47) * top ≤ error) (fine : 0 ≤ error ∧ error < 1) {l : Ledger Float}
    (known : 0 < l.stats.lag ∧ l.stats.lag ≤ top) {acts : List Act}
    (same : ∀ x ∈ l.samplesBy exp t acts, x.latency = latency)
    (ordered : (l.stats.stamp :: (l.samplesBy exp t acts).map Sample.now).IsChain Follows)
    (accurate : (l.stats.stamp :: (l.samplesBy exp t acts).map Sample.now).IsChain
      (Accurate exp t tau fault)) :
    let xs := l.samplesBy exp t acts
    let times := l.stats.stamp :: xs.map Sample.now
    let s := (l.runBy exp t acts).stats
    let settled : ℝ :=
      latency + (l.stats.lag - latency) * Real.exp (-(s.stamp - l.stats.stamp) / tau)
    times.getLast? = some s.stamp ∧
      (l.stats.averages.Warm exp t xs →
        s.lag ≤ settled + error * dropped tau s.stamp xs ∧
          settled ≤ s.lag + (1 + error) * dropped tau s.stamp xs) ∧
      (∀ gap : Int, 0 < gap → (times.IsChain fun (earlier later : Int) => earlier + gap ≤ later) →
        (1 + error) / (1 - Real.exp (-gap / tau)) < (min l.stats.lag latency : Int) →
        |s.lag - settled| ≤ (1 + error) / (1 - Real.exp (-gap / tau))) ∧
      ((times.IsChain fun (earlier later : Int) =>
        let gain : ℝ := (latency - l.stats.lag) * (1 - Real.exp (-(later - earlier) / tau))
        error ≤ gain ∧ gain < 1 - error) → s.lag = l.stats.lag) := by
  intro xs times s settled
  have averages : s.averages = xs.foldl (Averages.recordBy exp t) l.stats.averages :=
    l.averages_runBy exp t acts
  have lag : s.lag = (xs.foldl (Averages.recordBy exp t) l.stats.averages).lag :=
    congrArg Averages.lag averages
  have stamp : s.stamp = (xs.foldl (Averages.recordBy exp t) l.stats.averages).stamp :=
    congrArg Averages.stamp averages
  have within : l.stats.averages.Within top := ⟨known.1.le, known.2⟩
  have steady : Averages.Steady exp t tau fault latency l.stats.averages.stamp xs :=
    ⟨same, ordered, accurate⟩
  have either (warm : l.stats.averages.Warm exp t xs) :
      s.lag ≤ settled + error * dropped tau s.stamp xs ∧
        settled ≤ s.lag + (1 + error) * dropped tau s.stamp xs := by
    have bounds := Averages.settled_foldl pos told word sum fine.2 within steady warm
    dsimp only at bounds
    rwa [← lag, ← stamp] at bounds
  refine ⟨?_, either, fun gap gapped spaced few => ?_, fun slow => ?_⟩
  · rw [stamp]
    exact Averages.stamp_foldl exp t l.stats.averages xs
  · have ratio := sub_pos.2 (exp_gap_lt_one pos gapped)
    have lost : 0 ≤ (1 + error) / (1 - Real.exp (-gap / tau)) := by
      have loss : 0 ≤ 1 + error := by linarith
      positivity
    have least : ((min l.stats.lag latency : Int) : ℝ) ≤ l.stats.lag := by
      exact_mod_cast min_le_left _ _
    have low : ((min l.stats.lag latency : Int) : ℝ) ≤ latency := by exact_mod_cast min_le_right _ _
    have warm := Averages.warm_of_spaced pos told word sum fine.2 low few within
      ((sub_le_self _ lost).trans least) steady gapped spaced
    obtain ⟨below, above⟩ := either warm
    have reach : ∀ x ∈ xs, x.now ≤ s.stamp := by
      intro x mem
      rw [stamp]
      exact Averages.le_stamp_foldl exp t _ ordered _
        (List.mem_cons_of_mem _ (List.mem_map_of_mem mem))
    have drops := mul_le_mul_of_nonneg_left (dropped_le pos gapped reach spaced.tail)
      (show 0 ≤ 1 + error by linarith)
    have drop : 0 ≤ dropped tau s.stamp xs := dropped_nonneg tau s.stamp xs
    rw [mul_one_div] at drops
    rw [abs_le]
    constructor <;> linarith
  · rw [lag]
    exact Averages.lag_foldl_of_slow pos told word sum fine.2 within known.1.ne' steady slow

/-- Calls made one by one, which end at the given times. -/
def repeated (latency : Int) : Nat → List Int → List Act
  | _, [] => []
  | call, now :: rest =>
    .start (now - latency) :: .finish call now false :: repeated latency (call + 1) rest

section
variable {α : Type} [Add α] [Sub α] [Mul α] [Div α] [Neg α] [Scalar α]

namespace Ledger

theorem length_calls_step (t : Tuning α) (l : Ledger α) (act : Act) :
    (l.step t act).calls.length = l.calls.length + act.startTime?.toList.length := by
  have starts := congrArg List.length (starts_step t l act)
  rwa [List.length_append, List.length_map, List.length_map] at starts

variable {latency : Int} (pos : 0 ≤ latency) (word : latency ≤ Word.maxSigned)
include pos word

theorem sample?_start (t : Tuning α) (l : Ledger α) (now : Int) (failed : Bool) :
    (l.step t (.start (now - latency))).sample? (.finish l.calls.length now failed) =
      some ⟨now, latency, failed⟩ := by
  have opened : (l.step t (.start (now - latency))).calls[l.calls.length]? =
      some ⟨l.stats.requests, now - latency, none⟩ := List.getElem?_concat_length
  have told : (l.step t (.start (now - latency))).stats.latency l.stats.requests now =
      latency := by
    rw [step, Stats.start, Stats.latency]
    dsimp only
    rw [OpenCalls.start?_insert_self, Option.getD_some, Stamp.since_eq (by omega)]
    omega
  rw [sample?, opened]
  dsimp only
  rw [told]

theorem samples_repeated (t : Tuning α) (l : Ledger α) (times : List Int) :
    l.samples t (repeated latency l.calls.length times) =
      times.map fun now => ⟨now, latency, false⟩ := by
  induction times generalizing l with
  | nil => rfl
  | cons now times ih =>
    have count : ((l.step t (.start (now - latency))).step t
        (.finish l.calls.length now false)).calls.length = l.calls.length + 1 := by
      rw [length_calls_step, length_calls_step]
      rfl
    rw [repeated, samples, samples, sample?_start pos word, ← count, ih]
    rfl

end Ledger

end

def ticks (gap : Int) : Int → Nat → List Int
  | _, 0 => []
  | base, n + 1 => (base + gap) :: ticks gap (base + gap) n

theorem isChain_ticks {R : Int → Int → Prop} {gap : Int} (next : ∀ time, R time (time + gap))
    (base : Int) (n : Nat) : (base :: ticks gap base n).IsChain R := by
  induction n generalizing base with
  | zero => exact .singleton base
  | succ n ih => exact .cons_cons (next base) (ih (base + gap))

theorem getLast?_ticks (gap base : Int) (n : Nat) :
    (base :: ticks gap base n).getLast? = some (base + n * gap) := by
  induction n generalizing base with
  | zero => simp [ticks]
  | succ n ih =>
    rw [ticks, List.getLast?_cons_cons, ih]
    push_cast
    ring_nf

/-- One call of 50 µs has ended. -/
def warmed : Ledger Float := ⟨{ Stats.fresh with lag := 50000, stamp := 1000050000 }, []⟩

theorem samples_warmed (exp : Float → Float) (t : Tuning Float) (times : List Int) :
    warmed.samplesBy exp t (repeated 55000 0 times) = times.map fun now => ⟨now, 55000, false⟩ :=
  letI := computing exp
  warmed.samples_repeated (by decide) (by decide) t times

theorem times_warmed (exp : Float → Float) (t : Tuning Float) (times : List Int) :
    warmed.stats.stamp :: (warmed.samplesBy exp t (repeated 55000 0 times)).map Sample.now =
      1000050000 :: times := by
  rw [samples_warmed, List.map_map]
  exact congrArg _ (List.map_id times)

theorem isChain_warmed {R : Int → Int → Prop} {gap : Int} (next : ∀ time, R time (time + gap))
    (exp : Float → Float) (t : Tuning Float) (n : Nat) :
    (warmed.stats.stamp ::
      (warmed.samplesBy exp t (repeated 55000 0 (ticks gap 1000050000 n))).map
        Sample.now).IsChain R := by
  rw [times_warmed]
  exact isChain_ticks next 1000050000 n

theorem latency_warmed (exp : Float → Float) (t : Tuning Float) (times : List Int) :
    ∀ x ∈ warmed.samplesBy exp t (repeated 55000 0 times), x.latency = 55000 := by
  simp [samples_warmed]

theorem follows_add {gap : Int} (pos : 0 ≤ gap) (word : gap ≤ Word.maxSigned) (time : Int) :
    Follows time (time + gap) :=
  ⟨by omega, by omega⟩

/-- A node whose exponential has one value. -/
theorem accurate_constant {share : Float} {w : ℝ} (reads : Reads share w) (le : w ≤ 1) {gap : Int}
    (near : |w - Real.exp (-gap / 600000000)| ≤ 1 / 2 ^ 40) (time : Int) :
    Accurate (fun _ => share) (.ofNanos defaultTau defaultPenalty none) 600000000 (1 / 2 ^ 40)
      time (time + gap) := by
  refine ⟨?_, w, reads, le, ?_⟩
  · have exact : Binary64.Exact 600000000 := by
      rw [Binary64.Exact]
      decide
    exact_mod_cast Binary64.reads_ofInt (by decide) exact
  · rwa [Int.cast_add, add_sub_cancel_left]

/-- What remains of an average after 100 ms. -/
def sparseShare : Float := .ofBits 0x3feb1660d7a223b1

/-- What remains of an average after 100 µs. -/
def denseShare : Float := .ofBits 0x3feffea280f885e2

theorem reads_sparseShare : Reads sparseShare ((7624429561586609 : Nat) * 2 ^ (-53 : Int)) :=
  Binary64.reads_of_unpack (show sparseShare.toModel.unpack = .finite _ _ _ (by decide) from rfl)

theorem reads_denseShare : Reads denseShare ((9005698179958242 : Nat) * 2 ^ (-53 : Int)) :=
  Binary64.reads_of_unpack (show denseShare.toModel.unpack = .finite _ _ _ (by decide) from rfl)

theorem sparseShare_near :
    |(7624429561586609 : Nat) * 2 ^ (-53 : Int) - Real.exp (-(100000000 : Int) / 600000000)| ≤
      1 / 2 ^ 40 := by
  have series := Real.exp_bound (x := -100000000 / 600000000) (by norm_num) (n := 10) (by decide)
  norm_num [abs_le, Finset.sum_range_succ, Nat.factorial] at series ⊢
  constructor <;> linarith

theorem sparseShare_lost :
    (1 + 1 / 2 ^ 24) / (1 - Real.exp (-(100000000 : Int) / 600000000)) ≤ 7 := by
  have near := abs_le.1 sparseShare_near
  norm_num at near ⊢
  rw [div_le_iff₀] <;> linarith

theorem denseShare_near :
    |(9005698179958242 : Nat) * 2 ^ (-53 : Int) - Real.exp (-(100000 : Int) / 600000000)| ≤
      1 / 2 ^ 40 := by
  have series := Real.exp_bound (x := -100000 / 600000000) (by norm_num) (n := 4) (by decide)
  norm_num [abs_le, Finset.sum_range_succ, Nat.factorial] at series ⊢
  constructor <;> linarith

theorem exp_neg_le {x : ℝ} (nonneg : 0 ≤ x) : Real.exp (-x) ≤ 1 / (x + 1) := by
  rw [Real.exp_neg, inv_eq_one_div]
  exact one_div_le_one_div_of_le (by positivity) (Real.add_one_le_exp x)

/-- Two seconds with a call every 100 ms, and with a call every 100 µs. -/
theorem lag_follows_or_stands_still :
    let t : Tuning Float := .ofNanos defaultTau defaultPenalty none
    let settled : ℝ :=
      55000 + (50000 - 55000) * Real.exp (-(3000050000 - 1000050000) / 600000000)
    let sparse := (warmed.runBy (fun _ => sparseShare) t
      (repeated 55000 0 (ticks 100000000 1000050000 20))).stats
    let dense := (warmed.runBy (fun _ => denseShare) t
      (repeated 55000 0 (ticks 100000 1000050000 20000))).stats
    sparse.stamp = 3000050000 ∧ |sparse.lag - settled| ≤ 7 ∧
      dense.stamp = 3000050000 ∧ dense.lag = 50000 ∧
        1 + |(50000 - 55000 : ℝ)| / 100 < |dense.lag - settled| := by
  -- Without a name for it the number would be counted down.
  obtain ⟨many, count⟩ : ∃ many : Nat, many = 20000 := ⟨_, rfl⟩
  rw [← count]
  intro t settled sparse dense
  have told : 0 < (55000 : Int) ∧ 55000 ≤ (55000 : Int) := by decide
  have word : 55000 ≤ Word.maxSigned := by decide
  have known : 0 < warmed.stats.lag ∧ warmed.stats.lag ≤ 55000 := by decide
  have sum : ((1 / 2 ^ 40 : ℝ) + 1 / 2 ^ 47) * (55000 : Int) ≤ 1 / 2 ^ 24 := by norm_num
  have fine : 0 ≤ (1 / 2 ^ 24 : ℝ) ∧ (1 / 2 ^ 24 : ℝ) < 1 := by norm_num
  have settles {share : Float} {w : ℝ} (reads : Reads share w) (le : w ≤ 1) {gap : Int}
      (gapped : 0 ≤ gap) (fits : gap ≤ Word.maxSigned)
      (near : |w - Real.exp (-gap / 600000000)| ≤ 1 / 2 ^ 40) (n : Nat) :=
    lag_settles (by norm_num) told word sum fine known
      (latency_warmed (fun _ => share) t (ticks gap 1000050000 n))
      (isChain_warmed (follows_add gapped fits) _ t n)
      (isChain_warmed (accurate_constant reads le near) _ t n)
  have followed (n : Nat) :
      let s := (warmed.runBy (fun _ => sparseShare) t
        (repeated 55000 0 (ticks 100000000 1000050000 n))).stats
      s.stamp = 1000050000 + n * 100000000 ∧ |(s.lag : ℝ) -
        (55000 + (50000 - 55000) * Real.exp (-(n * 100000000) / 600000000))| ≤ 7 := by
    obtain ⟨last, -, spaced, -⟩ :=
      settles reads_sparseShare (by norm_num) (by decide) (by decide) sparseShare_near n
    rw [times_warmed, getLast?_ticks, Option.some.injEq] at last
    have least : ((min warmed.stats.lag 55000 : Int) : ℝ) = 50000 := by
      rw [show min warmed.stats.lag 55000 = 50000 by decide]
      norm_num
    have close := (spaced 100000000 (by decide) (isChain_warmed (fun _ => le_rfl) _ t n)
      (least ▸ sparseShare_lost.trans_lt (by norm_num))).trans sparseShare_lost
    have start : warmed.stats.stamp = 1000050000 := rfl
    have lag : warmed.stats.lag = 50000 := rfl
    rw [← last, start, lag, Int.cast_add, add_sub_cancel_left] at close
    push_cast at close
    exact ⟨last.symm, close⟩
  have still (n : Nat) :
      let s := (warmed.runBy (fun _ => denseShare) t
        (repeated 55000 0 (ticks 100000 1000050000 n))).stats
      s.stamp = 1000050000 + n * 100000 ∧ s.lag = 50000 := by
    obtain ⟨last, -, -, slow⟩ :=
      settles reads_denseShare (by norm_num) (by decide) (by decide) denseShare_near n
    rw [times_warmed, getLast?_ticks, Option.some.injEq] at last
    refine ⟨last.symm, slow (isChain_warmed (fun time => ?_) _ t n)⟩
    have near := abs_le.1 denseShare_near
    rw [Int.cast_add, add_sub_cancel_left, show warmed.stats.lag = 50000 from rfl]
    norm_num at near ⊢
    constructor <;> linarith
  have passed : (-(3000050000 - 1000050000) / 600000000 : ℝ) =
      -((20 : Nat) * 100000000) / 600000000 := by norm_num
  obtain ⟨sparseStamp, close⟩ := followed 20
  obtain ⟨denseStamp, lag⟩ := still many
  rw [← passed] at close
  refine ⟨sparseStamp.trans (by norm_num), close, denseStamp.trans (by norm_num [count]), lag, ?_⟩
  have gone := exp_neg_le (show (0 : ℝ) ≤ 10 / 3 by norm_num)
  rw [show dense.lag = 50000 from lag, lt_abs]
  norm_num [settled] at gone ⊢
  exact Or.inr (by linarith)

end NodeSelection.Ewma
