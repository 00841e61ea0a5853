import Mathlib
import NodeSelection.Proofs.Ewma.Accounting

/-! What the averages of a node are made of. Of all that happens to it only the ends of calls reach
them, so after any run they follow from the samples that it took, one after the other. Read over the
reals the success is exact and the latency loses the fraction of every sample. -/

namespace NodeSelection.Ewma

structure Sample where
  now : Int
  latency : Int
  failed : Bool
deriving DecidableEq, Repr

structure Averages (α : Type) where
  lag : Int
  success : α
  stamp : Int

def Stats.averages {α : Type} (s : Stats α) : Averages α := ⟨s.lag, s.success, s.stamp⟩

theorem Stats.averages_refresh {α : Type} (s : Stats α) (now : Int) :
    (s.refresh now).averages = s.averages := by
  rw [refresh]
  split <;> rfl

section
variable {α : Type} [Add α] [Sub α] [Mul α] [Div α] [Neg α] [Scalar α]

namespace Averages

def keptShare (t : Tuning α) (a : Averages α) (now : Int) : α :=
  if a.lag = 0 then Scalar.ofInt 0 else decay t.tau (Stamp.since now a.stamp)

def record (t : Tuning α) (a : Averages α) (x : Sample) : Averages α where
  lag := Scalar.toInt
    (blend (a.keptShare t x.now) (Scalar.ofInt a.lag) (Scalar.ofInt x.latency))
  success := blend (a.keptShare t x.now) a.success
    (if x.failed then Scalar.ofInt 0 else fullSuccess)
  stamp := x.now

end Averages

namespace Ledger

def sample? (l : Ledger α) : Act → Option Sample
  | .finish call now failed =>
    match l.calls[call]? with
    | some ⟨number, _, none⟩ => some ⟨now, l.stats.latency number now, failed⟩
    | _ => none
  | _ => none

def samples (t : Tuning α) (l : Ledger α) : List Act → List Sample
  | [] => []
  | act :: rest => (l.sample? act).toList ++ samples t (l.step t act) rest

theorem averages_step (t : Tuning α) (l : Ledger α) (act : Act) :
    (l.step t act).stats.averages =
      (l.sample? act).toList.foldl (Averages.record t) l.stats.averages := by
  cases act with
  | start now => rfl
  | finish call now failed =>
    rw [step, sample?]
    rcases l.calls[call]? with _ | ⟨number, start, _ | last⟩ <;> rfl
  | load now => exact l.stats.averages_refresh now
  | weigh now => exact l.stats.averages_refresh now

theorem averages_run (t : Tuning α) (l : Ledger α) (acts : List Act) :
    (l.run t acts).stats.averages =
      (l.samples t acts).foldl (Averages.record t) l.stats.averages := by
  induction acts generalizing l with
  | nil => rfl
  | cons act acts ih =>
    rw [run, List.foldl_cons, ← run, ih, averages_step, samples, List.foldl_append]

end Ledger

end

noncomputable instance : Scalar ℝ where
  ofInt x := x
  toInt x := Word.clampSigned (if 0 ≤ x then ⌊x⌋ else ⌈x⌉)
  exp := Real.exp
  tiny := (2 ^ 1022)⁻¹

@[simp]
theorem ofInt_real (x : Int) : (Scalar.ofInt x : ℝ) = x := rfl

@[simp]
theorem decay_real (tau : ℝ) (elapsed : Int) : decay tau elapsed = Real.exp (-elapsed / tau) := rfl

@[simp]
theorem blend_real (w old new : ℝ) : blend w old new = old * w + new * (1 - w) := by
  rw [blend, ofInt_real, Int.cast_one]

theorem toInt_real {x : ℝ} (nonneg : 0 ≤ x) (word : x ≤ Word.maxSigned) :
    Scalar.toInt x = ⌊x⌋ := by
  have lower : 0 ≤ ⌊x⌋ := Int.floor_nonneg.2 nonneg
  have upper : ⌊x⌋ ≤ Word.maxSigned := by
    have := Int.floor_le_floor word
    rwa [Int.floor_intCast] at this
  have negative : Word.minSigned ≤ 0 := by decide
  show Word.clampSigned (if 0 ≤ x then ⌊x⌋ else ⌈x⌉) = ⌊x⌋
  rw [if_pos nonneg, Word.clampSigned_eq_self (negative.trans lower) upper]

theorem between_of_share {w : ℝ} (nonneg : 0 ≤ w) (le : w ≤ 1) (old new : ℝ) :
    min old new ≤ new + (old - new) * w ∧ new + (old - new) * w ≤ max old new := by
  rcases le_total old new with below | above
  · rw [min_eq_left below, max_eq_right below]
    constructor <;> nlinarith
  · rw [min_eq_right above, max_eq_left above]
    constructor <;> nlinarith

theorem share_le_one {tau elapsed : ℝ} (pos : 0 < tau) (nonneg : 0 ≤ elapsed) :
    Real.exp (-elapsed / tau) ≤ 1 := by
  rw [Real.exp_le_one_iff, neg_div, neg_nonpos]
  positivity

theorem decay_le_one {tau : ℝ} (pos : 0 < tau) (now stamp : Int) :
    Real.exp (-(Stamp.since now stamp : ℤ) / tau) ≤ 1 :=
  share_le_one pos (by exact_mod_cast Stamp.since_nonneg now stamp)

/-- A later sample is mixed with what is there, and the fraction of the result is dropped. -/
theorem Averages.lag_record {t : Tuning ℝ} (tau : 0 < t.tau) {a : Averages ℝ} (pos : 0 < a.lag)
    (word : a.lag ≤ Word.maxSigned) {x : Sample} (latency : 0 ≤ x.latency)
    (short : x.latency ≤ Word.maxSigned) :
    (a.record t x).lag =
      ⌊x.latency + (a.lag - x.latency) * Real.exp (-(Stamp.since x.now a.stamp : ℤ) / t.tau)⌋ := by
  have mixed : blend (a.keptShare t x.now) (Scalar.ofInt a.lag) (Scalar.ofInt x.latency) =
      x.latency + (a.lag - x.latency) * Real.exp (-(Stamp.since x.now a.stamp : ℤ) / t.tau) := by
    rw [keptShare, if_neg pos.ne', blend_real, decay_real, ofInt_real, ofInt_real]
    ring
  obtain ⟨least, most⟩ := between_of_share (Real.exp_nonneg _) (decay_le_one tau x.now a.stamp)
    a.lag x.latency
  rw [record, mixed, toInt_real]
  · exact (le_min (by exact_mod_cast pos.le) (by exact_mod_cast latency)).trans least
  · exact most.trans (max_le (by exact_mod_cast word) (by exact_mod_cast short))

noncomputable def stock : Tuning ℝ := .ofNanos defaultTau defaultPenalty none

theorem tau_stock : stock.tau = 600000000 := by
  rw [stock, Tuning.ofNanos, ofInt_real, defaultTau]
  norm_num

/-- The order of two stamps that do not lie further apart than the words reach. -/
def Follows (earlier later : Int) : Prop := earlier ≤ later ∧ later - earlier ≤ Word.maxSigned

theorem Follows.since_eq {earlier later : Int} (follows : Follows earlier later) :
    Stamp.since later earlier = later - earlier := by
  rw [Stamp.since_eq follows.2, max_eq_left (Int.sub_nonneg.2 follows.1)]

end NodeSelection.Ewma
