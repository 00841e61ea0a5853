import NodeSelection.Proofs.Binary64.Sign
import NodeSelection.Proofs.Ewma.Averages

/-! The load of a node after any run, on doubles. Of the exponential nothing is known but that it
gives shares, and then no average latency is negative. So a node is without load only when its
count of calls is not positive, which takes as many open calls as overflow a signed word. -/

namespace NodeSelection.Ewma

structure Duration (x : Int) : Prop where
  nonneg : 0 ≤ x
  word : x ≤ Word.maxSigned

theorem duration_since (now start : Int) : Duration (Stamp.since now start) :=
  ⟨Stamp.since_nonneg now start, max_le (Word.clampSigned_le_maxSigned _) (by decide)⟩

theorem duration_blend {w : Float} (share : 0 ≤ w ∧ w ≤ 1) {old new : Int}
    (before : Duration old) (sample : Duration new) :
    Duration (Scalar.toInt (blend w (Scalar.ofInt old) (Scalar.ofInt new))) := by
  have above {x : Int} (duration : Duration x) : ¬ Binary64.ofInt x < 0 :=
    Binary64.ofInt_not_lt_zero duration.nonneg (duration.word.trans (by decide))
  refine ⟨Binary64.toInt_nonneg (Binary64.add_not_lt_zero ?_ ?_), Binary64.toInt_le_maxSigned _⟩
  · exact Binary64.mul_not_lt_zero (above before) (Binary64.not_lt_zero_of_le share.1)
  · exact Binary64.mul_not_lt_zero (above sample) (Binary64.one_sub_not_lt_zero share.2)

namespace Averages

def shares {α : Type} [Add α] [Sub α] [Mul α] [Div α] [Neg α] [Scalar α] (t : Tuning α)
    (a : Averages α) : List Sample → List α
  | [] => []
  | x :: xs => a.keptShare t x.now :: (a.record t x).shares t xs

theorem duration_foldl {t : Tuning Float} {a : Averages Float} (lag : Duration a.lag)
    {xs : List Sample} (latencies : ∀ x ∈ xs, Duration x.latency)
    (shares : ∀ w ∈ a.shares t xs, 0 ≤ w ∧ w ≤ 1) : Duration (xs.foldl (record t) a).lag := by
  induction xs generalizing a with
  | nil => exact lag
  | cons x xs ih =>
    obtain ⟨first, later⟩ := List.forall_mem_cons.1 latencies
    obtain ⟨share, others⟩ := List.forall_mem_cons.1 shares
    exact ih (duration_blend share lag first) later others

end Averages

namespace Ledger

theorem duration_of_sample? {α : Type} {l : Ledger α} {act : Act} {x : Sample}
    (sampled : l.sample? act = some x) : Duration x.latency := by
  cases act with
  | finish call now failed =>
    rw [sample?] at sampled
    split at sampled
    · cases sampled
      exact duration_since now _
    · cases sampled
  | start now => cases sampled
  | load now => cases sampled
  | weigh now => cases sampled

section
variable {α : Type} [Add α] [Sub α] [Mul α] [Div α] [Neg α] [Scalar α]

/-- The shares that the averages keep in the course of a run, one for every call that ends. -/
def shares (t : Tuning α) (l : Ledger α) (acts : List Act) : List α :=
  l.stats.averages.shares t (l.samples t acts)

theorem duration_samples (t : Tuning α) (l : Ledger α) (acts : List Act) :
    ∀ x ∈ l.samples t acts, Duration x.latency := by
  induction acts generalizing l with
  | nil => exact fun x none => by cases none
  | cons act acts ih =>
    intro x member
    rcases List.mem_append.1 member with now | later
    · exact duration_of_sample? (Option.mem_toList.1 now)
    · exact ih _ x later

theorem samples_starts (t : Tuning α) (l : Ledger α) (now : Int) (n : Nat) :
    l.samples t (List.replicate n (.start now)) = [] := by
  induction n generalizing l with
  | zero => rfl
  | succ n ih => exact ih (l.step t (.start now))

end

theorem duration_lag {t : Tuning Float} {acts : List Act}
    (shares : ∀ w ∈ fresh.shares t acts, 0 ≤ w ∧ w ≤ 1) :
    Duration (fresh.run t acts).stats.lag := by
  have averages := congrArg Averages.lag (fresh.averages_run t acts)
  have none : Duration (fresh : Ledger Float).stats.averages.lag := ⟨le_rfl, by decide⟩
  have lag := Averages.duration_foldl none (fresh.duration_samples t acts) shares
  rwa [← averages] at lag

end Ledger

theorem clampedSum_le (ages : List Int) : clampedSum ages ≤ Word.maxSigned := by
  rcases List.eq_nil_or_concat ages with rfl | ⟨first, last, rfl⟩
  · decide
  · rw [clampedSum, List.concat_eq_append, List.foldl_append]
    exact Word.clampSigned_le_maxSigned _

theorem predictedLag_le (now lag : Int) (starts : List Int) :
    predictedLag now lag starts ≤ Word.maxSigned := by
  simp only [predictedLag]
  split
  · rename_i several
    exact (Int.tdiv_le_tdiv (by omega) (clampedSum_le _)).trans (Int.tdiv_le_self _ (by decide))
  · decide

theorem Stats.predicted_refresh_le {α : Type} {s : Stats α}
    (word : s.predicted ≤ Word.maxSigned) (now : Int) :
    (s.refresh now).predicted ≤ Word.maxSigned := by
  rw [refresh]
  split
  · exact predictedLag_le now s.lag s.openCalls.starts
  · exact word

namespace Ledger
variable {α : Type} [Add α] [Sub α] [Mul α] [Div α] [Neg α] [Scalar α]

theorem predicted_step_le {t : Tuning α} {l : Ledger α}
    (word : l.stats.predicted ≤ Word.maxSigned) (act : Act) :
    (l.step t act).stats.predicted ≤ Word.maxSigned := by
  cases act with
  | start now => exact word
  | finish call now failed =>
    rw [step]
    split
    · exact word
    · exact word
  | load now => exact Stats.predicted_refresh_le word now
  | weigh now => exact Stats.predicted_refresh_le word now

theorem predicted_run_le {t : Tuning α} {l : Ledger α}
    (word : l.stats.predicted ≤ Word.maxSigned) (acts : List Act) :
    (l.run t acts).stats.predicted ≤ Word.maxSigned := by
  induction acts generalizing l with
  | nil => exact word
  | cons act acts ih => exact ih (predicted_step_le word act)

end Ledger

namespace Stats
variable {α : Type}

theorem lag_refresh (s : Stats α) (now : Int) : (s.refresh now).lag = s.lag :=
  congrArg Averages.lag (s.averages_refresh now)

variable {s : Stats α} (t : Tuning α)

theorem clampUnsigned_le_currentLoad (known : 0 < s.lag) (word : s.lag ≤ Word.maxSigned)
    (foreseen : s.predicted ≤ Word.maxSigned) :
    Word.clampUnsigned (s.inflight.toNat * s.lag.toNat) ≤ s.currentLoad t := by
  have whole : Word.wrapUnsigned (max s.lag s.predicted) = (max s.lag s.predicted).toNat := by
    simp only [Word.wrapUnsigned, Word.count, Word.maxSigned] at *
    omega
  have least : s.lag.toNat ≤ (max s.lag s.predicted).toNat := Int.toNat_le_toNat (le_max_left _ _)
  rw [currentLoad, if_neg known.ne', whole, mul_comm]
  exact min_le_min_right _ (Nat.mul_le_mul_right _ least)

theorem currentLoad_eq_zero (none : s.inflight ≤ 0) : s.currentLoad t = 0 := by
  rw [currentLoad, Int.toNat_eq_zero.2 none, mul_zero, mul_zero, ite_self]
  rfl

theorem one_le_currentLoad_iff {t : Tuning α} (penalty : 1 ≤ t.penalty) (lag : Duration s.lag)
    (foreseen : s.predicted ≤ Word.maxSigned) : 1 ≤ s.currentLoad t ↔ 0 < s.inflight := by
  refine ⟨fun loaded => not_le.1 fun none => ?_, fun several => ?_⟩
  · rw [currentLoad_eq_zero t none] at loaded
    cases loaded
  have count : 1 ≤ s.inflight.toNat := by omega
  have least {x : Nat} (pos : 1 ≤ x) : 1 ≤ Word.clampUnsigned x := le_min pos (by decide)
  rcases eq_or_lt_of_le lag.nonneg with none | known
  · rw [currentLoad, if_pos none.symm]
    exact least (Nat.mul_pos penalty count)
  · refine le_trans ?_ (clampUnsigned_le_currentLoad t known lag.word foreseen)
    exact least (Nat.mul_pos count (by omega))

end Stats

/-- After any run the average latency is not negative, and there is load whenever the count of calls
is positive, which it is as long as it has not overflowed. The load is the count times the latency
or more where one is known, and the count times the penalty where none is. -/
theorem run_loads {t : Tuning Float} (penalty : 1 ≤ t.penalty) {acts : List Act}
    (shares : ∀ w ∈ Ledger.fresh.shares t acts, 0 ≤ w ∧ w ≤ 1) (now : Int) :
    let l := Ledger.fresh.run t acts
    let s := l.stats
    let load := (s.load t now).1
    0 ≤ s.lag ∧
      s.inflight = Word.wrapSigned (1 + (unended l.calls).length) ∧
      ((unended l.calls).length + 1 < 2 ^ 63 → s.inflight = 1 + (unended l.calls).length) ∧
      (1 ≤ load ↔ 0 < s.inflight) ∧
      (0 < s.inflight →
        (s.weight t now).1 = s.success * Scalar.ofInt 1000000000 / Scalar.ofInt load) ∧
      (0 < s.lag → Word.clampUnsigned (s.inflight.toNat * s.lag.toNat) ≤ load) ∧
      (s.lag = 0 → load = Word.clampUnsigned (s.inflight.toNat * t.penalty)) := by
  intro l s load
  have lag : Duration s.lag := Ledger.duration_lag shares
  have counted : Counted l := counted_fresh.run t acts
  have foreseen : (s.refresh now).predicted ≤ Word.maxSigned :=
    Stats.predicted_refresh_le (Ledger.predicted_run_le (by decide) acts) now
  -- What a load is made of is the same before and after a scan, but for the prediction.
  have lagged := s.lag_refresh now
  have inflight := s.inflight_refresh now
  have loaded : 1 ≤ load ↔ 0 < s.inflight := by
    rw [← inflight]
    exact Stats.one_le_currentLoad_iff penalty (lagged.symm ▸ lag) foreseen
  refine ⟨lag.nonneg, counted, counted.inflight_eq, loaded, fun several => ?_, fun known => ?_,
    fun none => ?_⟩
  · have some : load ≠ 0 := Nat.one_le_iff_ne_zero.1 (loaded.2 several)
    show s.weightOf load = _
    rw [Stats.weightOf, if_neg some]
  · rw [← inflight, ← lagged]
    exact Stats.clampUnsigned_le_currentLoad t (lagged.symm ▸ known) (lagged.symm ▸ lag.word)
      foreseen
  · show (s.refresh now).currentLoad t = _
    rw [Stats.currentLoad, if_pos (lagged.trans none), inflight, mul_comm]

/-- The first call takes no time, which leaves the latency unknown. -/
theorem run_loads_two_ended :
    let t : Tuning Float := .ofNanos defaultTau defaultPenalty none
    let acts : List Act := [.start 5, .load 6, .start 7, .finish 0 5 false, .start 8,
      .finish 1 9 true, .weigh 10]
    let s := (Ledger.fresh.run t acts).stats
    s.lag = 2 ∧ s.inflight = 2 ∧ 4 ≤ (s.load t 11).1 := by
  intro t acts s
  have shares : ∀ w ∈ Ledger.fresh.shares t acts, 0 ≤ w ∧ w ≤ 1 := by decide
  have lag : s.lag = 2 := by decide
  obtain ⟨_, _, exact, _, _, known, _⟩ := run_loads (by decide) shares 11
  have inflight : s.inflight = 2 := exact (by decide)
  have least : Word.clampUnsigned (s.inflight.toNat * s.lag.toNat) ≤ (s.load t 11).1 :=
    known (lag ▸ by decide)
  rw [inflight, lag] at least
  exact ⟨lag, inflight, least⟩

/-- Half of all words in open calls are too many for the count, which is negative then. -/
theorem load_vanishes :
    ¬ ∀ (t : Tuning Float) (acts : List Act) (now : Int), 1 ≤ t.penalty → 0 < t.tau →
      (∀ w ∈ Ledger.fresh.shares t acts, 0 ≤ w ∧ w ≤ 1) →
        1 ≤ ((Ledger.fresh.run t acts).stats.load t now).1 := by
  intro loaded
  obtain ⟨n, half⟩ : ∃ n : Nat, n = 2 ^ 63 - 1 := ⟨_, rfl⟩
  obtain ⟨t, stock⟩ : ∃ t : Tuning Float, t = .ofNanos defaultTau defaultPenalty none := ⟨_, rfl⟩
  have penalty : 1 ≤ t.penalty := by rw [stock]; decide
  have tau : 0 < t.tau := by rw [stock]; decide
  have none : Ledger.fresh.shares t (List.replicate n (.start 1)) = [] := by
    rw [Ledger.shares, Ledger.samples_starts]
    rfl
  have counted := counted_fresh.run t (List.replicate n (.start 1))
  rw [Counted, length_unended_starts] at counted
  have load := loaded t _ 1 penalty tau (by rw [none]; exact List.forall_mem_nil _)
  rw [Stats.load, Stats.currentLoad_eq_zero] at load
  · cases load
  · rw [Stats.inflight_refresh, counted, half]
    decide

end NodeSelection.Ewma
