import NodeSelection.Proofs.Ewma.Load
import NodeSelection.Proofs.Ewma.Runs

/-! The averages stay within what has been observed. Arithmetic is exact here, and the factor by
which averages decay is chosen from outside, for every act anew. Whatever time has passed between
two calls and whatever is made of it, the average latency lies between the latencies told so far,
and the success between none and full. Dropping a fraction cannot leave that range: its ends are
whole. -/

namespace NodeSelection.Ewma

/-- Exact arithmetic in which every exponential is the same number. -/
@[reducible]
noncomputable def exactly (factor : ℝ) : Scalar ℝ :=
  { (inferInstance : Scalar ℝ) with exp := fun _ => factor }

structure Decaying where
  factor : ℝ
  act : Act

def Shares (xs : List Decaying) : Prop := ∀ x ∈ xs, 0 ≤ x.factor ∧ x.factor ≤ 1

def Act.latency? (s : Stats ℝ) : Act → Option Int
  | .finish number now _ => some (s.latency number now)
  | _ => none

theorem blend_between {w : ℝ} (share : 0 ≤ w ∧ w ≤ 1) {least most old new : ℝ}
    (before : least ≤ old ∧ old ≤ most) (sample : least ≤ new ∧ new ≤ most) :
    least ≤ blend w old new ∧ blend w old new ≤ most := by
  obtain ⟨above, below⟩ := between_of_share share.1 share.2 old new
  have mixed : blend w old new = new + (old - new) * w := by
    rw [blend_real]
    ring
  rw [mixed]
  exact ⟨(le_min before.1 sample.1).trans above, below.trans (max_le before.2 sample.2)⟩

theorem toInt_blend_between {w : ℝ} (share : 0 ≤ w ∧ w ≤ 1) {least most old new : Int}
    (nonneg : 0 ≤ least) (word : most ≤ Word.maxSigned) (before : least ≤ old ∧ old ≤ most)
    (sample : least ≤ new ∧ new ≤ most) :
    least ≤ Scalar.toInt (blend w (old : ℝ) new) ∧
      Scalar.toInt (blend w (old : ℝ) new) ≤ most := by
  have mixed : (least : ℝ) ≤ blend w (old : ℝ) new ∧ blend w (old : ℝ) new ≤ most :=
    blend_between share (by exact_mod_cast before) (by exact_mod_cast sample)
  have pos : (0 : ℝ) ≤ least := by exact_mod_cast nonneg
  have top : (most : ℝ) ≤ Word.maxSigned := by exact_mod_cast word
  rw [toInt_real (pos.trans mixed.1) (mixed.2.trans top)]
  exact ⟨Int.le_floor.2 mixed.1, by exact_mod_cast (Int.floor_le _).trans mixed.2⟩

namespace Stats
variable (t : Tuning ℝ)

noncomputable def decayBy (s : Stats ℝ) (x : Decaying) : Stats ℝ :=
  letI := exactly x.factor
  s.step t x.act

noncomputable def decayAll (s : Stats ℝ) (xs : List Decaying) : Stats ℝ := xs.foldl (decayBy t) s

noncomputable def latencies (s : Stats ℝ) : List Decaying → List Int
  | [] => []
  | x :: rest => (x.act.latency? s).toList ++ (s.decayBy t x).latencies rest

noncomputable def kept (s : Stats ℝ) (factor : ℝ) : ℝ := if s.lag = 0 then 0 else factor

theorem kept_between (s : Stats ℝ) {factor : ℝ} (share : 0 ≤ factor ∧ factor ≤ 1) :
    0 ≤ s.kept factor ∧ s.kept factor ≤ 1 := by
  rw [kept]
  split
  · exact ⟨le_rfl, zero_le_one⟩
  · exact share

theorem decayBy_finish (s : Stats ℝ) (factor : ℝ) (number : Nat) (now : Int) (failed : Bool) :
    s.decayBy t ⟨factor, .finish number now failed⟩ =
      (s.close number now).absorb (s.kept factor) (s.latency number now) failed := by
  have share : (if s.lag = 0 then ((0 : Int) : ℝ) else factor) = s.kept factor := by
    rw [kept, Int.cast_zero]
  rw [← share]
  rfl

theorem ends_or_stays (s : Stats ℝ) (x : Decaying) :
    (∃ factor number now failed, x = ⟨factor, .finish number now failed⟩) ∨
      (s.decayBy t x).averages = s.averages ∧ x.act.latency? s = none := by
  -- What holds in any arithmetic is used in that of this act.
  let arithmetic := exactly x.factor
  have stays : x.act.endTime? = none → (s.decayBy t x).averages = s.averages :=
    s.averages_step_of_no_end t
  obtain ⟨factor, act⟩ := x
  cases act with
  | finish number now failed => exact Or.inl ⟨factor, number, now, failed, rfl⟩
  | start now => exact Or.inr ⟨stays rfl, rfl⟩
  | load now => exact Or.inr ⟨stays rfl, rfl⟩
  | weigh now => exact Or.inr ⟨stays rfl, rfl⟩

variable {t}

theorem duration_latencies {s : Stats ℝ} {xs : List Decaying} :
    ∀ latency ∈ s.latencies t xs, Duration latency := by
  induction xs generalizing s with
  | nil => exact fun latency none => by cases none
  | cons x rest ih =>
    intro latency member
    rcases List.mem_append.1 member with now | later
    · rcases s.ends_or_stays t x with ⟨factor, number, time, failed, rfl⟩ | ⟨_, untold⟩
      · rw [List.mem_singleton.1 now]
        exact duration_since time _
      · rw [untold] at now
        cases now
    · exact ih latency later

section
variable {least most : Int} (nonneg : 0 ≤ least) (word : most ≤ Word.maxSigned)
include nonneg word

theorem lag_finish_between {s : Stats ℝ} (known : s.lag = 0 ∨ least ≤ s.lag ∧ s.lag ≤ most)
    {factor : ℝ} (share : 0 ≤ factor ∧ factor ≤ 1) {number : Nat} {now : Int} (failed : Bool)
    (sample : least ≤ s.latency number now ∧ s.latency number now ≤ most) :
    least ≤ (s.decayBy t ⟨factor, .finish number now failed⟩).lag ∧
      (s.decayBy t ⟨factor, .finish number now failed⟩).lag ≤ most := by
  have lag : (s.decayBy t ⟨factor, .finish number now failed⟩).lag =
      Scalar.toInt (blend (s.kept factor) (s.lag : ℝ) (s.latency number now)) := by
    rw [decayBy_finish]
    rfl
  rw [lag]
  rcases known with cold | known
  · have first : blend (s.kept factor) (s.lag : ℝ) (s.latency number now) =
        blend 0 (s.latency number now : ℝ) (s.latency number now) := by
      rw [kept, if_pos cold, blend_real, blend_real, mul_zero, mul_zero]
    rw [first]
    exact toInt_blend_between ⟨le_rfl, zero_le_one⟩ nonneg word sample sample
  · exact toInt_blend_between (s.kept_between share) nonneg word known sample

/-- Before the first sample there is nothing to stay in range, and from then on there is. -/
theorem lag_decayAll_between {s : Stats ℝ} {xs : List Decaying} (shares : Shares xs)
    (each : ∀ latency ∈ s.latencies t xs, least ≤ latency ∧ latency ≤ most)
    (known : (s.lag = 0 ∧ s.latencies t xs ≠ []) ∨ least ≤ s.lag ∧ s.lag ≤ most) :
    least ≤ (s.decayAll t xs).lag ∧ (s.decayAll t xs).lag ≤ most := by
  induction xs generalizing s with
  | nil => exact known.resolve_left fun cold => cold.2 rfl
  | cons x rest ih =>
    obtain ⟨share, others⟩ := List.forall_mem_cons.1 shares
    rw [latencies] at each known
    rcases s.ends_or_stays t x with ⟨factor, number, now, failed, rfl⟩ | ⟨averages, untold⟩
    · have after := fun latency later => each latency (List.mem_append_right _ later)
      refine ih others after (Or.inr ?_)
      exact lag_finish_between nonneg word (known.imp_left And.left) share failed
        (each _ List.mem_cons_self)
    · have lag : (s.decayBy t x).lag = s.lag := congrArg Averages.lag averages
      rw [untold] at each known
      refine ih others each ?_
      rwa [lag]

end

theorem success_finish_between {s : Stats ℝ} (range : 0 ≤ s.success ∧ s.success ≤ 1000)
    {factor : ℝ} (share : 0 ≤ factor ∧ factor ≤ 1) (number : Nat) (now : Int) (failed : Bool) :
    0 ≤ (s.decayBy t ⟨factor, .finish number now failed⟩).success ∧
      (s.decayBy t ⟨factor, .finish number now failed⟩).success ≤ 1000 := by
  have success : (s.decayBy t ⟨factor, .finish number now failed⟩).success =
      blend (s.kept factor) s.success (if failed then Scalar.ofInt 0 else fullSuccess) := by
    rw [decayBy_finish]
    rfl
  have target : (0 : ℝ) ≤ (if failed then Scalar.ofInt 0 else fullSuccess) ∧
      (if failed then Scalar.ofInt 0 else fullSuccess : ℝ) ≤ 1000 := by
    cases failed <;> norm_num [fullSuccess]
  rw [success]
  exact blend_between (s.kept_between share) range target

theorem success_decayAll_between {s : Stats ℝ} (range : 0 ≤ s.success ∧ s.success ≤ 1000)
    {xs : List Decaying} (shares : Shares xs) :
    0 ≤ (s.decayAll t xs).success ∧ (s.decayAll t xs).success ≤ 1000 := by
  induction xs generalizing s with
  | nil => exact range
  | cons x rest ih =>
    obtain ⟨share, others⟩ := List.forall_mem_cons.1 shares
    refine ih ?_ others
    rcases s.ends_or_stays t x with ⟨factor, number, now, failed, rfl⟩ | ⟨averages, _⟩
    · exact success_finish_between range share number now failed
    · have success : (s.decayBy t x).success = s.success := congrArg Averages.success averages
      rwa [success]

end Stats

/-- Once a call has ended the average latency lies between the least and the greatest latency that
was told. So where every call took some time the latency is never unknown again. -/
theorem averages_between (t : Tuning ℝ) {xs : List Decaying} (shares : Shares xs) :
    let s := Stats.fresh.decayAll t xs
    let latencies := Stats.fresh.latencies t xs
    (∀ shortest ∈ latencies.min?, ∀ longest ∈ latencies.max?,
        shortest ≤ s.lag ∧ s.lag ≤ longest) ∧
      (0 ≤ s.success ∧ s.success ≤ 1000) ∧
      (latencies ≠ [] → (∀ latency ∈ latencies, 1 ≤ latency) → s.lag ≠ 0 ∧
        ∀ now, (s.load t now).1 = Word.clampUnsigned
          (Word.wrapUnsigned (max s.lag (s.refresh now).predicted) * s.inflight.toNat)) := by
  intro s latencies
  have duration : ∀ latency ∈ latencies, Duration latency := Stats.duration_latencies
  refine ⟨fun shortest least longest most => ?_, ?_, fun told each => ?_⟩
  · obtain ⟨short, least⟩ := List.min?_eq_some_iff.1 least
    obtain ⟨long, most⟩ := List.max?_eq_some_iff.1 most
    exact Stats.lag_decayAll_between (duration _ short).nonneg (duration _ long).word shares
      (fun latency member => ⟨least latency member, most latency member⟩)
      (Or.inl ⟨rfl, List.ne_nil_of_mem short⟩)
  · refine Stats.success_decayAll_between ?_ shares
    norm_num [Stats.fresh, fullSuccess]
  · have known : 1 ≤ s.lag ∧ s.lag ≤ Word.maxSigned :=
      Stats.lag_decayAll_between (by decide) le_rfl shares
        (fun latency member => ⟨each latency member, (duration latency member).word⟩)
        (Or.inl ⟨rfl, told⟩)
    have warm : s.lag ≠ 0 := (Int.zero_lt_one.trans_le known.1).ne'
    refine ⟨warm, fun now => ?_⟩
    show (s.refresh now).currentLoad t = _
    rw [Stats.currentLoad, s.lag_refresh now, if_neg warm, s.inflight_refresh now]

/-- Calls that overlap, by a clock that is put back. The second one ends before the first. -/
theorem averages_between_overlapping :
    let xs : List Decaying := [⟨0, .start 5⟩, ⟨1, .start 7⟩, ⟨1, .finish 1 9 false⟩, ⟨0, .start 3⟩,
      ⟨1 / 2, .finish 0 8 true⟩, ⟨1 / 3, .finish 2 4 false⟩]
    let s := Stats.fresh.decayAll stock xs
    Shares xs ∧ Stats.fresh.latencies stock xs = [2, 3, 1] ∧
      1 ≤ s.lag ∧ s.lag ≤ 3 ∧ s.success ≤ 1000 := by
  intro xs s
  have shares : Shares xs := by
    simp only [Shares, xs, List.forall_mem_cons]
    norm_num
  have told : Stats.fresh.latencies stock xs = [2, 3, 1] := rfl
  obtain ⟨between, success, _⟩ := averages_between stock shares
  rw [told] at between
  obtain ⟨above, below⟩ := between 1 rfl 3 rfl
  exact ⟨shares, told, above, below, success.2⟩

end NodeSelection.Ewma
