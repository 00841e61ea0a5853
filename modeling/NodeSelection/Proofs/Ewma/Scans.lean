import NodeSelection.Proofs.Ewma.Runs

/-! How often the open calls are scanned. A prediction is renewed only by a query, and only when
more than the scan interval has passed since the last renewal, by the latency that is known at that
moment. Every renewal moves the time of the last one forward, whatever the order of the queries, so
those that fall into a stretch of time are no more than shortest intervals fit into it, and one. -/

namespace NodeSelection.Ewma

/-- Words do not hide whether an interval has passed: the longest one is short beside them. -/
theorem scanInterval_lt_age_iff {lag now scanned : Int} :
    scanInterval lag < Stamp.age now scanned ↔ scanned + scanInterval lag < now := by
  have shortest := minScanInterval_le_scanInterval lag
  have longest := scanInterval_le_maxScanInterval lag
  simp only [minScanInterval, maxScanInterval] at shortest longest
  simp only [Stamp.age, Word.clampSigned, Word.minSigned, Word.maxSigned]
  omega

theorem length_mul_le_of_apart {gap last first : Int} {times : List Int}
    (apart : (first :: times).IsChain fun earlier later => earlier + gap < later)
    (bound : ∀ time ∈ first :: times, time ≤ last) : first + times.length * gap ≤ last := by
  induction times generalizing first with
  | nil => simpa using bound
  | cons next rest ih =>
    rw [List.isChain_cons_cons] at apart
    have below := ih apart.2 (List.forall_mem_cons.1 bound).2
    have split : ((next :: rest).length : Int) * gap = rest.length * gap + gap := by
      rw [List.length_cons, Nat.cast_succ, Int.add_mul, Int.one_mul]
    omega

theorem countP_le_of_apart {gap : Int} (pos : 0 < gap) {times : List Int}
    (apart : times.Pairwise fun earlier later => earlier + gap < later) {first last : Int}
    (ordered : first ≤ last) :
    (times.countP fun time => first ≤ time ∧ time ≤ last : Int) ≤ 1 + (last - first) / gap := by
  rw [List.countP_eq_length_filter]
  have inside : ∀ time ∈ times.filter fun time => first ≤ time ∧ time ≤ last,
      first ≤ time ∧ time ≤ last := fun time member => by
    simpa using (List.mem_filter.1 member).2
  have chain := (apart.filter fun time => first ≤ time ∧ time ≤ last).isChain
  generalize times.filter (fun time => first ≤ time ∧ time ≤ last) = within at inside chain ⊢
  cases within with
  | nil =>
    have room : 0 ≤ (last - first) / gap := Int.ediv_nonneg (by omega) pos.le
    rw [List.length_nil]
    omega
  | cons time rest =>
    have fits := length_mul_le_of_apart chain fun other member => (inside other member).2
    have start := (inside time List.mem_cons_self).1
    have many : (rest.length : Int) ≤ (last - first) / gap :=
      (Int.le_ediv_iff_mul_le pos).2 (by omega)
    rw [List.length_cons]
    omega

namespace Stats
variable {α : Type}

def prediction (s : Stats α) : Int × Int := (s.predictedAt, s.predicted)

theorem refresh_of_due {s : Stats α} {now : Int} (due : s.predictedAt + scanInterval s.lag < now) :
    (s.refresh now).predictedAt = now := by
  rw [refresh, scanDue, if_pos (decide_eq_true (scanInterval_lt_age_iff.2 due))]

theorem refresh_of_not_due {s : Stats α} {now : Int}
    (recent : ¬ s.predictedAt + scanInterval s.lag < now) : s.refresh now = s := by
  rw [refresh, scanDue, decide_eq_false (mt scanInterval_lt_age_iff.1 recent)]
  rfl

variable [Add α] [Sub α] [Mul α] [Div α] [Neg α] [Scalar α] (t : Tuning α)

theorem prediction_step (s : Stats α) (act : Act) :
    (s.step t act).prediction = s.prediction ∨
      ∃ now, act.queryTime? = some now ∧ (s.step t act).predictedAt = now ∧
        s.predictedAt + scanInterval s.lag < now := by
  cases query : act.queryTime? with
  | some now =>
    rw [s.step_of_query t query]
    by_cases due : s.predictedAt + scanInterval s.lag < now
    · exact Or.inr ⟨now, rfl, refresh_of_due due, due⟩
    · rw [refresh_of_not_due due]
      exact Or.inl rfl
  | none =>
    cases act with
    | start now => exact Or.inl rfl
    | finish number now failed => exact Or.inl rfl
    | load now => cases query
    | weigh now => cases query

theorem predictedAt_le_step (s : Stats α) (act : Act) :
    s.predictedAt ≤ (s.step t act).predictedAt := by
  rcases s.prediction_step t act with same | ⟨now, _, renewed, later⟩
  · exact (congrArg Prod.fst same).ge
  · have shortest := minScanInterval_le_scanInterval s.lag
    rw [minScanInterval] at shortest
    omega

theorem predictedAt_le_run (s : Stats α) (acts : List Act) :
    s.predictedAt ≤ (s.run t acts).predictedAt := by
  induction acts generalizing s with
  | nil => exact le_rfl
  | cons act rest ih => exact (s.predictedAt_le_step t act).trans (ih _)

/-- The times of the queries that left another prediction, in order. -/
def scans (s : Stats α) : List Act → List Int
  | [] => []
  | act :: rest =>
    (if (s.step t act).prediction = s.prediction then none else act.queryTime?).toList ++
      (s.step t act).scans rest

theorem scans_apart (s : Stats α) (acts : List Act) :
    (s.predictedAt :: s.scans t acts).Pairwise fun earlier later =>
      earlier + minScanInterval < later := by
  induction acts generalizing s with
  | nil => exact List.pairwise_singleton _ _
  | cons act rest ih =>
    have others := ih (s.step t act)
    rw [scans]
    by_cases same : (s.step t act).prediction = s.prediction
    · have last : (s.step t act).predictedAt = s.predictedAt := congrArg Prod.fst same
      rw [if_pos same, Option.toList_none, List.nil_append, ← last]
      exact others
    · obtain ⟨now, query, renewed, later⟩ := (s.prediction_step t act).resolve_left same
      rw [if_neg same, query, Option.toList_some, List.singleton_append]
      rw [renewed] at others
      have shortest := minScanInterval_le_scanInterval s.lag
      refine List.pairwise_cons.2 ⟨fun time member => ?_, others⟩
      rcases List.mem_cons.1 member with rfl | member
      · omega
      · have apart := (List.pairwise_cons.1 others).1 time member
        rw [minScanInterval] at shortest apart ⊢
        omega

end Stats

/-- What the acts of a run do to the prediction. The interval is a fifth of the latency, but not
less than 5 ms and not more than 200 ms, and of the scans within any stretch of time no two are
closer than the shortest one. -/
theorem scans_limited {α : Type} [Add α] [Sub α] [Mul α] [Div α] [Neg α] [Scalar α] (t : Tuning α)
    (s : Stats α) (acts : List Act) :
    (∀ before act after, acts = before ++ act :: after →
      let b := s.run t before
      let c := s.run t (before ++ [act])
      let interval := max 5000000 (min (b.lag.tdiv 5) 200000000)
      (c.prediction = b.prediction ∨
        ∃ now, (act = .load now ∨ act = .weigh now) ∧ c.predictedAt = now ∧
          b.predictedAt + interval < now) ∧
        ∀ now, (act = .load now ∨ act = .weigh now) → b.predictedAt + interval < now →
          c.predictedAt = now) ∧
      (∀ before after, acts = before ++ after →
        (s.run t before).predictedAt ≤ (s.run t acts).predictedAt) ∧
      ∀ first last, first ≤ last →
        ((s.scans t acts).countP fun time => first ≤ time ∧ time ≤ last : Int) ≤
          1 + (last - first) / 5000000 := by
  refine ⟨fun before act after split => ?_, fun before after split => ?_,
    fun first last ordered => ?_⟩
  · intro b c interval
    have step : c = b.step t act := s.run_append t before [act]
    rw [step]
    refine ⟨(b.prediction_step t act).imp_right ?_, fun now query due => ?_⟩
    · rintro ⟨now, query, renewed, later⟩
      exact ⟨now, Act.queryTime?_eq_some_iff.1 query, renewed, later⟩
    · rw [b.step_of_query t (Act.queryTime?_eq_some_iff.2 query)]
      exact Stats.refresh_of_due due
  · rw [split, s.run_append]
    exact Stats.predictedAt_le_run t _ after
  · have apart := (List.pairwise_cons.1 (s.scans_apart t acts)).2
    exact countP_le_of_apart (by decide) apart ordered

/-- The shortest interval has to be exceeded, by whatever asks. -/
example : (Stats.fresh : Stats Float).scans (.ofNanos defaultTau defaultPenalty none)
    [.load 5000000, .load 5000001, .start 7, .weigh 10000001, .weigh 10000002, .load 6] =
      [5000001, 10000002] := by decide

end NodeSelection.Ewma
