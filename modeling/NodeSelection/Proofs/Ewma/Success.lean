import NodeSelection.Proofs.Ewma.Runs

/-! How the average success follows calls that all end alike. Unlike the average latency it keeps
its fraction, so decay factors multiply up to the factor of the whole time: how many calls there
were and how they were spaced makes no difference. Time is what words can tell of it: none where
stamps run backwards, and the greatest word where two lie further apart than that. -/

namespace NodeSelection.Ewma

def passed : Int → List Int → Int
  | _, [] => 0
  | earlier, later :: rest => Stamp.since later earlier + passed later rest

theorem passed_of_follows {first : Int} {times : List Int}
    (ordered : (first :: times).IsChain Follows) :
    passed first times = times.getLastD first - first := by
  induction times generalizing first with
  | nil => rw [passed, List.getLastD_nil, Int.sub_self]
  | cons next rest ih =>
    rw [List.isChain_cons_cons] at ordered
    rw [passed, ordered.1.since_eq, ih ordered.2, List.getLastD_cons]
    omega

def aim (failed : Bool) : ℝ := if failed then 0 else 1000

namespace Stats

/-- No call ends in the course of some acts while the latency is unknown. -/
def Known (t : Tuning ℝ) (s : Stats ℝ) : List Act → Prop
  | [] => True
  | act :: rest => (act.endTime?.isSome = true → s.lag ≠ 0) ∧ (s.step t act).Known t rest

theorem success_finish (t : Tuning ℝ) {s : Stats ℝ} (known : s.lag ≠ 0) (number : Nat) (now : Int)
    (failed : Bool) :
    (s.finish t number now failed).1.success =
      aim failed +
        (s.success - aim failed) * Real.exp (-(Stamp.since now s.stamp : ℤ) / t.tau) := by
  have target : (if failed then Scalar.ofInt 0 else fullSuccess : ℝ) = aim failed := by
    cases failed <;> norm_num [fullSuccess, aim]
  have mixed : (s.finish t number now failed).1.success =
      blend (s.keptShare t now) s.success (aim failed) := by
    rw [← target]
    rfl
  rw [mixed, keptShare, if_neg known, decay_real, blend_real]
  ring

theorem success_run {t : Tuning ℝ} {s : Stats ℝ} {acts : List Act} {failed : Bool}
    (same : ∀ number now verdict, Act.finish number now verdict ∈ acts → verdict = failed)
    (known : s.Known t acts) :
    (s.run t acts).success = aim failed +
      (s.success - aim failed) * Real.exp (-(passed s.stamp (endTimes acts)) / t.tau) := by
  -- The factor of the whole time is that of the first end and that of the time from there on.
  induction acts generalizing s with
  | nil => simp [run, endTimes, passed]
  | cons act rest ih =>
    have later := ih (fun number now verdict member =>
      same number now verdict (List.mem_cons_of_mem _ member)) known.2
    rw [run_cons, later]
    cases running : act.endTime? with
    | none =>
      have averages := s.averages_step_of_no_end t running
      have success : (s.step t act).success = s.success := congrArg Averages.success averages
      have stamp : (s.step t act).stamp = s.stamp := congrArg Averages.stamp averages
      rw [success, stamp, endTimes, endTimes, List.filterMap_cons_none running]
    | some now =>
      obtain ⟨number, verdict, rfl⟩ := Act.endTime?_eq_some_iff.1 running
      cases same number now verdict List.mem_cons_self
      have success := success_finish t (known.1 rfl) number now failed
      have stamp : (s.step t (.finish number now failed)).stamp = now := rfl
      have factors :
          Real.exp (-(Stamp.since now s.stamp + passed now (endTimes rest) : ℤ) / t.tau) =
            Real.exp (-(Stamp.since now s.stamp : ℤ) / t.tau) *
              Real.exp (-(passed now (endTimes rest)) / t.tau) := by
        rw [← Real.exp_add, Int.cast_add]
        ring_nf
      rw [stamp, step, success, endTimes, endTimes, List.filterMap_cons_some running, passed,
        ← endTimes, factors]
      ring

end Stats

/-- Calls that all fail, or all succeed, move the success toward its aim by the time that passes.
Where their stamps go forward that is the time from the last stamp before them to their own last. -/
theorem success_settles {t : Tuning ℝ} {s : Stats ℝ} {acts : List Act} {failed : Bool}
    (same : ∀ number now verdict, Act.finish number now verdict ∈ acts → verdict = failed)
    (known : s.Known t acts) :
    let times := endTimes acts
    (s.run t acts).success = aim failed +
        (s.success - aim failed) * Real.exp (-(passed s.stamp times) / t.tau) ∧
      ((s.stamp :: times).IsChain Follows →
        (s.run t acts).success = aim failed +
          (s.success - aim failed) * Real.exp (-(times.getLastD s.stamp - s.stamp) / t.tau)) := by
  intro times
  have moved := Stats.success_run same known
  refine ⟨moved, fun ordered => ?_⟩
  rw [moved, passed_of_follows ordered, Int.cast_sub]

noncomputable def after (lag stamp : Int) : Stats ℝ := { Stats.fresh with lag, stamp }

theorem success_after (lag stamp : Int) : (after lag stamp).success = 1000 := by
  norm_num [after, Stats.fresh, fullSuccess]

/-- The first call ends at the last stamp, so that no time has passed and the latency stays. -/
theorem success_settles_twice_failed :
    let acts : List Act := [.finish 0 10 true, .start 12, .finish 1 20 true]
    (after 5 10).Known stock acts ∧
      ((after 5 10).run stock acts).success = 1000 * Real.exp (-(20 - 10) / 600000000) := by
  intro acts
  have lag : ((after 5 10).step stock (.finish 0 10 true)).lag = 5 := by
    have tau : (0 : ℝ) < stock.tau := by norm_num [tau_stock]
    have kept := Averages.lag_record tau (a := (after 5 10).averages) (by decide) (by decide)
      (x := ⟨10, 0, true⟩) (by decide) (by decide)
    have still : Stamp.since 10 (after 5 10).averages.stamp = 0 := rfl
    rw [still] at kept
    refine kept.trans ?_
    norm_num [after, Stats.averages]
  have second : (((after 5 10).step stock (.finish 0 10 true)).step stock (.start 12)).lag = 5 :=
    lag
  have known : (after 5 10).Known stock acts := by
    simp only [acts, Stats.Known]
    refine ⟨fun _ => by decide, ?_, fun _ => ?_, trivial⟩
    · intro ended
      cases ended
    · rw [second]
      decide
  have same : ∀ number now verdict, Act.finish number now verdict ∈ acts → verdict = true := by
    simp [acts]
  have ordered : ((after 5 10).stamp :: endTimes acts).IsChain Follows :=
    show [(10 : Int), 10, 20].IsChain fun earlier later =>
      earlier ≤ later ∧ later - earlier ≤ Word.maxSigned by decide
  have settled := (success_settles same known).2 ordered
  have first : (after 5 10).stamp = 10 := rfl
  have last : (endTimes acts).getLastD 10 = 20 := rfl
  refine ⟨known, settled.trans ?_⟩
  rw [success_after, first, last, tau_stock]
  norm_num [aim]

/-- Stamps so far apart that a word does not reach from one to the other. -/
theorem success_of_far_stamps :
    ¬ ∀ (t : Tuning ℝ) (s : Stats ℝ) (acts : List Act) (failed : Bool), 0 < t.tau →
      (∀ time ∈ s.stamp :: endTimes acts, Word.minSigned ≤ time ∧ time ≤ Word.maxSigned) →
      (s.stamp :: endTimes acts).IsChain (· ≤ ·) →
      (∀ number now verdict, Act.finish number now verdict ∈ acts → verdict = failed) →
      s.Known t acts →
        (s.run t acts).success = aim failed + (s.success - aim failed) *
          Real.exp (-((endTimes acts).getLastD s.stamp - s.stamp) / t.tau) := by
  intro settles
  have tau : (Tuning.ofNanos (2 ^ 63) 0 none : Tuning ℝ).tau = 2 ^ 63 := by
    rw [Tuning.ofNanos, ofInt_real]
    norm_num
  let acts : List Act := [.finish 0 Word.maxSigned true]
  have same : ∀ number now verdict, Act.finish number now verdict ∈ acts → verdict = true := by
    simp [acts]
  have known : (after 1 (Word.minSigned + 1)).Known (.ofNanos (2 ^ 63) 0 none) acts :=
    ⟨fun _ => by decide, trivial⟩
  have claimed := settles _ _ _ _ (by rw [tau]; norm_num) (by decide) (by decide) same known
  have first : (after 1 (Word.minSigned + 1)).stamp = Word.minSigned + 1 := rfl
  have last : (endTimes acts).getLastD (Word.minSigned + 1) = Word.maxSigned := rfl
  have reach : passed (Word.minSigned + 1) (endTimes acts) = Word.maxSigned := by decide
  rw [Stats.success_run same known, tau, success_after, first, last, reach] at claimed
  norm_num [aim, Word.maxSigned, Word.minSigned] at claimed

end NodeSelection.Ewma
