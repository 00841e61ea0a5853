import Mathlib
import NodeSelection.Bench
import NodeSelection.Proofs.Balancer.Registration
import NodeSelection.Proofs.Lists

/-! How long the candidates of a bench have been idle. Only a pick moves the stamp of a candidate's
last pick, and no clock value has the stamp that means "never". So an idle time is the longest
there is exactly before the first pick; after it, it is the time passed since the last one, none
where the clock was put back, and no clock value takes it out of the range of the words. -/

namespace NodeSelection

theorem Clock.stamp_sub_stamp_mem (c d : Clock) :
    Word.minSigned ≤ c.stamp - d.stamp ∧ c.stamp - d.stamp ≤ Word.maxSigned := by
  have first := c.stamp_pos
  have second := d.stamp_pos
  have far := c.stamp_le_maxSigned
  have behind := d.stamp_le_maxSigned
  simp only [Word.minSigned, Word.maxSigned] at far behind ⊢
  omega

namespace Idle

/-- An idle time as a duration. What was never used has been idle for the longest one. -/
def duration : Idle → Nat
  | never => longest
  | nanos count => count

theorem exceeds_eq (limit : Nat) (idle : Idle) :
    idle.exceeds limit = decide (limit < idle.duration) := by
  cases idle <;> rfl

theorem duration_since (c d : Clock) :
    ((since c.stamp d.stamp).duration : Int) = max (c.stamp - d.stamp) 0 := by
  rw [since, if_neg d.stamp_pos.ne', duration, Int.toNat_of_nonneg (Stamp.since_nonneg _ _),
    Stamp.since_eq (c.stamp_sub_stamp_mem d).2]

end Idle

theorem Pool.lastPick_pick_of_inside {p : Pool} {place : Nat} (inside : place < p.size)
    (picked : Nat) (now : Int) :
    (p.pick picked now).1.lastPick place = if place = picked then now else p.lastPick place := by
  by_cases within : picked < p.size
  · exact lastPick_pick within now place
  · have other : place ≠ picked := by omega
    rw [if_neg other, lastPick, get?_pick_of_ne p (Ne.symm other), lastPick]

theorem Pool.lastPick_pool (wrapping : Wrapping) (nodes : List Node) (place : Nat) :
    (wrapping.pool nodes).lastPick place = 0 := by
  rw [lastPick, get?, Wrapping.pool, List.getElem?_map]
  cases nodes[place]? with
  | none => rfl
  | some node => exact wrapping.lastPick_wrap node

theorem Balancer.lastPick_of_pick {b : Balancer} {p : Pool} {places : List Nat} {now : Int}
    {draw : Draw} {r : Pick} (picked : b.pick p places now draw = .ok r) :
    r.pool.size = p.size ∧ ∀ place < p.size,
      r.pool.lastPick place = if place = r.place then now else p.lastPick place := by
  obtain ⟨c, choice, rfl⟩ := exists_choose_of_pick picked
  have chosen := chosen_of_choose choice
  refine ⟨(Pool.size_pick _ _ _).trans chosen.size, fun place inside => ?_⟩
  rw [register]
  dsimp only
  rw [Pool.lastPick_pick_of_inside (chosen.size.symm ▸ inside), chosen.lastPick]

namespace Bench

def after (b : Bench) (steps : List Step) : Bench :=
  steps.foldl (fun b step => (b.step step).bench) b

theorem after_cons (b : Bench) (step : Step) (steps : List Step) :
    b.after (step :: steps) = (b.step step).bench.after steps := rfl

def Turn.picked? (place : Nat) (t : Turn) : Option Clock :=
  match t.answer with
  | .picked chosen _ => if place = chosen then some t.bench.clock else none
  | _ => none

def picks (b : Bench) (place : Nat) (steps : List Step) : List Clock :=
  (b.run steps).filterMap (Turn.picked? place)

theorem lastPick_step (b : Bench) (step : Step) :
    (b.step step).bench.pool.size = b.pool.size ∧ ∀ place < b.pool.size,
      (b.step step).bench.pool.lastPick place =
        (((b.step step).picked? place).map Clock.stamp).getD (b.pool.lastPick place) := by
  cases step with
  | pick places draw =>
    rw [Bench.step, pickStep]
    cases picked : b.balancer.pick b.pool places b.now draw with
    | error e => exact ⟨rfl, fun place inside => rfl⟩
    | ok r =>
      obtain ⟨size, lastPick⟩ := Balancer.lastPick_of_pick picked
      refine ⟨size, fun place inside => ?_⟩
      dsimp only [Turn.picked?]
      rw [lastPick place inside]
      split <;> rfl
  | pickPlace chosen =>
    refine ⟨Pool.size_pick _ _ _, fun place inside => ?_⟩
    have shown : (b.step (.pickPlace chosen)).picked? place =
        if place = chosen then some b.clock else none := rfl
    refine (Pool.lastPick_pick_of_inside inside chosen b.now).trans ?_
    rw [shown]
    split <;> rfl
  | done call outcome =>
    rw [Bench.step, doneStep]
    cases b.calls.get? call with
    | none => exact ⟨rfl, fun place inside => rfl⟩
    | some handle =>
      exact ⟨Pool.size_complete _ _ _ _ _ _, fun place inside => Pool.lastPick_complete ..⟩
  | weigh asked =>
    exact ⟨Pool.size_weigh _ _ _, fun place inside => Pool.lastPick_weigh _ _ _ _⟩
  | setForcing value => exact ⟨rfl, fun place inside => rfl⟩
  | setClock value => exact ⟨rfl, fun place inside => rfl⟩
  | advanceClock offset => exact ⟨rfl, fun place inside => rfl⟩
  | setMetering value => exact ⟨rfl, fun place inside => rfl⟩

theorem picks_cons (b : Bench) (place : Nat) (step : Step) (steps : List Step) :
    b.picks place (step :: steps) =
      ((b.step step).picked? place).toList ++ (b.step step).bench.picks place steps := by
  rw [picks, run]
  exact filterMap_cons_toList _ _ _

theorem lastPick_after {b : Bench} {place : Nat} (inside : place < b.pool.size)
    (steps : List Step) :
    (b.after steps).pool.lastPick place =
      ((b.picks place steps).getLast?.map Clock.stamp).getD (b.pool.lastPick place) := by
  induction steps generalizing b with
  | nil => rfl
  | cons step steps ih =>
    obtain ⟨size, lastPick⟩ := b.lastPick_step step
    rw [after_cons, ih (size.symm ▸ inside), lastPick place inside, picks_cons, List.getLast?_append]
    cases ((b.step step).bench.picks place steps).getLast? with
    | none => cases (b.step step).picked? place <;> rfl
    | some last => rfl

/-- Whatever picks, ends of calls, questions and clock values a candidate has seen, its idle time
tells whether it was ever picked and, from then on, how long ago that was; limits are compared with
that duration. -/
theorem idle_after (balancer : Balancer) (wrapping : Wrapping) {nodes : List Node} {place : Nat}
    (inside : place < nodes.length) (steps : List Step) :
    let laidOut := layOut balancer wrapping nodes
    let b := laidOut.after steps
    let idle := b.pool.idle place b.now
    (idle.duration = Idle.longest ↔ laidOut.picks place steps = []) ∧
      (∀ last, (laidOut.picks place steps).getLast? = some last →
        (idle.duration : Int) = max (b.clock.stamp - last.stamp) 0 ∧
        Word.minSigned ≤ b.clock.stamp - last.stamp ∧
        b.clock.stamp - last.stamp ≤ Word.maxSigned) ∧
      ∀ limit, idle.exceeds limit = decide (limit < idle.duration) := by
  intro laidOut b idle
  have lastPick : b.pool.lastPick place =
      ((laidOut.picks place steps).getLast?.map Clock.stamp).getD 0 := by
    have size : place < laidOut.pool.size := inside.trans_eq (wrapping.size_pool nodes).symm
    rw [lastPick_after size, show laidOut.pool = wrapping.pool nodes from rfl, Pool.lastPick_pool]
  have since : idle = Idle.since b.clock.stamp (b.pool.lastPick place) := b.pool.idle_eq place b.now
  rw [← and_assoc]
  refine ⟨?_, fun limit => idle.exceeds_eq limit⟩
  rw [since, lastPick]
  cases found : (laidOut.picks place steps).getLast? with
  | none =>
    rw [List.getLast?_eq_none_iff] at found
    exact ⟨iff_of_true rfl found, fun last some => nomatch some⟩
  | some last =>
    have passed := Idle.duration_since b.clock last
    have word := b.clock.stamp_sub_stamp_mem last
    refine ⟨iff_of_false (fun never => ?_) fun none => ?_, fun other some => ?_⟩
    · have whole : ((Idle.since b.clock.stamp last.stamp).duration : Int) = Idle.longest :=
        congrArg Nat.cast never
      simp only [Idle.longest, Word.maxSigned] at whole word
      omega
    · rw [none] at found
      cases found
    · cases some
      exact ⟨passed, word⟩

/-- One of two candidates is picked at a time past all words, its call ends, it is weighed, and the
clock is put back before its start: it has not been idle at all, and the other one for ever. -/
theorem idle_after_clock_put_back :
    let nodes := [Node.bare "grpc" "a", Node.bare "grpc" "b"]
    let steps : List Step := [.setClock 18446744073709551616, .pick [0, 1] ⟨(0, 1), 1⟩,
      .done 0 (.failed .canceled), .weigh 1, .setClock (-7)]
    let laidOut := layOut .uniform (.adaptive (.ofNanos 600000000 10000000000 none)) nodes
    let b := laidOut.after steps
    0 < nodes.length ∧ 1 < nodes.length ∧ laidOut.picks 1 steps = [⟨18446744073709551616⟩] ∧
      (b.pool.idle 0 b.now).duration = Idle.longest ∧ (b.pool.idle 1 b.now).duration = 0 := by
  intro nodes steps laidOut b
  have here : 0 < nodes.length := by decide
  have there : 1 < nodes.length := by decide
  have none : laidOut.picks 0 steps = [] := rfl
  have one : laidOut.picks 1 steps = [⟨18446744073709551616⟩] := rfl
  refine ⟨here, there, one, (idle_after _ _ here steps).1.2 none, ?_⟩
  have passed := ((idle_after _ _ there steps).2.1 _ (congrArg List.getLast? one)).1
  exact Int.ofNat_inj.1 passed

end Bench
end NodeSelection
