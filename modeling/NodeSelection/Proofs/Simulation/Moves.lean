import NodeSelection.Proofs.Session.Step
import NodeSelection.Proofs.Simulation.Tallies
import NodeSelection.Simulation.Timeline

/-! What the moves of a simulation can do (`makes_step`): begin a call of one caller or complete the
one that it has underway. So no caller ever has more or fewer calls to its account than its quota,
and the quotas share out the requests. Every move takes one from those that are left, so the run by
the clock goes on until all calls are completed. -/

namespace NodeSelection

theorem sum_quota_of_first (requests callers n : Nat) :
    ((List.range n).map (quota requests callers)).sum =
      n * (requests / callers) + min n (requests % callers) := by
  induction n with
  | zero => simp
  | succ n ih =>
    rw [List.range_succ, List.map_append, List.sum_append, ih, List.map_singleton,
      List.sum_singleton, quota, Nat.succ_mul]
    split <;> omega

theorem sum_quota (requests : Nat) {callers : Nat} (pos : 0 < callers) :
    ((List.range callers).map (quota requests callers)).sum = requests := by
  have rest : requests % callers < callers := Nat.mod_lt _ pos
  rw [sum_quota_of_first, Nat.min_eq_right (Nat.le_of_lt rest), Nat.div_add_mod]

theorem quota_le_quota_add_one (requests callers i j : Nat) :
    quota requests callers i ≤ quota requests callers j + 1 := by
  rw [quota, quota]
  split <;> omega

namespace Caller

def begun (c : Caller) (m : Move) (node : Node) (ticket : Ticket) : Caller :=
  { c with
    remaining := c.remaining - 1
    underway := some ⟨node, ticket⟩
    wake := m.time + (Profile.ofNode node).latencyMs * nanosPerMilli }

def completed (c : Caller) (address : String) (failed : Bool) : Caller :=
  { c with underway := none, report := c.report.count address failed }

def calls (c : Caller) : Nat := c.report.picks + c.underway.toList.length + c.remaining

theorem calls_begun {c : Caller} (free : c.underway = none) (left : c.remaining ≠ 0) (m : Move)
    (node : Node) (ticket : Ticket) : (c.begun m node ticket).calls = c.calls := by
  simp only [calls, begun, free, Option.toList_none, Option.toList_some, List.length_nil,
    List.length_singleton]
  omega

theorem calls_completed {c : Caller} {u : Underway} (busy : c.underway = some u)
    (address : String) (failed : Bool) : (c.completed address failed).calls = c.calls := by
  simp only [calls, completed, busy, Option.toList_none, Option.toList_some, List.length_nil,
    List.length_singleton, Report.picks_count]

theorem moves_begun {c : Caller} (free : c.underway = none) (left : c.remaining ≠ 0) (m : Move)
    (node : Node) (ticket : Ticket) : (c.begun m node ticket).moves + 1 = c.moves := by
  simp only [moves, begun, free, Option.isSome_some, Option.isSome_none, if_true,
    Bool.false_eq_true, if_false]
  omega

theorem moves_completed {c : Caller} {u : Underway} (busy : c.underway = some u)
    (address : String) (failed : Bool) : (c.completed address failed).moves + 1 = c.moves := by
  simp only [moves, completed, busy, Option.isSome_some, Option.isSome_none, if_true,
    Bool.false_eq_true, if_false]

theorem calls_of_idle {c : Caller} (idle : c.idle) : c.report.picks = c.calls := by
  rw [Caller.idle, Bool.and_eq_true, beq_iff_eq, Option.isNone_iff_eq_none] at idle
  rw [calls, idle.1, idle.2]
  rfl

end Caller

namespace Simulation
variable {s t : Simulation} {m : Move}

inductive Makes (s : Simulation) (m : Move) : Simulation → Prop
  | rest (idle : ∀ c, s.callers[m.caller]? = some c → c.idle) : Makes s m s
  | begin {c : Caller} (here : s.callers[m.caller]? = some c) (free : c.underway = none)
      (left : c.remaining ≠ 0) {node : Node} {ticket : Ticket}
      (result : (s.selector.select .withPeer m.now m.draw).result = .ok (node, ticket)) :
      Makes s m ⟨(s.selector.select .withPeer m.now m.draw).selector,
        s.callers.set m.caller (c.begun m node ticket)⟩
  | complete {c : Caller} {u : Underway} (here : s.callers[m.caller]? = some c)
      (busy : c.underway = some u) (failed : Bool) :
      Makes s m ⟨(s.selector.complete u.ticket m.now (outcome u.node failed) .empty).selector,
        s.callers.set m.caller (c.completed u.node.address failed)⟩

theorem makes_step (moved : s.step m = .ok t) : s.Makes m t := by
  rw [step] at moved
  cases here : s.callers[m.caller]? with
  | none =>
    rw [here] at moved
    cases moved
    exact .rest fun c found => by cases here.symm.trans found
  | some c =>
    rw [here] at moved
    dsimp only at moved
    cases busy : c.underway with
    | some u =>
      rw [busy] at moved
      cases moved
      exact .complete here busy _
    | none =>
      rw [busy] at moved
      dsimp only at moved
      split at moved
      · rename_i none
        cases moved
        refine .rest fun d found => ?_
        cases here.symm.trans found
        rw [Caller.idle, none, busy]
        rfl
      · rename_i left
        rw [Simulation.begin] at moved
        dsimp only at moved
        split at moved
        · cases moved
        · rename_i node ticket result
          cases moved
          exact .begin here busy left result

/-- A move is refused only for want of nodes. -/
theorem exists_step (some : s.selector.pool.nodes ≠ []) (m : Move) : ∃ t, s.step m = .ok t := by
  rw [step]
  split
  · exact ⟨s, rfl⟩
  · rename_i c _
    split
    · exact ⟨_, rfl⟩
    · split
      · exact ⟨s, rfl⟩
      · obtain ⟨after, node, place, number, events, selected, _⟩ :=
          Selector.exists_serves some .withPeer m.now m.draw
        rw [Simulation.begin, selected]
        exact ⟨_, rfl⟩

theorem Makes.calls (makes : s.Makes m t) :
    t.callers.map Caller.calls = s.callers.map Caller.calls := by
  cases makes with
  | rest => rfl
  | begin here free left result => exact map_set_of_eq here (Caller.calls_begun free left ..)
  | complete here busy failed => exact map_set_of_eq here (Caller.calls_completed busy ..)

theorem Makes.sound (makes : s.Makes m t) (sound : ∀ c ∈ s.callers, c.report.Sound) :
    ∀ c ∈ t.callers, c.report.Sound := by
  cases makes with
  | rest => exact sound
  | @begin c here free left node ticket result =>
    intro d member
    rcases List.mem_or_eq_of_mem_set member with before | rfl
    · exact sound d before
    · exact sound c (List.mem_of_getElem? here)
  | @complete c u here busy failed =>
    intro d member
    rcases List.mem_or_eq_of_mem_set member with before | rfl
    · exact sound d before
    · exact (sound c (List.mem_of_getElem? here)).count u.node.address failed

theorem moves_eq (s : Simulation) : s.moves = (s.callers.map Caller.moves).sum := by
  rw [moves, List.sum_eq_foldr, List.foldr_map]

theorem Makes.moves (makes : s.Makes m t) {c : Caller} (here : s.callers[m.caller]? = some c)
    (active : ¬ c.idle) : t.moves + 1 = s.moves := by
  rw [moves_eq, moves_eq]
  cases makes with
  | rest idle => exact absurd (idle c here) active
  | @begin _ found free left node ticket result =>
    cases found.symm.trans here
    have one := Caller.moves_begun free left m node ticket
    have sum := sum_map_set Caller.moves here (c.begun m node ticket)
    dsimp only
    omega
  | @complete _ u found busy failed =>
    cases found.symm.trans here
    have one := Caller.moves_completed busy u.node.address failed
    have sum := sum_map_set Caller.moves here (c.completed u.node.address failed)
    dsimp only
    omega

theorem Makes.nodes (makes : s.Makes m t) : t.selector.pool.nodes = s.selector.pool.nodes := by
  cases makes with
  | rest => rfl
  | begin here free left result => exact (s.selector.moves_select ..).nodes
  | complete here busy failed => exact (s.selector.moves_complete ..).nodes

theorem follow_induction {holds : Simulation → Prop}
    (kept : ∀ {s t : Simulation} {m : Move}, s.Makes m t → holds s → holds t)
    {schedule : List Move} (followed : s.follow schedule = .ok t) (first : holds s) : holds t := by
  induction schedule generalizing s with
  | nil =>
    cases followed
    exact first
  | cons m rest ih =>
    rw [follow] at followed
    cases moved : s.step m with
    | error e =>
      rw [moved] at followed
      cases followed
    | ok u =>
      rw [moved] at followed
      exact ih followed (kept (makes_step moved) first)

theorem calls_follow {schedule : List Move} (followed : s.follow schedule = .ok t) :
    t.callers.map Caller.calls = s.callers.map Caller.calls :=
  follow_induction (fun makes same => makes.calls.trans same) followed rfl

theorem calls_start (selector : Selector) (requests concurrency : Nat) :
    (start selector requests concurrency).callers.map Caller.calls =
      (List.range (max concurrency 1)).map (quota requests (max concurrency 1)) := by
  rw [start, List.map_map]
  refine List.map_congr_left fun i _ => ?_
  rw [Function.comp_apply, Caller.ofQuota, Caller.calls]
  exact Nat.zero_add _

theorem quotas_start (selector : Selector) (requests concurrency : Nat) :
    (start selector requests concurrency).callers.map Caller.remaining =
      (List.range (max concurrency 1)).map (quota requests (max concurrency 1)) :=
  List.map_map

theorem sum_quotas_start (selector : Selector) (requests concurrency : Nat) :
    ((start selector requests concurrency).callers.map Caller.remaining).sum = requests := by
  rw [quotas_start]
  exact sum_quota requests (Nat.lt_of_lt_of_le Nat.one_pos (Nat.le_max_right concurrency 1))

theorem picks_report (s : Simulation) :
    s.report.picks = (s.callers.map fun c => c.report.picks).sum := by
  rw [report, Report.picks_mergeAll, List.map_map]
  rfl

theorem picks_tally_report (s : Simulation) (address : String) :
    (s.report.tally address).picks =
      (s.callers.map fun c => (c.report.tally address).picks).sum := by
  rw [report, Report.picks_tally_mergeAll, List.map_map]
  rfl

theorem sound_report (sound : ∀ c ∈ s.callers, c.report.Sound) : s.report.Sound := by
  refine Report.sound_mergeAll fun r member => ?_
  obtain ⟨c, among, rfl⟩ := List.mem_map.1 member
  exact sound c among

section
variable {selector : Selector} {requests concurrency : Nat} {schedule : List Move}
  (followed : (start selector requests concurrency).follow schedule = .ok t)
include followed

theorem picks_of_finished (finished : t.finished) :
    (t.callers.map fun c => c.report.picks) =
      (start selector requests concurrency).callers.map Caller.remaining := by
  have idle : (t.callers.map fun c => c.report.picks) = t.callers.map Caller.calls :=
    List.map_congr_left fun c member => Caller.calls_of_idle (List.all_eq_true.1 finished c member)
  rw [idle, calls_follow followed, calls_start, quotas_start]

theorem sound_of_follow : t.report.Sound := by
  have silent : ∀ c ∈ (start selector requests concurrency).callers, c.report.Sound := by
    intro c member
    obtain ⟨i, _, rfl⟩ := List.mem_map.1 member
    exact Report.sound_empty
  exact sound_report (follow_induction (fun makes => makes.sound) followed silent)

end

theorem finished_iff : s.finished ↔ s.moves = 0 := by
  rw [moves_eq, List.sum_eq_zero_iff_forall_eq_nat, finished, List.all_eq_true]
  simp only [List.forall_mem_map, Caller.idle_iff]

theorem earliestFrom_eq_none {best : Option (Nat × Nat)} {index : Nat} {l : List Caller}
    (none : earliestFrom best index l = none) : best = .none ∧ ∀ c ∈ l, c.idle := by
  induction l generalizing best index with
  | nil => exact ⟨none, List.forall_mem_nil _⟩
  | cons c rest ih =>
    obtain ⟨unled, others⟩ := ih none
    cases best with
    | some b =>
      dsimp only at unled
      split at unled <;> cases unled
    | none =>
      cases idle : c.idle with
      | true => exact ⟨rfl, List.forall_mem_cons.2 ⟨idle, others⟩⟩
      | false =>
        rw [idle] at unled
        cases unled

theorem earliestFrom_eq_some {best : Option (Nat × Nat)} {index : Nat} {l : List Caller}
    {e : Nat × Nat} (led : earliestFrom best index l = some e) :
    best = some e ∨ ∃ j c, l[j]? = some c ∧ ¬ c.idle ∧ e.1 = index + j := by
  induction l generalizing best index with
  | nil => exact Or.inl led
  | cons c rest ih =>
    have lead (ahead : Bool)
        (first : (if !c.idle && ahead then some (index, c.wake) else best) = some e) :
        best = some e ∨ ¬ c.idle ∧ e.1 = index := by
      split at first
      · rename_i better
        rw [Bool.and_eq_true, Bool.not_eq_true'] at better
        cases first
        exact Or.inr ⟨Bool.eq_false_iff.1 better.1, rfl⟩
      · exact Or.inl first
    rcases ih led with first | ⟨j, d, there, active, place⟩
    · rcases lead _ first with before | ⟨active, place⟩
      · exact Or.inl before
      · exact Or.inr ⟨0, c, rfl, active, place⟩
    · exact Or.inr ⟨j + 1, d, there, active, by omega⟩

theorem finished_of_advance {n : Nat} {chance : Chance} (advanced : advance n s chance = .ok t)
    (enough : s.moves ≤ n) : t.finished := by
  induction n generalizing s chance with
  | zero =>
    rw [advance] at advanced
    cases advanced
    exact finished_iff.2 (Nat.le_zero.1 enough)
  | succ n ih =>
    rw [advance] at advanced
    cases next : s.nextMove? chance with
    | none =>
      rw [next] at advanced
      cases advanced
      exact List.all_eq_true.2 (earliestFrom_eq_none (Option.map_eq_none_iff.1 next)).2
    | some chosen =>
      obtain ⟨m, after⟩ := chosen
      rw [next] at advanced
      dsimp only at advanced
      cases moved : s.step m with
      | error e =>
        rw [moved] at advanced
        cases advanced
      | ok u =>
        rw [moved] at advanced
        obtain ⟨e, led, same⟩ := Option.map_eq_some_iff.1 next
        obtain ⟨j, c, there, active, place⟩ :=
          (earliestFrom_eq_some led).resolve_left fun none => by cases none
        have mover : m.caller = j := by
          rw [Prod.mk.injEq] at same
          rw [← same.1, ← Nat.zero_add j, ← place]
        have one := (makes_step moved).moves (mover ▸ there) active
        exact ih advanced (by omega)

theorem exists_advance (some : s.selector.pool.nodes ≠ []) (n : Nat) (chance : Chance) :
    ∃ t, advance n s chance = .ok t := by
  induction n generalizing s chance with
  | zero => exact ⟨s, rfl⟩
  | succ n ih =>
    rw [advance]
    split
    · exact ⟨s, rfl⟩
    · rename_i m after _
      obtain ⟨u, moved⟩ := exists_step some m
      rw [moved]
      exact ih ((makes_step moved).nodes ▸ some) after

/-- As long as there are nodes the run by the clock completes all calls, and it follows some
schedule. -/
theorem exists_run (some : s.selector.pool.nodes ≠ []) (chance : Chance) :
    ∃ t schedule, s.run chance = .ok t ∧ s.follow schedule = .ok t ∧ t.finished := by
  obtain ⟨t, advanced⟩ := exists_advance some s.moves chance
  obtain ⟨schedule, followed⟩ := exists_follow_of_advance advanced
  exact ⟨t, schedule, advanced, followed, finished_of_advance advanced (Nat.le_refl _)⟩

end Simulation
end NodeSelection
