import NodeSelection.Proofs.Session.Rotating
import NodeSelection.Proofs.Simulation.Moves
import NodeSelection.Simulation.Command

/-! Callers that share a rotation. Which of them selects, and when the calls end, makes no difference
to it: the addresses that it gives out are those of consecutive picks (`Rotation.order`). What a
caller has reported and has underway are some of them, and all callers together have them all, so
the picks in the merged report of any number of callers are those of one. -/

namespace NodeSelection

def Rotation.order (state : Rotation Float) (defaultWeight : Int) (nodes : List Node) (k : Nat) :
    List String :=
  (state.turns (doubles (nodes.map (Node.offer defaultWeight))) k).2.filterMap fun place =>
    (nodes[place]?).map Node.address

theorem Rotation.order_succ {state : Rotation Float} {defaultWeight : Int} {nodes : List Node}
    {k place : Nat} {node : Node}
    (picked : ((state.turns (doubles (nodes.map (Node.offer defaultWeight))) k).1.pick
      (doubles (nodes.map (Node.offer defaultWeight)))).2 = some place)
    (here : nodes[place]? = some node) :
    state.order defaultWeight nodes (k + 1) =
      state.order defaultWeight nodes k ++ [node.address] := by
  rw [order, turns, picked, List.filterMap_append, order]
  simp [here]

namespace Caller

/-- The calls of a caller that went to an address, the one underway among them. -/
def sent (address : String) (c : Caller) : Nat :=
  (c.report.tally address).picks +
    c.underway.toList.countP fun u => u.node.address = address

theorem sent_begun {c : Caller} (free : c.underway = none) (m : Move) (node : Node)
    (ticket : Ticket) (address : String) :
    (c.begun m node ticket).sent address = c.sent address + [node.address].count address := by
  simp only [sent, begun, free, Option.toList_none, Option.toList_some, List.countP_nil,
    List.countP_singleton, List.count_singleton, decide_eq_true_eq, beq_iff_eq, Nat.add_zero]

theorem sent_completed {c : Caller} {u : Underway} (busy : c.underway = some u) (failed : Bool)
    (address : String) : (c.completed u.node.address failed).sent address = c.sent address := by
  rw [sent, sent, completed, busy]
  dsimp only
  rw [Report.tally_count]
  by_cases same : u.node.address = address
  · rw [if_pos same.symm]
    simp [same, Tally.add, Tally.ofCall]
  · rw [if_neg (Ne.symm same)]
    simp [same]

theorem sent_of_idle {c : Caller} (idle : c.idle) (address : String) :
    c.sent address = (c.report.tally address).picks := by
  rw [Caller.idle, Bool.and_eq_true, Option.isNone_iff_eq_none] at idle
  rw [sent, idle.2]
  rfl

end Caller

namespace Simulation

/-- A simulation that shares a rotation among some nodes, from some state of it on, after so many
selections. A caller that is alone has the last of them underway, if any. -/
structure Shares (defaultWeight : Int) (state : Rotation Float) (nodes : List Node)
    (requests k : Nat) (s : Simulation) : Prop where
  rotates : s.selector.Rotates defaultWeight
    (state.turns (Rotation.doubles (nodes.map (Node.offer defaultWeight))) k).1
  listed : s.selector.pool.nodes = nodes
  begun : k + (s.callers.map Caller.remaining).sum = requests
  sent : ∀ address,
    (s.callers.map (Caller.sent address)).sum = (state.order defaultWeight nodes k).count address
  last : s.callers.length = 1 → ∀ c ∈ s.callers, ∀ u, c.underway = some u →
    ∃ j, k = j + 1 ∧ state.order defaultWeight nodes k =
      state.order defaultWeight nodes j ++ [u.node.address]

section
variable {defaultWeight : Int} {state : Rotation Float} {nodes : List Node} {requests k : Nat}
  {s t : Simulation}

theorem shares_start {selector : Selector} (rotates : selector.Rotates defaultWeight state)
    (requests concurrency : Nat) :
    (start selector requests concurrency).Shares defaultWeight state selector.pool.nodes requests
      0 where
  rotates := rotates
  listed := rfl
  begun := by rw [sum_quotas_start, Nat.zero_add]
  sent address := by
    rw [start, List.map_map]
    exact List.sum_eq_zero fun x member => by
      obtain ⟨i, _, rfl⟩ := List.mem_map.1 member
      rfl
  last _ c member u busy := by
    obtain ⟨i, _, rfl⟩ := List.mem_map.1 member
    cases busy

theorem Shares.makes {m : Move} (shares : s.Shares defaultWeight state nodes requests k)
    (makes : s.Makes m t) : ∃ j, t.Shares defaultWeight state nodes requests j := by
  have listed := makes.nodes.trans shares.listed
  cases makes with
  | rest => exact ⟨k, shares⟩
  | @begin c here free left node ticket result =>
    obtain ⟨after, picked, found⟩ := shares.rotates.select result
    rw [shares.listed] at after picked found
    have next := Rotation.order_succ picked found
    refine ⟨k + 1, after, listed, ?_, fun address => ?_, fun one d member u busy => ?_⟩
    · have sum := sum_map_set Caller.remaining here (c.begun m node ticket)
      have begun := shares.begun
      dsimp only [Caller.begun] at sum ⊢
      omega
    · have sum := sum_map_set (Caller.sent address) here (c.begun m node ticket)
      have sent := shares.sent address
      rw [Caller.sent_begun free] at sum
      rw [next, List.count_append]
      dsimp only
      omega
    · rw [List.length_set] at one
      cases mem_set_of_length_eq_one one here member
      cases busy
      exact ⟨k, rfl, next⟩
  | @complete c u here busy failed =>
    refine ⟨k, shares.rotates.complete .., listed, ?_, fun address => ?_,
      fun one d member v later => ?_⟩
    · rw [map_set_of_eq here]
      · exact shares.begun
      · rfl
    · rw [map_set_of_eq here (Caller.sent_completed busy failed address)]
      exact shares.sent address
    · rw [List.length_set] at one
      cases mem_set_of_length_eq_one one here member
      cases later

theorem Shares.follow {schedule : List Move}
    (shares : s.Shares defaultWeight state nodes requests k)
    (followed : s.follow schedule = .ok t) :
    ∃ j, t.Shares defaultWeight state nodes requests j := by
  have kept {u v : Simulation} {m : Move} (makes : u.Makes m v)
      (before : ∃ j, u.Shares defaultWeight state nodes requests j) :
      ∃ j, v.Shares defaultWeight state nodes requests j := by
    obtain ⟨j, before⟩ := before
    exact before.makes makes
  exact follow_induction kept followed ⟨k, shares⟩

theorem Shares.picks_of_finished (shares : t.Shares defaultWeight state nodes requests k)
    (finished : t.finished) (address : String) :
    (t.report.tally address).picks =
      (state.order defaultWeight nodes requests).count address := by
  have idle : ∀ c ∈ t.callers, c.idle := List.all_eq_true.1 finished
  have none : (t.callers.map Caller.remaining).sum = 0 := List.sum_eq_zero fun x member => by
    obtain ⟨c, among, rfl⟩ := List.mem_map.1 member
    have left := idle c among
    rw [Caller.idle, Bool.and_eq_true, beq_iff_eq] at left
    exact left.1
  have all : k = requests := by
    have begun := shares.begun
    omega
  rw [picks_tally_report, ← all, ← shares.sent address]
  exact congrArg List.sum
    (List.map_congr_left fun c member => (Caller.sent_of_idle (idle c member) address).symm)

theorem Shares.picks_of_alone (shares : t.Shares defaultWeight state nodes requests k)
    (calls : t.callers.map Caller.calls = [requests]) (address : String) :
    (t.report.tally address).picks =
      (state.order defaultWeight nodes t.report.picks).count address := by
  have one : t.callers.length = 1 := by
    rw [← List.length_map (f := Caller.calls), calls, List.length_singleton]
  obtain ⟨c, alone⟩ := List.length_eq_one_iff.1 one
  have begun := shares.begun
  have sent := shares.sent address
  have last := shares.last one c (alone ▸ List.mem_singleton_self c)
  rw [alone, List.map_singleton, List.cons.injEq] at calls
  rw [alone, List.map_singleton, List.sum_singleton] at begun sent
  rw [picks_tally_report, picks_report, alone, List.map_singleton, List.map_singleton,
    List.sum_singleton, List.sum_singleton]
  have made := calls.1
  cases busy : c.underway with
  | none =>
    rw [Caller.calls, busy] at made
    rw [Caller.sent, busy] at sent
    have reported : k = c.report.picks := by
      dsimp only [Option.toList_none, List.length_nil] at made
      omega
    rw [← reported]
    exact sent
  | some u =>
    obtain ⟨j, next, order⟩ := last u busy
    rw [Caller.calls, busy] at made
    rw [Caller.sent, busy, order, List.count_append] at sent
    have reported : j = c.report.picks := by
      dsimp only [Option.toList_some, List.length_singleton] at made
      omega
    rw [← reported]
    simp only [Option.toList_some, List.countP_singleton, List.count_singleton,
      decide_eq_true_eq, beq_iff_eq] at sent
    omega

/-- Callers that are done have sent as many calls to each address as one alone that has completed as
many in all. -/
theorem picks_eq_alone {selector : Selector} (rotates : selector.Rotates defaultWeight state)
    {concurrency more : Nat} {schedule others : List Move} {u : Simulation}
    (followed : (start selector requests concurrency).follow schedule = .ok t)
    (finished : t.finished) (alone : (start selector more 1).follow others = .ok u)
    (picks : u.report.picks = requests) (address : String) :
    (t.report.tally address).picks = (u.report.tally address).picks := by
  obtain ⟨j, shares⟩ := (shares_start rotates requests concurrency).follow followed
  obtain ⟨k, lone⟩ := (shares_start rotates more 1).follow alone
  have calls : u.callers.map Caller.calls = [more] := by
    rw [calls_follow alone, calls_start]
    simp [quota, Nat.mod_one]
  rw [shares.picks_of_finished finished, lone.picks_of_alone calls, picks]

end
end Simulation

namespace Command

theorem nodes_selector (c : Config) : (selector c).pool.nodes = c.buildNodes :=
  Pool.nodes_pool _ _

theorem rotates_selector {c : Config} (rotation : c.algorithm = .rotation) :
    (selector c).Rotates c.direct.defaultWeight .empty := by
  have fresh : (Blueprint.rotating c.direct.defaultWeight).build.Rotates c.direct.defaultWeight
      .empty := ⟨rfl, rfl, rfl, fun place o listed => by cases listed⟩
  rw [selector, Config.blueprint_rotation rotation]
  exact fresh.apply c.buildNodes

/-- The quotas share out the requests as evenly as can be. However the callers take turns, when all
are done each has reported its quota, the merged report has all requests and no address has failed
more often than it was picked. Under the rotation every address has as many picks as with a caller
that is alone and has completed as many calls, perhaps of more. And they get done as long as there
are nodes. -/
theorem calls_reported (c : Config) (requests concurrency : Nat) :
    let s := Simulation.start (selector c) requests concurrency
    let quotas := s.callers.map Caller.remaining
    quotas.length = max concurrency 1 ∧ quotas.sum = requests ∧
      (∀ x ∈ quotas, ∀ y ∈ quotas, x ≤ y + 1) ∧
      (∀ schedule t, s.follow schedule = .ok t → t.finished →
        (t.callers.map fun caller => caller.report.picks) = quotas ∧
        t.report.picks = requests ∧
        (∀ address, (t.report.tally address).failures ≤ (t.report.tally address).picks) ∧
        (c.algorithm = .rotation → ∀ more alone u,
          (Simulation.start (selector c) more 1).follow alone = .ok u →
          u.report.picks = requests →
          ∀ address, (t.report.tally address).picks = (u.report.tally address).picks)) ∧
      (c.nodes ≠ [] → ∀ chance, ∃ t schedule,
        s.run chance = .ok t ∧ s.follow schedule = .ok t ∧ t.finished) := by
  intro s quotas
  have shared : quotas = _ := Simulation.quotas_start (selector c) requests concurrency
  have sum : quotas.sum = requests := Simulation.sum_quotas_start (selector c) requests concurrency
  refine ⟨?_, sum, fun x among y others => ?_, fun schedule t followed finished => ?_,
    fun some chance => ?_⟩
  · rw [shared, List.length_map, List.length_range]
  · rw [shared] at among others
    obtain ⟨i, _, rfl⟩ := List.mem_map.1 among
    obtain ⟨j, _, rfl⟩ := List.mem_map.1 others
    exact quota_le_quota_add_one requests _ i j
  · have reported := Simulation.picks_of_finished followed finished
    refine ⟨reported, ?_, Simulation.sound_of_follow followed,
      fun rotation more alone u followed' picks address => ?_⟩
    · rw [Simulation.picks_report, reported, sum]
    · exact Simulation.picks_eq_alone (rotates_selector rotation) followed finished followed' picks
        address
  · refine Simulation.exists_run ?_ chance
    rw [show s.selector.pool.nodes = _ from nodes_selector c]
    exact mt List.map_eq_nil_iff.1 some

def three : Config :=
  { Config.standard with
    algorithm := .rotation
    nodes := ["a", "b", "c"].map fun address => ⟨"grpc", address, "", "", none, .empty⟩ }

def inOrder (callers : List Nat) : List Move := callers.map fun i => ⟨i, 0, default, 0.5⟩

/-- The second caller makes one of its two calls while the first one has one underway. The caller
that is alone has begun a fifth call. -/
theorem calls_reported_in_turns :
    ∃ t u,
      (Simulation.start (selector three) 4 2).follow (inOrder [0, 1, 1, 0, 0, 1, 0, 1]) = .ok t ∧
      (Simulation.start (selector three) 6 1).follow (inOrder (List.replicate 9 0)) = .ok u ∧
      t.report.picks = 4 ∧ (t.report.tally "a").failures ≤ (t.report.tally "a").picks ∧
      (t.report.tally "a").picks = (u.report.tally "a").picks := by
  obtain ⟨t, followed, finished⟩ : ∃ t, (Simulation.start (selector three) 4 2).follow
      (inOrder [0, 1, 1, 0, 0, 1, 0, 1]) = .ok t ∧ t.finished := ⟨_, rfl, rfl⟩
  obtain ⟨u, alone, stopped⟩ : ∃ u, (Simulation.start (selector three) 6 1).follow
      (inOrder (List.replicate 9 0)) = .ok u ∧ u.report.picks = 4 := ⟨_, rfl, rfl⟩
  obtain ⟨_, _, _, reported, _⟩ := calls_reported three 4 2
  obtain ⟨_, picks, sound, rotating⟩ := reported _ t followed finished
  exact ⟨t, u, followed, alone, picks, sound "a", rotating rfl 6 _ u alone stopped "a"⟩

end Command
end NodeSelection
