import Mathlib.Data.List.Basic
import NodeSelection.Proofs.Session.Latency

/-! What the steps of a session record (`metrics_step`): the length of a node set that is applied, a
refusal, a node returned and whether it was taken against its weight, and the latency of a call that
has ended on an adaptive candidate. Each has a name of its own. -/

namespace NodeSelection

namespace Pool

def drawn (p : Pool) (index : Nat) : Nat := if index < p.size then index else 0

theorem exists_places {p : Pool} (some : 0 < p.size) :
    ∃ rest, p.places = 0 :: rest ∧ rest.isEmpty = decide (p.size = 1) ∧
      ∀ index, Balancer.atOr 0 rest index = p.drawn index := by
  obtain ⟨n, size⟩ := Nat.exists_eq_add_of_lt some
  rw [Nat.zero_add] at size
  refine ⟨(List.range n).map Nat.succ, ?_, ?_, fun index => ?_⟩
  · rw [places, size, List.range_succ_eq_map]
  · rw [size]
    cases n <;> simp
  · rw [Balancer.atOr, ← List.range_succ_eq_map, drawn, size]
    split
    · rename_i inside
      rw [List.getElem?_range inside, Option.getD_some]
    · rename_i outside
      rw [List.getElem?_eq_none (by simpa using outside), Option.getD_none]

end Pool

namespace Metric

def candidates (a : Algorithm) (nodes : List Node) : Metric :=
  ⟨"selector_candidates", [("balancer", a.name)], .gauge (Binary64.ofNat nodes.length)⟩

def noneAvailable (a : Algorithm) : Metric :=
  ⟨"selector_no_available_total", [("balancer", a.name)], .counter 1⟩

def picked (a : Algorithm) (node : Node) : Metric :=
  ⟨"selector_picks_total", [("balancer", a.name), ("address", node.address)], .counter 1⟩

def forced : Metric := ⟨"selector_force_picks_total", [], .counter 1⟩

def duration (address : String) (latency : Int) : Metric :=
  ⟨"selector_call_duration_seconds", [("address", address)],
    .histogram (secondsOfNanos latency.toNat)⟩

inductive Known (a : Algorithm) : Metric → Prop
  | candidates (nodes : List Node) : Known a (candidates a nodes)
  | noneAvailable : Known a (noneAvailable a)
  | picked (node : Node) : Known a (picked a node)
  | forced : Known a forced
  | duration (address : String) (latency : Int) : Known a (duration address latency)

end Metric

namespace Balancer

/-- Whether a pick among all candidates takes the loser of the two that are drawn. -/
def overrules (b : Balancer) (p : Pool) (draw : Draw) (now : Int) : Bool :=
  match b with
  | twoChoices forceAfter forcing =>
    1 < p.size ∧ Overdue forceAfter forcing p (p.drawn draw.pair.1) (p.drawn draw.pair.2) now
  | _ => false

theorem choose_of_two {forceAfter : Nat} {forcing : Bool} {p : Pool} (several : 1 < p.size)
    (draw : Draw) (now : Int) :
    (twoChoices forceAfter forcing).choose p p.places now draw =
      some (chooseOfTwo forceAfter forcing p (p.drawn draw.pair.1) (p.drawn draw.pair.2) now) := by
  obtain ⟨rest, places, single, drawn⟩ := Pool.exists_places (Nat.lt_trans Nat.one_pos several)
  have more : rest.isEmpty = false := by
    rw [single]
    exact decide_eq_false (Nat.ne_of_gt several)
  rw [places, choose, more, drawn, drawn]
  rfl

theorem metrics_choose {b : Balancer} {p : Pool} {draw : Draw} {now : Int} {c : Choice}
    (chosen : b.choose p p.places now draw = some c) :
    c.events.filterMap Event.metric? = if b.overrules p draw now then [Metric.forced] else [] := by
  have some : 0 < p.size := by
    refine Nat.pos_of_ne_zero fun none => ?_
    rw [Pool.places, none] at chosen
    cases chosen
  obtain ⟨rest, places, single, _⟩ := Pool.exists_places some
  cases b with
  | twoChoices forceAfter forcing =>
    by_cases several : 1 < p.size
    · rw [choose_of_two several, Option.some.injEq] at chosen
      rw [← chosen, chooseOfTwo_eq]
      simp only [overrules, several, true_and, decide_eq_true_eq]
      split <;> rfl
    · -- Nobody has to be weighed for a single candidate.
      have calm : (twoChoices forceAfter forcing).overrules p draw now = false :=
        decide_eq_false fun both => several both.1
      have one : rest.isEmpty = true := by
        rw [single]
        exact decide_eq_true (by omega)
      rw [places, choose, if_pos one, Option.some.injEq] at chosen
      rw [calm, ← chosen]
      rfl
  | rotation state =>
    rw [places, choose, Option.some.injEq] at chosen
    rw [← chosen]
    rfl
  | uniform =>
    rw [places, choose, Option.some.injEq] at chosen
    rw [← chosen]
    rfl

theorem algorithm_choose {b : Balancer} {p : Pool} {places : List Nat} {draw : Draw} {now : Int}
    {c : Choice} (chosen : b.choose p places now draw = some c) :
    c.balancer.algorithm = b.algorithm := by
  cases places with
  | nil => cases chosen
  | cons first rest =>
    cases b with
    | twoChoices forceAfter forcing =>
      rw [choose] at chosen
      split at chosen
      · cases chosen
        rfl
      · cases chosen
        rw [chooseOfTwo_eq]
    | rotation state =>
      cases chosen
      rfl
    | uniform =>
      cases chosen
      rfl

end Balancer

namespace Selector

/-- A selection that succeeds, by the choice that it rests on. -/
theorem exists_choice {s : Selector} {context : CallContext} {now : Int} {draw : Draw} {node : Node}
    {ticket : Ticket} (result : (s.select context now draw).result = .ok (node, ticket)) :
    ∃ c, s.balancer.choose s.pool s.pool.places now draw = some c ∧
      s.pool.nodes[c.place]? = some node ∧
      (s.select context now draw).selector.balancer = c.balancer ∧
      (s.select context now draw).events =
        c.events ++ [.selected s.algorithm node.address s.pool.size] := by
  rw [select, Balancer.pick] at result ⊢
  cases chosen : s.balancer.choose s.pool s.pool.places now draw with
  | none =>
    rw [chosen] at result
    cases result
  | some c =>
    rw [chosen] at result
    dsimp only at result ⊢
    have place := List.mem_range.1 (Balancer.chosen_of_choose chosen).place
    have picked := (Balancer.asked_of_choose chosen).pick place
    cases there : (Balancer.register c now).pool.get? (Balancer.register c now).place with
    | none =>
      rw [there] at result
      cases result
    | some d =>
      rw [there] at result
      cases result
      have own : s.pool.nodes[c.place]? = some d.node := by
        rw [← picked.nodes, Pool.nodes_getElem?]
        exact congrArg (Option.map Candidate.node) there
      have size : (Balancer.register c now).pool.size = s.pool.size := picked.size
      exact ⟨c, rfl, own, rfl, by rw [size]; rfl⟩

def overrules (s : Selector) (draw : Draw) (now : Int) : Bool := s.balancer.overrules s.pool draw now

theorem metrics_select {s : Selector} {context : CallContext} {now : Int} {draw : Draw}
    {node : Node} {ticket : Ticket}
    (result : (s.select context now draw).result = .ok (node, ticket)) :
    (s.select context now draw).events.filterMap Event.metric? =
      (if s.overrules draw now then [Metric.forced] else []) ++ [Metric.picked s.algorithm node] := by
  obtain ⟨c, chosen, _, _, events⟩ := exists_choice result
  rw [events, List.filterMap_append, Balancer.metrics_choose chosen]
  rfl

theorem node_of_two {s : Selector} {forceAfter : Nat} {forcing : Bool}
    (two : s.balancer = .twoChoices forceAfter forcing) (several : 1 < s.pool.size)
    {context : CallContext} {now : Int} {draw : Draw} {node : Node} {ticket : Ticket}
    (result : (s.select context now draw).result = .ok (node, ticket)) :
    let first := s.pool.drawn draw.pair.1
    let second := s.pool.drawn draw.pair.2
    s.pool.nodes[if s.overrules draw now then s.pool.lighter first second now
      else s.pool.heavier first second now]? = some node := by
  intro first second
  obtain ⟨c, chosen, own, _⟩ := exists_choice result
  rw [two, Balancer.choose_of_two several, Option.some.injEq] at chosen
  rw [← own, ← chosen, Balancer.chooseOfTwo_eq, overrules, two]
  simp only [Balancer.overrules, several, true_and, decide_eq_true_eq]
  rfl

theorem overrules_of_nodes_eq_nil {s : Selector} (none : s.pool.nodes = []) (draw : Draw)
    (now : Int) : s.overrules draw now = false := by
  have size : s.pool.size = 0 := by rw [Pool.size, ← List.length_map, ← Pool.nodes, none]; rfl
  rw [overrules]
  cases s.balancer with
  | twoChoices forceAfter forcing => exact decide_eq_false fun both => by omega
  | rotation state => rfl
  | uniform => rfl

theorem algorithm_select (s : Selector) (context : CallContext) (now : Int) (draw : Draw) :
    (s.select context now draw).selector.algorithm = s.algorithm := by
  cases result : (s.select context now draw).result with
  | error e => rw [(select_of_error result).2]
  | ok served =>
    obtain ⟨c, chosen, _, balancer, _⟩ := exists_choice result
    rw [algorithm, balancer, Balancer.algorithm_choose chosen, algorithm]

theorem algorithm_complete (s : Selector) (ticket : Ticket) (now : Int) (outcome : Outcome)
    (journal : Journal) :
    (s.complete ticket now outcome journal).selector.algorithm = s.algorithm := by
  rw [complete]
  split
  · rfl
  · dsimp only
    rw [setGenerationPool]
    split <;> rfl

end Selector

namespace Session

theorem Advances.algorithm {s : Session} {on : Nat} {p q : Selector} {step : Step}
    {shown : Option Served} (advances : Advances s on p step shown q) : q.algorithm = p.algorithm := by
  cases advances with
  | rest => rfl
  | apply nodes => rfl
  | complete call ticket outcome => exact p.algorithm_complete ticket s.now outcome s.journal
  | weights => rfl
  | select context draw => exact p.algorithm_select context s.now draw

def Balances (a : Algorithm) (s : Session) : Prop :=
  ∀ ⦃on p⦄, s.selector? on = some p → p.algorithm = a

theorem balances_ofBlueprint (b : Blueprint) (count : Nat) :
    (ofBlueprint b count).Balances b.algorithm := by
  intro on p here
  rw [List.eq_of_mem_replicate (List.mem_of_getElem? here)]
  rfl

theorem Balances.step {a : Algorithm} {s : Session} (balances : s.Balances a) (step : Step) :
    (s.step step).session.Balances a := by
  intro on q there
  obtain ⟨p, _, here, advances, _⟩ := exists_advances there
  exact advances.algorithm.trans (balances here)

theorem Balances.after {a : Algorithm} {s : Session} (balances : s.Balances a) (steps : List Step) :
    (s.after steps).Balances a := by
  induction steps generalizing s with
  | nil => exact balances
  | cons step steps ih => exact ih (balances.step step)

def refuses (s : Session) (step : Step) : Bool :=
  match (s.step step).answer with
  | .refused _ _ => true
  | _ => false

def overrules (s : Session) : Step → Bool
  | .select on _ draw => (s.selector? on).any fun p => p.overrules draw s.now
  | _ => false

def installed? (s : Session) : Step → Option (List Node)
  | .apply on nodes => (s.selector? on).map fun _ => nodes
  | _ => none

section
variable {s : Session} {on : Nat} {p : Selector} (here : s.selector? on = some p)
include here

theorem events_select (context : CallContext) (draw : Draw) :
    (s.step (.select on context draw)).events = (p.select context s.now draw).events := by
  rw [step, selectStep, here]
  dsimp only
  split <;> rfl

theorem answer_select {context : CallContext} {draw : Draw} {node : Node} {ticket : Ticket}
    (result : (p.select context s.now draw).result = .ok (node, ticket)) :
    (s.step (.select on context draw)).answer =
      .selected node s.calls.next (p.select context s.now draw).context := by
  rw [step, selectStep, here]
  dsimp only
  rw [result]

theorem exists_result {context : CallContext} {draw : Draw} {node : Node}
    (returned : s.returned? (.select on context draw) = some node) :
    ∃ ticket, (p.select context s.now draw).result = .ok (node, ticket) := by
  cases result : (p.select context s.now draw).result with
  | error e =>
    rw [returned?, step, selectStep, here] at returned
    dsimp only at returned
    rw [result] at returned
    cases returned
  | ok served =>
    rw [returned?, answer_select here result, Option.some.injEq] at returned
    exact ⟨served.2, by rw [← returned]⟩

theorem metrics_selectStep (context : CallContext) (draw : Draw) :
    (s.step (.select on context draw)).events.filterMap Event.metric? =
      (if s.refuses (.select on context draw) then [Metric.noneAvailable p.algorithm] else []) ++
      (if p.overrules draw s.now then [Metric.forced] else []) ++
      (s.returned? (.select on context draw)).toList.map (Metric.picked p.algorithm) := by
  rw [events_select here, refuses, returned?]
  by_cases none : p.pool.nodes = []
  · rw [(select_of_nodes_eq_nil here none context draw).1, Selector.overrules_of_nodes_eq_nil none,
      Selector.select_of_nodes_eq_nil none]
    rfl
  · obtain ⟨after, node, place, number, events, selected, _⟩ :=
      Selector.exists_serves none context s.now draw
    have result : (p.select context s.now draw).result =
        .ok (node, ⟨p.generation, place, number⟩) := by rw [selected]
    rw [answer_select here result]
    exact Selector.metrics_select result

end

/-- Everything that a step may record, in this order. -/
theorem metrics_step {a : Algorithm} {s : Session} (balances : s.Balances a) (step : Step) :
    (s.step step).events.filterMap Event.metric? =
      (s.installed? step).toList.map (Metric.candidates a) ++
      (s.ended? step).toList.map (fun e => Metric.duration e.address e.latency) ++
      (if s.refuses step then [Metric.noneAvailable a] else []) ++
      (if s.overrules step then [Metric.forced] else []) ++
      (s.returned? step).toList.map (Metric.picked a) := by
  cases step with
  | apply on nodes =>
    rw [installed?, refuses, returned?, step, applyStep]
    cases here : s.selector? on with
    | none => rfl
    | some p =>
      rw [← balances here]
      rfl
  | done call outcome =>
    have quiet : s.returned? (.done call outcome) = none ∧ s.refuses (.done call outcome) = false := by
      rw [refuses, returned?, step, doneStep]
      cases s.calls.get? call with
      | none => exact ⟨rfl, rfl⟩
      | some handle =>
        dsimp only
        cases s.selector? handle.1 <;> exact ⟨rfl, rfl⟩
    rw [events_done, quiet.1, quiet.2]
    cases s.ended? (.done call outcome) <;> rfl
  | weights on =>
    rw [refuses, returned?, step, weightsStep]
    cases s.selector? on <;> rfl
  | select on context draw =>
    rw [overrules]
    cases here : s.selector? on with
    | none =>
      rw [refuses, returned?, step, selectStep, here]
      rfl
    | some p =>
      rw [metrics_selectStep here, ← balances here]
      rfl
  | setClock value => rfl
  | advanceClock offset => rfl
  | setMetering value => rfl

end Session

def recorded (metrics : List Metric) (name : String) (labels : List (String × String)) :
    List Measure :=
  (metrics.filter fun m => m.name = name ∧ m.labels = labels).map Metric.measure

section
variable (name : String) (labels : List (String × String))

theorem recorded_append (l m : List Metric) :
    recorded (l ++ m) name labels = recorded l name labels ++ recorded m name labels := by
  rw [recorded, List.filter_append, List.map_append]
  rfl

theorem recorded_map {α : Type} (l : List α) (f : α → Metric) :
    recorded (l.map f) name labels =
      (l.filter fun x => (f x).name = name ∧ (f x).labels = labels).map fun x => (f x).measure := by
  rw [recorded, List.filter_map, List.map_map]
  rfl

theorem recorded_ite (p : Bool) (m : Metric) :
    recorded (if p then [m] else []) name labels =
      if m.name = name ∧ m.labels = labels ∧ p then [m.measure] else [] := by
  cases p
  · simp [recorded]
  · by_cases same : m.name = name ∧ m.labels = labels <;> simp [recorded, same]

end

namespace Session
section
variable {a : Algorithm} {s : Session} (balances : s.Balances a) (step : Step)
include balances

theorem recorded_step (name : String) (labels : List (String × String)) :
    recorded ((s.step step).events.filterMap Event.metric?) name labels =
      ((s.installed? step).toList.filter fun _ =>
          "selector_candidates" = name ∧ [("balancer", a.name)] = labels).map
        (fun nodes => .gauge (Binary64.ofNat nodes.length)) ++
      ((s.ended? step).toList.filter fun e =>
          "selector_call_duration_seconds" = name ∧ [("address", e.address)] = labels).map
        (fun e => .histogram (secondsOfNanos e.latency.toNat)) ++
      (if "selector_no_available_total" = name ∧ [("balancer", a.name)] = labels ∧ s.refuses step
        then [.counter 1] else []) ++
      (if "selector_force_picks_total" = name ∧ [] = labels ∧ s.overrules step
        then [.counter 1] else []) ++
      ((s.returned? step).toList.filter fun node => "selector_picks_total" = name ∧
          [("balancer", a.name), ("address", node.address)] = labels).map fun _ => .counter 1 := by
  rw [metrics_step balances]
  simp only [recorded_append, recorded_map, recorded_ite]
  rfl

theorem recorded_picks (address : String) :
    recorded ((s.step step).events.filterMap Event.metric?) "selector_picks_total"
        [("balancer", a.name), ("address", address)] =
      ((s.returned? step).toList.filter fun node => node.address = address).map
        fun _ => .counter 1 := by
  simp [recorded_step balances]

theorem recorded_refusals :
    recorded ((s.step step).events.filterMap Event.metric?) "selector_no_available_total"
        [("balancer", a.name)] = if s.refuses step then [.counter 1] else [] := by
  simp [recorded_step balances]

theorem recorded_forced :
    recorded ((s.step step).events.filterMap Event.metric?) "selector_force_picks_total" [] =
      if s.overrules step then [.counter 1] else [] := by
  simp [recorded_step balances]

theorem recorded_durations (address : String) :
    recorded ((s.step step).events.filterMap Event.metric?) "selector_call_duration_seconds"
        [("address", address)] =
      ((s.ended? step).toList.filter fun e => e.address = address).map
        fun e => .histogram (secondsOfNanos e.latency.toNat) := by
  simp [recorded_step balances]

theorem recorded_candidates :
    recorded ((s.step step).events.filterMap Event.metric?) "selector_candidates"
        [("balancer", a.name)] =
      (s.installed? step).toList.map fun nodes => .gauge (Binary64.ofNat nodes.length) := by
  simp [recorded_step balances]

theorem known_of_mem_metrics {m : Metric}
    (member : m ∈ (s.step step).events.filterMap Event.metric?) : m.Known a := by
  rw [metrics_step balances] at member
  simp only [List.mem_append, List.mem_map, List.mem_ite_nil_right, List.mem_singleton] at member
  rcases member with (((⟨nodes, _, rfl⟩ | ⟨e, _, rfl⟩) | ⟨_, rfl⟩) | ⟨_, rfl⟩) | ⟨node, _, rfl⟩
  · exact .candidates nodes
  · exact .duration e.address e.latency
  · exact .noneAvailable
  · exact .forced
  · exact .picked node

end

end Session
end NodeSelection
