import NodeSelection.Proofs.Session.Recording

/-! The metrics of a session account for its run: for every node that was returned and every selection
that was refused, for every candidate taken against its weight, every call that has ended and every
node set applied, as long as they were switched on. The switch itself makes no other difference. -/

namespace NodeSelection

theorem recorded_flatMap {α : Type} (l : List α) (f : α → List Metric) (name : String)
    (labels : List (String × String)) :
    recorded (l.flatMap f) name labels = l.flatMap fun x => recorded (f x) name labels := by
  rw [recorded, List.filter_flatMap, List.map_flatMap]
  rfl

theorem flatMap_ite_eq_replicate {α β : Type} (l : List α) (p : α → Bool) (c : β) :
    (l.flatMap fun x => if p x then [c] else []) = List.replicate (l.countP p) c := by
  induction l with
  | nil => rfl
  | cons x rest ih =>
    rw [List.flatMap_cons, ih, List.countP_cons]
    split
    · rfl
    · rfl

namespace Session

def metrics (s : Session) (steps : List Step) : List Metric :=
  (s.run steps).flatMap fun t => t.observation.metrics

/-- The steps of a run that are taken while metrics are on, each with the session that it finds. -/
def metered (s : Session) (steps : List Step) : List (Session × Step) :=
  (s.history steps).filter fun x => x.1.metering

/-- Metrics are as they were before a step, except that nothing can be told of a step that switches
them. -/
theorem metered_or_silent (s : Session) (step : Step) :
    (s.step step).metered = s.metering ∨ (s.step step).events = [] := by
  cases step with
  | apply on nodes =>
    rw [step, applyStep]
    cases s.selector? on <;> exact Or.inl rfl
  | select on context draw =>
    rw [step, selectStep]
    cases s.selector? on with
    | none => exact Or.inl rfl
    | some p =>
      dsimp only
      split <;> exact Or.inl rfl
  | done call outcome =>
    rw [step, doneStep]
    cases s.calls.get? call with
    | none => exact Or.inl rfl
    | some handle =>
      dsimp only
      cases s.selector? handle.1 <;> exact Or.inl rfl
  | weights on =>
    rw [step, weightsStep]
    cases s.selector? on <;> exact Or.inl rfl
  | setClock value => exact Or.inl rfl
  | advanceClock offset => exact Or.inl rfl
  | setMetering value => exact Or.inr rfl

theorem metrics_observation (s : Session) (step : Step) :
    (s.step step).observation.metrics =
      if s.metering then (s.step step).events.filterMap Event.metric? else [] := by
  rw [Turn.observation, Observation.ofEvents]
  dsimp only
  cases s.metered_or_silent step with
  | inl same => rw [same]
  | inr silent => rw [silent, List.filterMap_nil, ite_self, ite_self]

theorem metrics_eq (s : Session) (steps : List Step) :
    s.metrics steps =
      (s.metered steps).flatMap fun x => (x.1.step x.2).events.filterMap Event.metric? := by
  rw [metrics, run_eq_map_history, List.flatMap_map, metered]
  induction s.history steps with
  | nil => rfl
  | cons x rest ih =>
    rw [List.flatMap_cons, ih, metrics_observation, List.filter_cons]
    split
    · rw [List.flatMap_cons]
    · rfl

structure Accounts (a : Algorithm) (metrics : List Metric) (metered : List (Session × Step)) :
    Prop where
  picks : ∀ address,
    recorded metrics "selector_picks_total" [("balancer", a.name), ("address", address)] =
      .replicate
        ((metered.filterMap fun x => x.1.returned? x.2).countP fun node => node.address = address)
        (.counter 1)
  refusals : recorded metrics "selector_no_available_total" [("balancer", a.name)] =
    .replicate (metered.countP fun x => x.1.refuses x.2) (.counter 1)
  forced : recorded metrics "selector_force_picks_total" [] =
    .replicate (metered.countP fun x => x.1.overrules x.2) (.counter 1)
  durations : ∀ address, recorded metrics "selector_call_duration_seconds" [("address", address)] =
    ((metered.filterMap fun x => x.1.ended? x.2).filter fun e => e.address = address).map
      fun e => .histogram (Binary64.ofNat (e.latency.toNat / 1000000000) +
        Binary64.ofNat (e.latency.toNat % 1000000000) / 1e9)
  candidates : recorded metrics "selector_candidates" [("balancer", a.name)] =
    (metered.filterMap fun x => x.1.installed? x.2).map
      fun nodes => .gauge (Binary64.ofNat nodes.length)
  known : ∀ m ∈ metrics, m.Known a

theorem flatMap_toList {α β γ : Type} (l : List α) (f : α → Option β) (p : β → Bool) (g : β → γ) :
    (l.flatMap fun x => ((f x).toList.filter p).map g) = ((l.filterMap f).filter p).map g := by
  rw [List.filterMap_eq_flatMap_toList, List.filter_flatMap, List.map_flatMap]

theorem accounts_ofBlueprint (b : Blueprint) (count : Nat) (steps : List Step) :
    Accounts b.algorithm ((ofBlueprint b count).metrics steps)
      ((ofBlueprint b count).metered steps) := by
  have balances (x : Session × Step) (member : x ∈ (ofBlueprint b count).metered steps) :
      x.1.Balances b.algorithm := by
    obtain ⟨first, _, _, found⟩ := exists_after_of_mem_history (List.mem_of_mem_filter member)
    rw [found]
    exact (balances_ofBlueprint b count).after first
  rw [metrics_eq]
  refine ⟨fun address => ?_, ?_, ?_, fun address => ?_, ?_, fun m member => ?_⟩
  · rw [recorded_flatMap,
      List.flatMap_congr fun x member => recorded_picks (balances x member) x.2 address,
      flatMap_toList, List.map_const', ← List.countP_eq_length_filter]
  · rw [recorded_flatMap,
      List.flatMap_congr fun x member => recorded_refusals (balances x member) x.2,
      flatMap_ite_eq_replicate]
  · rw [recorded_flatMap,
      List.flatMap_congr fun x member => recorded_forced (balances x member) x.2,
      flatMap_ite_eq_replicate]
  · rw [recorded_flatMap,
      List.flatMap_congr fun x member => recorded_durations (balances x member) x.2 address,
      flatMap_toList]
    rfl
  · rw [recorded_flatMap,
      List.flatMap_congr fun x member => recorded_candidates (balances x member) x.2,
      ← List.map_flatMap, ← List.filterMap_eq_flatMap_toList]
  · obtain ⟨x, here, told⟩ := List.mem_flatMap.1 member
    exact known_of_mem_metrics (balances x here) x.2 told

def Step.switches : Step → Bool
  | .setMetering _ => true
  | _ => false

def switch (s : Session) (metering : Bool) : Session := { s with metering }

theorem step_switch (s : Session) (metering : Bool) {step : Step} (other : step.switches = false) :
    (s.switch metering).step step =
      ⟨(s.step step).session.switch metering, (s.step step).answer, (s.step step).events,
        metering⟩ := by
  cases step with
  | apply on nodes =>
    have same : (s.switch metering).selector? on = s.selector? on := rfl
    rw [step, step, applyStep, applyStep, same]
    cases s.selector? on <;> rfl
  | select on context draw =>
    have same : (s.switch metering).selector? on = s.selector? on := rfl
    have now : (s.switch metering).now = s.now := rfl
    rw [step, step, selectStep, selectStep, same, now]
    cases s.selector? on with
    | none => rfl
    | some p =>
      dsimp only
      cases (p.select context s.now draw).result <;> rfl
  | done call outcome =>
    have opened : (s.switch metering).calls.get? call = s.calls.get? call := rfl
    rw [step, step, doneStep, doneStep, opened]
    cases s.calls.get? call with
    | none => rfl
    | some handle =>
      have same : (s.switch metering).selector? handle.1 = s.selector? handle.1 := rfl
      dsimp only
      rw [same]
      cases s.selector? handle.1 <;> rfl
  | weights on =>
    have same : (s.switch metering).selector? on = s.selector? on := rfl
    rw [step, step, weightsStep, weightsStep, same]
    cases s.selector? on <;> rfl
  | setClock value => rfl
  | advanceClock offset => rfl
  | setMetering value => cases other

/-- What is seen of a turn by everybody but a recorder. -/
def Turn.shown (t : Turn) : Answer × List Event := (t.answer, t.events)

theorem run_switch (s : Session) (metering : Bool) (steps : List Step) :
    let others := steps.filter fun step => !step.switches
    (∃ last, (s.switch metering).after steps = (s.after others).switch last) ∧
      (((s.switch metering).history steps).filter fun x => !x.2.switches).map
          (fun x => (x.1.step x.2).shown) =
        (s.history others).map fun x => (x.1.step x.2).shown := by
  induction steps generalizing s metering with
  | nil => exact ⟨⟨metering, rfl⟩, rfl⟩
  | cons step steps ih =>
    intro others
    dsimp only [others]
    rw [history, after_cons]
    cases kind : step.switches with
    | true =>
      cases step with
      | setMetering value =>
        rw [List.filter_cons_of_neg (by simp [kind]), List.filter_cons_of_neg (by simp [kind])]
        exact ih s value
      | _ => cases kind
    | false =>
      rw [List.filter_cons_of_pos (by simp [kind]), List.filter_cons_of_pos (by simp [kind]),
        history, after_cons, s.step_switch metering kind, List.map_cons, List.map_cons]
      obtain ⟨after, shown⟩ := ih (s.step step).session metering
      refine ⟨after, ?_⟩
      rw [shown, s.step_switch metering kind]
      rfl

/-- Metrics account for a run: one pick for every node returned, one refusal for every selection
refused, one forced pick for every selection that takes the loser of two candidates after all, one
duration for every call that ends on an adaptive candidate, and the length of every node set applied.
A duration is the time since the call was made, in seconds; the numbers by which candidates know their
calls repeat only after all words have been used. Unmetered steps record nothing, and a switch has no
other effect. -/
theorem metrics_account (b : Blueprint) (count : Nat) (steps : List Step) :
    let s := ofBlueprint b count
    let now := s.after steps
    let others := steps.filter fun step => !step.switches
    Accounts b.algorithm (s.metrics steps) (s.metered steps) ∧
      (∀ call outcome, (∃ e, now.ended? (.done call outcome) = some e) ↔
        (∃ handle, now.calls.get? call = some handle) ∧ ∃ tuning, b.wrapping = .adaptive tuning) ∧
      (∀ step e, now.ended? step = some e →
        ∃ node start, (s.made steps)[e.call]? = some (node, start) ∧ e.address = node.address ∧
          ((s.made steps).length ≤ Word.maxUnsigned → e.latency = max (now.now - start) 0)) ∧
      (∀ on p forceAfter forcing context draw node, now.selector? on = some p →
        p.balancer = .twoChoices forceAfter forcing → 1 < p.pool.size →
          now.returned? (.select on context draw) = some node →
            let first := p.pool.drawn draw.pair.1
            let second := p.pool.drawn draw.pair.2
            p.pool.nodes[if now.overrules (.select on context draw) then
              p.pool.lighter first second now.now else p.pool.heavier first second now.now]? =
                some node) ∧
      (∀ step, now.metering = false → (now.step step).observation.metrics = []) ∧
      (∃ metering, now = (s.after others).switch metering) ∧
      ((s.history steps).filter fun x => !x.2.switches).map (fun x => (x.1.step x.2).shown) =
        (s.history others).map fun x => (x.1.step x.2).shown := by
  intro s now others
  obtain ⟨same, shown⟩ := s.run_switch true steps
  refine ⟨accounts_ofBlueprint b count steps, exists_ended_iff b count steps,
    fun step e ended => ended_of_made b count steps ended,
    fun on p forceAfter forcing context draw node here two several returned => ?_,
    fun step off => ?_, same, shown⟩
  · obtain ⟨ticket, result⟩ := exists_result here returned
    rw [overrules, here, Option.any_some]
    exact Selector.node_of_two two several result
  · rw [metrics_observation, off]
    rfl

/-- The clock moves by five nanoseconds between the selection and the end of its call. -/
theorem metrics_account_five_nanos :
    let b := Blueprint.stock .twoChoices
    let steps : List Step :=
      [.apply 0 [Node.bare "http" "a"], .select 0 .empty ⟨(0, 0), 0⟩, .advanceClock 5]
    let s := ofBlueprint b 1
    (s.made steps).length ≤ Word.maxUnsigned ∧
      ∃ e, (s.after steps).ended? (.done 0 (.failed .canceled)) = some e ∧ e.address = "a" ∧
        e.latency = 5 := by
  intro b steps s
  have few : (s.made steps).length ≤ Word.maxUnsigned := by decide
  obtain ⟨_, ends, told, _⟩ := metrics_account b 1 steps
  obtain ⟨e, ended⟩ := (ends 0 (.failed .canceled)).2 ⟨⟨_, rfl⟩, _, rfl⟩
  have call : e.call = 0 := by
    obtain ⟨_, _, _, _, _, _, _, same, _⟩ := exists_call ended
    exact (Step.done.inj same).1.symm
  obtain ⟨node, start, made, address, latency⟩ := told _ e ended
  have first : (s.made steps)[0]? = some (Node.bare "http" "a", 1) := rfl
  rw [call, first, Option.some.injEq, Prod.mk.injEq] at made
  refine ⟨few, e, ended, address.trans (made.1 ▸ rfl), (latency few).trans ?_⟩
  rw [← made.2]
  rfl

end Session
end NodeSelection
