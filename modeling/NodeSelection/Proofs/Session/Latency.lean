import NodeSelection.Proofs.Balancer.Duel
import NodeSelection.Proofs.Session.Ended

/-! Calls from their beginning to their end. A session numbers its calls as they are made, so the list
of the calls made tells for every number the node and the time. An adaptive candidate knows its calls
by numbers of its own, and tells each of them at its end how long ago it was made. -/

namespace NodeSelection

theorem Candidate.Foreseen.calls {c : Candidate} {node : Node} {tuning : Ewma.Tuning Float}
    {stats : Ewma.Stats Float} (foreseen : c.Foreseen (.adaptive node tuning stats)) :
    ∃ before, c = .adaptive node tuning before ∧ stats.requests = before.requests ∧
      stats.openCalls = before.openCalls := by
  cases foreseen with
  | adaptive _ _ before => exact ⟨before, rfl, rfl, rfl⟩

namespace Selector
variable {p q : Selector}

def node? (s : Selector) (ticket : Ticket) : Option Node :=
  s.nodeSets[ticket.generation]?.bind fun nodes => nodes[ticket.place]?

theorem node?_eq (s : Selector) (ticket : Ticket) :
    s.node? ticket = (s.candidate? ticket.generation ticket.place).map Candidate.node := by
  rw [node?, nodeSets_getElem?, candidate?]
  cases s.generationPool? ticket.generation with
  | none => rfl
  | some pool => exact pool.nodes_getElem? ticket.place

theorem Moves.node? {applied : List (List Node)} (moves : p.Moves applied q) {ticket : Ticket}
    {node : Node} (here : p.node? ticket = some node) : q.node? ticket = some node := by
  obtain ⟨nodes, set, place⟩ := Option.bind_eq_some_iff.1 here
  rw [Selector.node?, moves.nodeSets, getElem?_append_of_eq_some set]
  exact place

theorem candidate?_apply (nodes : List Node) {generation place : Nat} {d : Candidate}
    (there : (p.apply nodes).1.candidate? generation place = some d) :
    p.candidate? generation place = some d ∨
      generation = p.generation + 1 ∧ ∃ node, d = p.wrapping.wrap node := by
  rw [candidate?, generationPool?_apply] at there
  split at there
  · rename_i new
    rw [Option.bind_some, Wrapping.pool, Pool.get?, List.getElem?_map] at there
    obtain ⟨node, _, same⟩ := Option.map_eq_some_iff.1 there
    exact Or.inr ⟨new, node, same.symm⟩
  · exact Or.inl there

theorem candidate?_of_past (past : q.past = p.past) (size : q.pool.size = p.pool.size)
    {R : Nat → Candidate → Candidate → Prop}
    (each : ∀ place c, p.pool.get? place = some c → ∃ d, q.pool.get? place = some d ∧ R place c d)
    {generation place : Nat} {d : Candidate} (there : q.candidate? generation place = some d) :
    p.candidate? generation place = some d ∧ generation ≠ p.generation ∨
      generation = p.generation ∧ ∃ c, p.candidate? generation place = some c ∧ R place c d := by
  rw [candidate?, generationPool?_of_past past] at there
  split at there
  · rename_i current
    rw [Option.bind_some] at there
    obtain ⟨c, here, related⟩ := Pool.exists_before size each there
    refine Or.inr ⟨current, c, ?_, related⟩
    rw [candidate?, current, generationPool?, if_pos rfl, Option.bind_some, here]
  · rename_i superseded
    exact Or.inl ⟨there, superseded⟩

theorem candidate?_complete (ticket : Ticket) (now : Int) (outcome : Outcome) (journal : Journal)
    {generation place : Nat} {d : Candidate}
    (there : (p.complete ticket now outcome journal).selector.candidate? generation place =
      some d) :
    p.candidate? generation place = some d ∧
        (generation ≠ ticket.generation ∨ place ≠ ticket.place) ∨
      ∃ c, ticket = ⟨generation, place, ticket.number⟩ ∧ p.candidate? generation place = some c ∧
        d = (c.complete ticket.number now outcome journal).1 := by
  rw [complete] at there
  cases found : p.generationPool? ticket.generation with
  | none =>
    rw [found] at there
    refine Or.inl ⟨there, Or.inl fun same => ?_⟩
    rw [candidate?, same, found] at there
    cases there
  | some pool =>
    rw [found] at there
    dsimp only at there
    rw [candidate?, generationPool?_setGenerationPool found] at there
    split at there
    · rename_i same
      rw [Option.bind_some] at there
      by_cases own : ticket.place = place
      · subst own same
        have inside : ticket.place < pool.size := by
          rw [← pool.size_complete ticket.place ticket.number now outcome journal]
          exact (List.getElem?_eq_some_iff.1 there).1
        have here : pool.get? ticket.place = some pool.candidates[ticket.place] :=
          List.getElem?_eq_getElem inside
        rw [Pool.get?_complete_self here, Option.some.injEq] at there
        refine Or.inr ⟨_, rfl, ?_, there.symm⟩
        rw [candidate?, found, Option.bind_some, here]
      · rw [pool.get?_complete_of_ne own] at there
        refine Or.inl ⟨?_, Or.inr (Ne.symm own)⟩
        rw [candidate?, same, found, Option.bind_some, there]
    · rename_i other
      exact Or.inl ⟨there, Or.inl other⟩

end Selector

/-- The statistics of a candidate know the calls that are open on it by numbers of their own, each with
the time at which it was made. -/
structure Ewma.Stats.Times (made : List (Node × Int)) (calls : Calls (Nat × Ticket))
    (on generation place : Nat) (stats : Ewma.Stats Float) : Prop where
  requests : stats.requests ≤ made.length
  begun : ∀ {call number}, calls.get? call = some (on, ⟨generation, place, number⟩) →
    number < stats.requests ∧
      ∃ node start, made[call]? = some (node, start) ∧ stats.openCalls.start? number = some start
  apart : ∀ {call other number}, calls.get? call = some (on, ⟨generation, place, number⟩) →
    calls.get? other = some (on, ⟨generation, place, number⟩) → call = other

namespace Ewma.Stats
variable {made : List (Node × Int)} {calls : Calls (Nat × Ticket)} {on generation place : Nat}
  {stats t : Ewma.Stats Float}

theorem times_fresh (none : ∀ call number, calls.get? call ≠ some (on, ⟨generation, place, number⟩)) :
    (fresh : Ewma.Stats Float).Times made calls on generation place :=
  ⟨Nat.zero_le _, fun opened => absurd opened (none _ _), fun opened => absurd opened (none _ _)⟩

theorem Times.keep (times : stats.Times made calls on generation place)
    (requests : t.requests = stats.requests) (openCalls : t.openCalls = stats.openCalls)
    (new : List (Node × Int)) {later : Calls (Nat × Ticket)}
    (still : ∀ {call number}, later.get? call = some (on, ⟨generation, place, number⟩) →
      calls.get? call = some (on, ⟨generation, place, number⟩)) :
    t.Times (made ++ new) later on generation place where
  requests := by
    rw [requests, List.length_append]
    exact Nat.le_add_right_of_le times.requests
  begun opened := by
    obtain ⟨below, node, start, listed, known⟩ := times.begun (still opened)
    rw [requests, openCalls]
    exact ⟨below, node, start, getElem?_append_of_eq_some listed new, known⟩
  apart one other := times.apart (still one) (still other)

theorem Times.begins (times : stats.Times made calls on generation place)
    (next : calls.next = made.length) (room : made.length < Word.maxUnsigned) {now : Int}
    (begins : stats.Begins now t) (node : Node) :
    t.Times (made ++ [(node, now)]) (calls.put (on, ⟨generation, place, stats.requests⟩)) on
      generation place := by
  have requests : t.requests = stats.requests + 1 := by
    rw [begins.requests]
    exact_mod_cast Word.wrapUnsigned_natCast (Nat.lt_of_le_of_lt times.requests room)
  -- The new call has the last number of all, and its candidate gives it one that no other has.
  have opened {call number : Nat} (here : (calls.put (on, ⟨generation, place, stats.requests⟩)).get?
      call = some (on, ⟨generation, place, number⟩)) :
      call = made.length ∧ number = stats.requests ∨
        calls.get? call = some (on, ⟨generation, place, number⟩) ∧ number < stats.requests := by
    by_cases last : call = calls.next
    · rw [last, Calls.get?_put_next] at here
      cases here
      exact Or.inl ⟨last.trans next, rfl⟩
    · rw [Calls.get?_put_of_ne _ _ last] at here
      exact Or.inr ⟨here, (times.begun here).1⟩
  refine ⟨?_, fun {call number} here => ?_, fun {call other number} one two => ?_⟩
  · rw [requests, List.length_append]
    exact Nat.succ_le_succ times.requests
  · rw [requests]
    rcases opened here with ⟨rfl, rfl⟩ | ⟨before, below⟩
    · exact ⟨Nat.lt_succ_self _, node, now, List.getElem?_concat_length, begins.started⟩
    · obtain ⟨_, own, start, listed, known⟩ := times.begun before
      refine ⟨Nat.lt_succ_of_lt below, own, start, getElem?_append_of_eq_some listed _, ?_⟩
      rw [begins.others number (Nat.ne_of_lt below), known]
  · rcases opened one with ⟨first, rfl⟩ | ⟨before, below⟩
    · rcases opened two with ⟨second, _⟩ | ⟨_, below⟩
      · rw [first, second]
      · exact absurd below (Nat.lt_irrefl _)
    · rcases opened two with ⟨_, rfl⟩ | ⟨before', _⟩
      · exact absurd below (Nat.lt_irrefl _)
      · exact times.apart before before'

theorem Times.finish (times : stats.Times made calls on generation place) {call number : Nat}
    (opened : calls.get? call = some (on, ⟨generation, place, number⟩)) (tuning : Ewma.Tuning Float)
    (now : Int) (failed : Bool) :
    (stats.finish tuning number now failed).1.Times made (calls.drop call) on generation place := by
  refine ⟨times.requests, fun {other name} here => ?_, fun one two =>
    times.apart (Calls.get?_of_get?_drop one) (Calls.get?_of_get?_drop two)⟩
  have before := Calls.get?_of_get?_drop here
  obtain ⟨below, node, start, listed, known⟩ := times.begun before
  refine ⟨below, node, start, listed, (stats.openCalls.start?_erase_of_ne fun same => ?_).trans known⟩
  rw [same] at before
  rw [times.apart before opened, Calls.get?_drop_self] at here
  cases here

end Ewma.Stats

namespace Session

def returned? (s : Session) (step : Step) : Option Node :=
  match (s.step step).answer with
  | .selected node _ _ => some node
  | _ => none

def made? (s : Session) (step : Step) : Option (Node × Int) :=
  (s.returned? step).map fun node => (node, s.now)

/-- The calls made in the course of some steps, in the order of their numbers. -/
def made (s : Session) (steps : List Step) : List (Node × Int) :=
  (s.history steps).filterMap fun x => x.1.made? x.2

theorem made_cons (s : Session) (step : Step) (steps : List Step) :
    s.made (step :: steps) = (s.made? step).toList ++ (s.step step).session.made steps := by
  rw [made, history]
  exact filterMap_cons_toList _ _ _

theorem pos_of_mem_made {s : Session} {steps : List Step} {call : Node × Int}
    (member : call ∈ s.made steps) : 0 < call.2 := by
  obtain ⟨x, _, made⟩ := List.mem_filterMap.1 member
  obtain ⟨node, _, rfl⟩ := Option.map_eq_some_iff.1 made
  exact x.1.clock.stamp_pos

theorem Serves.returned? {s : Session} {on : Nat} {context : CallContext} {step : Step}
    {p q : Selector} {node : Node} {place number : Nat}
    (serves : s.Serves on context (s.step step) p q node place number) :
    s.returned? step = some node := by
  rw [Session.returned?, serves.answer]

theorem serves_or_still (s : Session) (on : Nat) (context : CallContext) (draw : Draw) :
    (∃ p q node place number,
        s.Serves on context (s.step (.select on context draw)) p q node place number) ∨
      s.returned? (.select on context draw) = none ∧
        (s.step (.select on context draw)).session = s := by
  cases here : s.selector? on with
  | none =>
    refine Or.inr ?_
    rw [returned?, step, selectStep, here]
    exact ⟨rfl, rfl⟩
  | some p =>
    by_cases none : p.pool.nodes = []
    · obtain ⟨refused, still⟩ := select_of_nodes_eq_nil here none context draw
      refine Or.inr ⟨?_, still⟩
      rw [returned?, refused]
    · obtain ⟨q, node, place, number, serves⟩ := exists_serves here none context draw
      exact Or.inl ⟨p, q, node, place, number, serves⟩

theorem serves_or_calls (s : Session) (step : Step) :
    (∃ on context draw p q node place number, step = .select on context draw ∧
        s.Serves on context (s.step step) p q node place number) ∨
      s.returned? step = none ∧ ((s.step step).session.calls = s.calls ∨
        ∃ call, (s.step step).session.calls = s.calls.drop call) := by
  cases step with
  | select on context draw =>
    rcases s.serves_or_still on context draw with ⟨p, q, node, place, number, serves⟩ | ⟨none, still⟩
    · exact Or.inl ⟨on, context, draw, p, q, node, place, number, rfl, serves⟩
    · exact Or.inr ⟨none, Or.inl (by rw [still])⟩
  | apply on nodes =>
    refine Or.inr ?_
    rw [returned?, step, applyStep]
    cases s.selector? on <;> exact ⟨rfl, Or.inl rfl⟩
  | done call outcome =>
    refine Or.inr ?_
    rw [returned?, step, doneStep]
    cases s.calls.get? call with
    | none => exact ⟨rfl, Or.inl rfl⟩
    | some handle =>
      dsimp only
      cases s.selector? handle.1 with
      | none => exact ⟨rfl, Or.inl rfl⟩
      | some p => exact ⟨rfl, Or.inr ⟨call, rfl⟩⟩
  | weights on =>
    refine Or.inr ?_
    rw [returned?, step, weightsStep]
    cases s.selector? on <;> exact ⟨rfl, Or.inl rfl⟩
  | setClock value => exact Or.inr ⟨rfl, Or.inl rfl⟩
  | advanceClock offset => exact Or.inr ⟨rfl, Or.inl rfl⟩
  | setMetering value => exact Or.inr ⟨rfl, Or.inl rfl⟩

/-- The open calls of a session are among the calls made, and their tickets are for the nodes that
were returned. -/
structure Records (made : List (Node × Int)) (s : Session) : Prop where
  next : s.calls.next = made.length
  node : ∀ {call on ticket}, s.calls.get? call = some (on, ticket) →
    ∃ node start p, made[call]? = some (node, start) ∧ s.selector? on = some p ∧
      p.node? ticket = some node

theorem records_ofBlueprint (b : Blueprint) (count : Nat) : (ofBlueprint b count).Records [] := by
  refine ⟨rfl, fun {call _ _} opened => ?_⟩
  rw [ofBlueprint, get?_empty] at opened
  cases opened

section
variable {made : List (Node × Int)} {s : Session}

theorem Records.step (records : s.Records made) (step : Step) :
    (s.step step).session.Records (made ++ (s.made? step).toList) := by
  have kept {call on : Nat} {ticket : Ticket} (opened : s.calls.get? call = some (on, ticket)) :
      ∃ node start q, (made ++ (s.made? step).toList)[call]? = some (node, start) ∧
        (s.step step).session.selector? on = some q ∧ q.node? ticket = some node := by
    obtain ⟨node, start, p, listed, here, own⟩ := records.node opened
    obtain ⟨q, there, moves⟩ := moves_step here step
    exact ⟨node, start, q, getElem?_append_of_eq_some listed _, there, moves.node? own⟩
  rcases s.serves_or_calls step with
    ⟨on, context, draw, p, q, node, place, number, rfl, serves⟩ | ⟨none, calls⟩
  · have new : s.made? (.select on context draw) = some (node, s.now) := by
      rw [made?, serves.returned?, Option.map_some]
    have calls : (s.step (.select on context draw)).session.calls =
        s.calls.put (on, ⟨p.generation, place, number⟩) := by rw [serves.session]
    refine ⟨?_, fun {call on' ticket} opened => ?_⟩
    · rw [calls, Calls.next_put, new, records.next, List.length_append]
      rfl
    · rw [calls] at opened
      by_cases last : call = s.calls.next
      · rw [last, Calls.get?_put_next] at opened
        cases opened
        obtain ⟨r, there, moves⟩ := moves_step serves.selector (.select on context draw)
        have own : p.node? ⟨p.generation, place, number⟩ = some node := by
          rw [Selector.node?, Selector.nodeSets_getElem?, Selector.generationPool?, if_pos rfl]
          exact serves.serves.node
        refine ⟨node, s.now, r, ?_, there, moves.node? own⟩
        rw [last, records.next, new]
        exact List.getElem?_concat_length
      · rw [Calls.get?_put_of_ne _ _ last] at opened
        exact kept opened
  · have new : s.made? step = .none := by rw [made?, none, Option.map_none]
    refine ⟨?_, fun {call on ticket} opened => ?_⟩
    · rw [new, Option.toList_none, List.append_nil, ← records.next]
      rcases calls with same | ⟨ended, same⟩
      · rw [same]
      · rw [same, Calls.next_drop]
    · rcases calls with same | ⟨ended, same⟩
      · rw [same] at opened
        exact kept opened
      · rw [same] at opened
        exact kept (Calls.get?_of_get?_drop opened)

theorem Records.after (records : s.Records made) (steps : List Step) :
    (s.after steps).Records (made ++ s.made steps) := by
  induction steps generalizing s made with
  | nil => rwa [Session.made, history, List.filterMap_nil, List.append_nil]
  | cons step steps ih =>
    rw [made_cons, ← List.append_assoc]
    exact ih (records.step step)

def Timed (made : List (Node × Int)) (s : Session) : Prop :=
  ∀ ⦃on p generation place node tuning stats⦄, s.selector? on = some p →
    p.candidate? generation place = some (.adaptive node tuning stats) →
      stats.Times made s.calls on generation place

theorem timed_ofBlueprint (b : Blueprint) (count : Nat) : (ofBlueprint b count).Timed [] := by
  intro on p generation place node tuning stats here candidate
  have build := List.eq_of_mem_replicate (List.mem_of_getElem? here)
  rw [build, Selector.candidate?, Selector.generationPool?, Blueprint.build, Selector.new] at candidate
  split at candidate
  · cases candidate
  · cases candidate

theorem Timed.setSelector (timed : s.Timed made) {on : Nat} {p q : Selector}
    (here : s.selector? on = some p) {later : Calls (Nat × Ticket)} {new : List (Node × Int)}
    (own : ∀ {generation place node tuning stats},
      q.candidate? generation place = some (.adaptive node tuning stats) →
        stats.Times (made ++ new) later on generation place)
    (others : ∀ {call target ticket}, target ≠ on → later.get? call = some (target, ticket) →
      s.calls.get? call = some (target, ticket)) :
    Timed (made ++ new) { s.setSelector on q with calls := later } := by
  intro target r generation place node tuning stats there candidate
  by_cases same : target = on
  · subst same
    have set := selector?_setSelector here target q
    rw [if_pos rfl] at set
    rw [show r = q from Option.some.inj (there.symm.trans set)] at candidate
    exact own candidate
  · have before : s.selector? target = some r := by
      rw [← there]
      exact (List.getElem?_set_ne (Ne.symm same)).symm
    exact (timed before candidate).keep rfl rfl new (others same)

theorem Timed.still (timed : s.Timed made) {t : Session} (selectors : t.selectors = s.selectors)
    (calls : t.calls = s.calls) (new : List (Node × Int)) : t.Timed (made ++ new) := by
  intro on p generation place node tuning stats here candidate
  rw [selector?, selectors] at here
  exact (timed here candidate).keep rfl rfl new fun opened => calls ▸ opened

theorem Timed.applyStep (timed : s.Timed made) (records : s.Records made) (on : Nat)
    (nodes : List Node) (new : List (Node × Int)) :
    (s.applyStep on nodes).session.Timed (made ++ new) := by
  rw [Session.applyStep]
  cases here : s.selector? on with
  | none => exact timed.still rfl rfl new
  | some p =>
    refine timed.setSelector here (fun {generation place node tuning stats} candidate => ?_)
      fun _ opened => opened
    rcases p.candidate?_apply nodes candidate with before | ⟨last, own, wrapped⟩
    · exact (timed here before).keep rfl rfl new fun opened => opened
    · have fresh : stats = .fresh := by
        cases made : p.wrapping with
        | fixed defaultWeight =>
          rw [made] at wrapped
          cases wrapped
        | adaptive tuning =>
          rw [made] at wrapped
          cases wrapped
          rfl
      rw [fresh]
      -- No ticket can be for a node set that comes only now.
      refine Ewma.Stats.times_fresh fun call number opened => ?_
      obtain ⟨_, _, q, _, there, own⟩ := records.node opened
      rw [here, Option.some.injEq] at there
      obtain ⟨set, inForce, _⟩ := Option.bind_eq_some_iff.1 own
      have inside := (List.getElem?_eq_some_iff.1 inForce).1
      rw [← there, Selector.length_nodeSets, last] at inside
      exact Nat.lt_irrefl _ inside

theorem Timed.weightsStep (timed : s.Timed made) (on : Nat) (new : List (Node × Int)) :
    (s.weightsStep on).session.Timed (made ++ new) := by
  rw [Session.weightsStep]
  cases here : s.selector? on with
  | none => exact timed.still rfl rfl new
  | some p =>
    refine timed.setSelector here (fun {generation place node tuning stats} candidate => ?_)
      fun _ opened => opened
    have asked := (Pool.Asked.refl s.now p.pool).weighAll p.pool.places
    rcases Selector.candidate?_of_past (p := p) (q := (p.weights s.now).2) rfl asked.size asked.each
      candidate with ⟨before, _⟩ | ⟨_, c, before, one⟩
    · exact (timed here before).keep rfl rfl new fun opened => opened
    · obtain ⟨old, rfl, requests, openCalls⟩ := one.foreseen.calls
      exact (timed here before).keep requests openCalls new fun opened => opened

theorem Timed.doneStep (timed : s.Timed made) (call : Nat) (outcome : Outcome)
    (new : List (Node × Int)) : (s.doneStep call outcome).session.Timed (made ++ new) := by
  rw [Session.doneStep]
  cases opened : s.calls.get? call with
  | none => exact timed.still rfl rfl new
  | some handle =>
    obtain ⟨on, ticket⟩ := handle
    dsimp only
    cases here : s.selector? on with
    | none => exact timed.still rfl rfl new
    | some p =>
      refine timed.setSelector here (fun {generation place node tuning stats} candidate => ?_)
        fun _ opened => Calls.get?_of_get?_drop opened
      rcases p.candidate?_complete ticket s.now outcome s.journal candidate with
        ⟨before, _⟩ | ⟨c, own, before, ended⟩
      · exact (timed here before).keep rfl rfl new Calls.get?_of_get?_drop
      · rw [own] at opened
        cases c with
        | fixed => cases ended
        | adaptive =>
          cases ended
          have times := (timed here before).finish opened tuning s.now
            (outcome.isFailure tuning.classifier s.journal).1
          exact times.keep rfl rfl new fun opened => opened

theorem Timed.serves (timed : s.Timed made) (next : s.calls.next = made.length)
    (room : made.length < Word.maxUnsigned) {on : Nat} {context : CallContext} {t : Turn}
    {p q : Selector} {node : Node} {place number : Nat}
    (serves : s.Serves on context t p q node place number) :
    t.session.Timed (made ++ [(node, s.now)]) := by
  have here := serves.selector
  have picked := serves.serves.picked
  have other {call target : Nat} {ticket : Ticket}
      (ne : ¬(target = on ∧ ticket = ⟨p.generation, place, number⟩))
      (opened : (s.calls.put (on, ⟨p.generation, place, number⟩)).get? call =
        some (target, ticket)) : s.calls.get? call = some (target, ticket) := by
    refine (Calls.get?_put_of_ne _ _ fun last => ?_).symm.trans opened
    rw [last, Calls.get?_put_next] at opened
    cases opened
    exact ne ⟨rfl, rfl⟩
  have each (at' : Nat) (c : Candidate) (inside : p.pool.get? at' = some c) :
      ∃ d, q.pool.get? at' = some d ∧ if at' = place then
        ∃ u, c.Foreseen u ∧ u.Begins s.now d number else c.Foreseen d := by
    split
    · rename_i same
      obtain ⟨e, u, first, asked, there, own⟩ := picked.picked
      rw [← same, inside, Option.some.injEq] at first
      rw [← first] at asked
      exact ⟨_, same ▸ there, u, asked.foreseen, own ▸ u.begins_pick s.now⟩
    · rename_i passed
      obtain ⟨d, there, asked⟩ := picked.others at' c passed inside
      exact ⟨d, there, asked.foreseen⟩
  rw [serves.session]
  refine timed.setSelector (q := q) here (fun {generation at' own tuning stats} candidate => ?_)
    fun ne opened => other (fun same => ne same.1) opened
  rcases Selector.candidate?_of_past serves.serves.past picked.size each candidate with
    ⟨before, superseded⟩ | ⟨current, c, before, one⟩
  · refine (timed here before).keep rfl rfl _ (other fun same => superseded ?_)
    rw [show generation = p.generation from congrArg Ticket.generation same.2]
  · split at one
    · rename_i same
      obtain ⟨u, foreseen, begins⟩ := one
      cases begins with
      | adaptive _ _ begun =>
        obtain ⟨old, rfl, requests, openCalls⟩ := foreseen.calls
        have times := (timed here before).keep requests openCalls [] fun opened => opened
        rw [List.append_nil] at times
        subst current same
        exact times.begins next room begun node
    · rename_i passed
      obtain ⟨old, rfl, requests, openCalls⟩ := one.calls
      refine (timed here before).keep requests openCalls _ (other fun same => passed ?_)
      rw [show at' = place from congrArg Ticket.place same.2]

theorem Timed.step (timed : s.Timed made) (records : s.Records made) (step : Step)
    (room : (made ++ (s.made? step).toList).length ≤ Word.maxUnsigned) :
    (s.step step).session.Timed (made ++ (s.made? step).toList) := by
  cases step with
  | select on context draw =>
    rcases s.serves_or_still on context draw with ⟨p, q, node, place, number, serves⟩ | ⟨_, still⟩
    · have new : s.made? (.select on context draw) = some (node, s.now) := by
        rw [made?, serves.returned?, Option.map_some]
      rw [new, List.length_append] at room
      rw [new]
      exact timed.serves records.next (Nat.lt_of_succ_le room) serves
    · exact timed.still (by rw [still]) (by rw [still]) _
  | apply on nodes => exact timed.applyStep records on nodes _
  | done call outcome => exact timed.doneStep call outcome _
  | weights on => exact timed.weightsStep on _
  | setClock value => exact timed.still rfl rfl _
  | advanceClock offset => exact timed.still rfl rfl _
  | setMetering value => exact timed.still rfl rfl _

theorem Timed.after (timed : s.Timed made) (records : s.Records made) (steps : List Step)
    (room : (made ++ s.made steps).length ≤ Word.maxUnsigned) :
    (s.after steps).Timed (made ++ s.made steps) := by
  induction steps generalizing s made with
  | nil => exact timed.still rfl rfl _
  | cons step steps ih =>
    rw [made_cons, ← List.append_assoc] at room ⊢
    have first := Nat.le_trans (List.sublist_append_left _ _).length_le room
    exact ih (timed.step records step first) (records.step step) room

end

/-- A call that ends was made on a node of the address that its end is told of, and took the time
since then. -/
theorem ended_of_made (b : Blueprint) (count : Nat) (steps : List Step) {step : Step} {e : Ended}
    (ended : ((ofBlueprint b count).after steps).ended? step = some e) :
    ∃ node start, ((ofBlueprint b count).made steps)[e.call]? = some (node, start) ∧
      e.address = node.address ∧
      (((ofBlueprint b count).made steps).length ≤ Word.maxUnsigned →
        e.latency = max (((ofBlueprint b count).after steps).now - start) 0) := by
  have records := (records_ofBlueprint b count).after steps
  have timed := (timed_ofBlueprint b count).after (records_ofBlueprint b count) steps
  rw [List.nil_append] at records timed
  obtain ⟨outcome, on, ticket, p, own, tuning, stats, rfl, opened, here, candidate, address, latency, _⟩ :=
    exists_call ended
  obtain ⟨node, start, q, listed, there, returned⟩ := records.node opened
  rw [here, Option.some.injEq] at there
  rw [← there, Selector.node?_eq, candidate, Option.map_some, Option.some.injEq] at returned
  refine ⟨node, start, listed, by rw [address, ← returned]; rfl, fun room => ?_⟩
  obtain ⟨_, _, begun, same, known⟩ := (timed room here candidate).begun opened
  rw [listed] at same
  cases same
  rw [latency, Ewma.Stats.latency, known, Option.getD_some]
  -- Both stamps lie among the signed words, so that nothing is clamped.
  have late := Clock.stamp_le_maxSigned ((ofBlueprint b count).after steps).clock
  have early : 0 < start := pos_of_mem_made (List.mem_of_getElem? listed)
  exact Stamp.since_eq (Int.le_trans (Int.sub_le_self _ (Int.le_of_lt early)) late)

end Session
end NodeSelection
