import Mathlib
import NodeSelection.Proofs.Session.Served

/-! Forced picks in the course of a session. Only a candidate that has been idle for too long is
taken against its weight, and a pick of any kind ends its idleness. So however selections
are drawn, a candidate is forced at most once within the limit, and within the limit a node set
costs no more forced picks than it has nodes. -/

namespace NodeSelection

theorem Clock.stamp_sub_stamp_le {c d : Clock} (le : c.value ≤ d.value) :
    d.stamp - c.stamp ≤ d.value - c.value := by
  simp only [stamp, Word.clampSigned, Word.minSigned, Word.maxSigned]
  omega

theorem Idle.lt_of_exceeds_since {limit : Nat} {now stamp : Int} (pos : 0 < stamp)
    (idle : (Idle.since now stamp).exceeds limit = true) : (limit : Int) < now - stamp := by
  by_contra recent
  rw [not_exceeds_since pos (Int.not_lt.1 recent)] at idle
  cases idle

theorem Balancer.idle_of_forced {forceAfter : Nat} {forcing : Bool} {pool : Pool}
    {places : List Nat} {now : Int} {draw : Draw} {r : Pick}
    (picked : (twoChoices forceAfter forcing).pick pool places now draw = .ok r)
    (forced : r.events.any Event.isForced = true) :
    (pool.idle r.place now).exceeds forceAfter = true := by
  cases places with
  | nil => cases picked
  | cons first rest =>
    simp only [pick, choose] at picked
    by_cases single : rest.isEmpty = true
    · rw [if_pos single, Except.ok.injEq] at picked
      rw [← picked] at forced
      cases forced
    · rw [if_neg single, Except.ok.injEq] at picked
      rw [← picked, register, chooseOfTwo] at forced ⊢
      dsimp only at forced ⊢
      split at forced
      · rename_i starved
        rw [if_pos starved]
        rw [idle_duel, Balancer.starved, Bool.and_eq_true] at starved
        exact starved.1
      · cases forced

namespace Selector

theorem algorithm_ne_rotation {s : Selector} {forceAfter : Nat} {forcing : Bool}
    (two : s.balancer = .twoChoices forceAfter forcing) : s.algorithm ≠ .rotation := by
  rw [algorithm, two]
  exact Algorithm.noConfusion

/-- What a selection has done to the last picks of a selector that chooses between two. -/
structure Takes (now : Int) (forceAfter : Nat) (before after : Selector) (ticket : Ticket)
    (forced : Bool) : Prop where
  current : ticket.generation = before.generation
  inside : ticket.place < before.pool.nodes.length
  generation : after.generation = before.generation
  lastPick : ∀ place, after.pool.lastPick place =
    if place = ticket.place then now else before.pool.lastPick place
  idle : forced = true → (before.pool.idle ticket.place now).exceeds forceAfter = true

theorem takes_select {s : Selector} {forceAfter : Nat} {forcing : Bool}
    (two : s.balancer = .twoChoices forceAfter forcing) {context : CallContext} {now : Int}
    {draw : Draw} {node : Node} {ticket : Ticket}
    (result : (s.select context now draw).result = .ok (node, ticket)) :
    s.Takes now forceAfter (s.select context now draw).selector ticket
      ((s.select context now draw).events.any Event.isForced) := by
  have inside : ∀ place ∈ s.pool.places, place < s.pool.size := fun place member =>
    List.mem_range.1 member
  rw [select] at result ⊢
  cases chosen : s.balancer.pick s.pool s.pool.places now draw with
  | error e =>
    rw [chosen] at result
    cases result
  | ok r =>
    have picked := Balancer.picked_of_pick inside chosen
    rw [chosen] at result
    dsimp only at result ⊢
    cases there : r.pool.get? r.place with
    | none =>
      rw [there] at result
      cases result
    | some c =>
      rw [there] at result
      cases result
      refine ⟨rfl, ?_, rfl, picked.lastPick, fun forced => ?_⟩
      · rw [Pool.nodes, List.length_map]
        exact inside _ picked.place
      · rw [List.any_append, Bool.or_eq_true] at forced
        rw [two] at chosen
        exact Balancer.idle_of_forced chosen (forced.resolve_right Bool.false_ne_true)

/-- A selector between two selections: it goes on with the same balancer, and unless a new node
set was put in force no last pick has moved. -/
structure Idles (before after : Selector) : Prop where
  balancer : after.balancer = before.balancer
  generation : before.generation ≤ after.generation
  lastPick : after.generation = before.generation →
    ∀ place, after.pool.lastPick place = before.pool.lastPick place

theorem Idles.refl (s : Selector) : s.Idles s := ⟨rfl, Nat.le_refl _, fun _ _ => rfl⟩

theorem idles_apply (s : Selector) (nodes : List Node) : s.Idles (s.apply nodes).1 := by
  refine ⟨rfl, ?_, fun same => ?_⟩
  · rw [generation_apply]
    exact Nat.le_succ _
  · rw [generation_apply] at same
    exact absurd same (Nat.succ_ne_self _)

theorem idles_complete (s : Selector) (ticket : Ticket) (now : Int) (outcome : Outcome)
    (journal : Journal) : s.Idles (s.complete ticket now outcome journal).selector := by
  rw [complete]
  cases found : s.generationPool? ticket.generation with
  | none => exact .refl s
  | some pool =>
    refine ⟨?_, ?_, fun _ place => ?_⟩
    · dsimp only [setGenerationPool]
      split <;> rfl
    · exact Nat.le_of_eq (s.generation_setGenerationPool _ _).symm
    · rw [generationPool?] at found
      dsimp only [setGenerationPool]
      split
      · rename_i current
        rw [if_pos current, Option.some.injEq] at found
        rw [found]
        exact Pool.lastPick_complete pool ticket.place ticket.number now outcome journal place
      · rfl

theorem idles_weights (s : Selector) (now : Int) : s.Idles (s.weights now).2 :=
  ⟨rfl, Nat.le_refl _, fun _ place => Pool.lastPick_weighAll s.pool now s.pool.places place⟩

end Selector

/-- If the later of two selections forced the candidate that the earlier one had returned, more than
the limit has passed in between. -/
def Served.Spaced (limit : Nat) (earlier later : Served) : Prop :=
  later.forced = true → later.ticket.generation = earlier.ticket.generation →
    later.ticket.place = earlier.ticket.place →
      earlier.clock.value + (limit : Int) < later.clock.value

namespace Session

def Forward (s : Session) : List Step → Prop
  | [] => True
  | step :: rest =>
    s.clock.value ≤ (s.step step).session.clock.value ∧ Forward (s.step step).session rest

theorem Forward.le_after {s : Session} {steps : List Step} (forward : s.Forward steps) :
    s.clock.value ≤ (s.after steps).clock.value := by
  induction steps generalizing s with
  | nil => exact Int.le_refl _
  | cons step steps ih => exact Int.le_trans forward.1 (ih forward.2)

theorem forward_append {s : Session} {first second : List Step} :
    s.Forward (first ++ second) ↔ s.Forward first ∧ (s.after first).Forward second := by
  induction first generalizing s with
  | nil => exact (iff_of_eq (true_and _)).symm
  | cons step first ih =>
    rw [List.cons_append, Forward, ih, Forward, and_assoc, after_cons]

theorem Advances.idles {s : Session} {on : Nat} {p q : Selector} {step : Step}
    (advances : Advances s on p step none q) : p.Idles q := by
  cases advances with
  | rest => exact .refl p
  | apply nodes => exact p.idles_apply nodes
  | complete call ticket outcome => exact p.idles_complete ticket s.now outcome s.journal
  | weights => exact p.idles_weights s.now

theorem Advances.takes {s : Session} {on : Nat} {p q : Selector} {step : Step} {x : Served}
    {forceAfter : Nat} {forcing : Bool} (two : p.balancer = .twoChoices forceAfter forcing)
    (advances : Advances s on p step (some x) q) :
    p.Takes s.now forceAfter q x.ticket x.forced ∧ q.balancer = p.balancer ∧ x.clock = s.clock := by
  cases advances with
  | select context draw result =>
    have balancer := (p.moves_select context s.now draw).balancer (Selector.algorithm_ne_rotation two)
    exact ⟨Selector.takes_select two result, balancer, rfl⟩

section
variable {s : Session} {on : Nat} {p : Selector} (here : s.selector? on = some p)
include here

theorem current_served {steps : List Step} (unapplied : ∀ step ∈ steps, step.applied? on = none)
    {forceAfter : Nat} {forcing : Bool} (two : p.balancer = .twoChoices forceAfter forcing) :
    ∀ x ∈ s.served on steps,
      x.ticket.generation = p.generation ∧ x.ticket.place < p.pool.nodes.length := by
  induction steps generalizing s p with
  | nil => simp
  | cons step steps ih =>
    rw [List.forall_mem_cons] at unapplied
    obtain ⟨q, there, advances⟩ := advances_step here step
    obtain ⟨q', found, moves⟩ := moves_step here step
    rw [there, Option.some.injEq] at found
    have generation := moves.generation
    have nodes := advances.nodes.1
    rw [unapplied.1] at generation nodes
    rw [← found] at generation
    have later (two' : q.balancer = p.balancer) := ih there unapplied.2 (two'.trans two)
    rw [generation, nodes] at later
    rw [served_cons]
    cases shown : (s.step step).served? on with
    | none =>
      rw [shown] at advances
      exact later advances.idles.balancer
    | some x =>
      rw [shown] at advances
      obtain ⟨takes, same, _⟩ := advances.takes two
      exact List.forall_mem_cons.2 ⟨⟨takes.current, takes.inside⟩, later same⟩

variable {forceAfter : Nat} {forcing : Bool} (two : p.balancer = .twoChoices forceAfter forcing)
  {steps : List Step} (forward : s.Forward steps)
include two forward

theorem clock_served : ∀ x ∈ s.served on steps,
    s.clock.value ≤ x.clock.value ∧ x.clock.value ≤ (s.after steps).clock.value := by
  induction steps generalizing s p with
  | nil => simp
  | cons step steps ih =>
    obtain ⟨q, there, advances⟩ := advances_step here step
    obtain ⟨first, rest⟩ := forward
    have later (two' : q.balancer = p.balancer) : ∀ x ∈ (s.step step).session.served on steps,
        s.clock.value ≤ x.clock.value ∧ x.clock.value ≤ (s.after (step :: steps)).clock.value :=
      fun x member => (ih there (two'.trans two) rest x member).imp_left first.trans
    rw [served_cons]
    cases shown : (s.step step).served? on with
    | none =>
      rw [shown] at advances
      exact later advances.idles.balancer
    | some x =>
      rw [shown] at advances
      obtain ⟨_, same, clock⟩ := advances.takes two
      refine List.forall_mem_cons.2 ⟨?_, later same⟩
      rw [clock]
      exact ⟨Int.le_refl _, first.trans rest.le_after⟩

theorem lt_of_forced {c : Clock} (past : c.value ≤ s.clock.value) {generation place : Nat}
    (old : generation ≤ p.generation)
    (recent : p.generation = generation → c.stamp ≤ p.pool.lastPick place) :
    ∀ x ∈ s.served on steps, x.forced = true → x.ticket.generation = generation →
      x.ticket.place = place → c.value + forceAfter < x.clock.value := by
  induction steps generalizing s p with
  | nil => simp
  | cons step steps ih =>
    obtain ⟨q, there, advances⟩ := advances_step here step
    obtain ⟨first, rest⟩ := forward
    rw [served_cons]
    cases shown : (s.step step).served? on with
    | none =>
      rw [shown] at advances
      have idles := advances.idles
      refine ih there (idles.balancer.trans two) rest (past.trans first)
        (old.trans idles.generation) fun same => ?_
      have still : p.generation = generation := by
        have later := idles.generation
        omega
      rw [idles.lastPick (same.trans still.symm)]
      exact recent still
    | some x =>
      rw [shown] at advances
      obtain ⟨takes, same, clock⟩ := advances.takes two
      refine List.forall_mem_cons.2 ⟨fun forced current stands => ?_, ?_⟩
      · have since : c.stamp ≤ p.pool.lastPick x.ticket.place := by
          rw [stands]
          exact recent (takes.current.symm.trans current)
        have starved := takes.idle forced
        rw [Pool.idle_eq] at starved
        have far := Idle.lt_of_exceeds_since (c.stamp_pos.trans_le since) starved
        have near := Clock.stamp_sub_stamp_le past
        rw [clock]
        rw [now] at far
        omega
      · refine ih there (same.trans two) rest (past.trans first)
          (old.trans takes.generation.ge) fun current => ?_
        rw [takes.lastPick]
        split
        · exact Clock.stamp_mono past
        · exact recent (takes.generation.symm.trans current)

theorem spaced_served : (s.served on steps).Pairwise (Served.Spaced forceAfter) := by
  induction steps generalizing s p with
  | nil => exact List.Pairwise.nil
  | cons step steps ih =>
    obtain ⟨q, there, advances⟩ := advances_step here step
    obtain ⟨first, rest⟩ := forward
    rw [served_cons]
    cases shown : (s.step step).served? on with
    | none =>
      rw [shown] at advances
      exact ih there (advances.idles.balancer.trans two) rest
    | some x =>
      rw [shown] at advances
      obtain ⟨takes, same, clock⟩ := advances.takes two
      have two' := same.trans two
      refine List.pairwise_cons.2 ⟨?_, ih there two' rest⟩
      refine lt_of_forced there two' rest (c := x.clock) (clock ▸ first)
        (takes.current.trans takes.generation.symm).le fun _ => ?_
      rw [takes.lastPick, if_pos rfl, clock]
      exact Int.le_refl _

theorem countP_forced_le (unapplied : ∀ step ∈ steps, step.applied? on = none)
    (short : (s.after steps).clock.value ≤ s.clock.value + forceAfter) :
    (s.served on steps).countP Served.forced ≤ p.pool.nodes.length := by
  have spaced := spaced_served here two forward
  have clock := clock_served here two forward
  have current := current_served here unapplied two
  generalize s.served on steps = xs at *
  have within {x : Served} (member : x ∈ xs.filter Served.forced) : x ∈ xs ∧ x.forced = true :=
    List.mem_filter.1 member
  have distinct : ((xs.filter Served.forced).map fun x => x.ticket.place).Nodup := by
    refine List.pairwise_map.2
      (List.Pairwise.imp_of_mem ?_ (spaced.sublist List.filter_sublist))
    intro x y former latter far same
    obtain ⟨former, _⟩ := within former
    obtain ⟨latter, forced⟩ := within latter
    have apart := far forced ((current y latter).1.trans (current x former).1.symm) same.symm
    have start := (clock x former).1
    have finish := (clock y latter).2
    omega
  have places : ((xs.filter Served.forced).map fun x => x.ticket.place) ⊆
      List.range p.pool.nodes.length := by
    intro place member
    obtain ⟨x, listed, rfl⟩ := List.mem_map.1 member
    exact List.mem_range.2 (current x (within listed).1).2
  have few := (List.subperm_of_subset distinct places).length_le
  rwa [List.length_map, List.length_range, ← List.countP_eq_length_filter] at few

end

/-- A candidate that is forced was not picked in any way within the limit before, so it is not
forced twice within it. Between two applies the forced selections of any stretch that is no longer
than the limit are at most as many as the candidates. -/
theorem forced_spaced {b : Blueprint} {forceAfter : Nat} {forcing : Bool}
    (two : b.balancer = .twoChoices forceAfter forcing) {count on : Nat} (inside : on < count)
    {steps : List Step} (forward : (ofBlueprint b count).Forward steps) :
    let s := ofBlueprint b count
    (s.served on steps).Pairwise (Served.Spaced forceAfter) ∧
      ∀ first stretch rest, steps = first ++ (stretch ++ rest) →
        (∀ step ∈ stretch, step.applied? on = none) →
        (s.after (first ++ stretch)).clock.value ≤ (s.after first).clock.value + forceAfter →
        ((s.after first).served on stretch).countP Served.forced ≤
          ((lastApplied? on first).getD []).length := by
  intro s
  have build : s.selector? on = some b.build := by simp [s, ofBlueprint, selector?, inside]
  refine ⟨spaced_served build two forward, fun first stretch rest split unapplied short => ?_⟩
  obtain ⟨p, here, moves⟩ := moves_ofBlueprint b inside first
  obtain ⟨q, there, nodes⟩ := nodes_after b inside first
  rw [here, Option.some.injEq] at there
  have other : b.build.algorithm ≠ .rotation := Selector.algorithm_ne_rotation two
  rw [split, forward_append, forward_append] at forward
  rw [after_append] at short
  rw [← nodes, ← there]
  exact countP_forced_le here ((moves.balancer other).trans two) forward.2.1 unapplied short

/-- Both candidates run out in the meantime, and each of them is forced once. -/
theorem forced_spaced_twins :
    let s := ofBlueprint ⟨.fixed 100, .twoChoices 10 false⟩ 1
    let nodes := [Node.bare "http" "a", Node.bare "http" "b"]
    let select (a b : Nat) := Step.select 0 .empty ⟨(a, b), 0⟩
    let first := [.apply 0 nodes, select 0 1, select 0 1, .advanceClock 20]
    let stretch := [select 0 1, .advanceClock 10, select 1 0, select 0 1]
    s.Forward (first ++ stretch) ∧
      (s.served 0 (first ++ stretch)).map Served.forced = [true, false, true, true, false] ∧
      (s.served 0 (first ++ stretch)).Pairwise (Served.Spaced 10) ∧
      ((s.after first).served 0 stretch).countP Served.forced ≤ 2 := by
  intro s nodes select first stretch
  have forward : s.Forward (first ++ stretch) :=
    ⟨by decide, by decide, by decide, by decide, by decide, by decide, by decide, by decide,
      trivial⟩
  obtain ⟨spaced, few⟩ := forced_spaced rfl Nat.one_pos forward
  refine ⟨forward, by decide, spaced, few first stretch [] (by simp) ?_ (by decide)⟩
  simp [stretch, select, Step.applied?]

end Session
end NodeSelection
