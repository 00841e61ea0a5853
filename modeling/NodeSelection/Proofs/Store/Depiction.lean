import Mathlib.Data.List.Nodup
import NodeSelection.Proofs.Session.Latency
import NodeSelection.Proofs.Store.Windows
import NodeSelection.Store

/-! A store of selectors by reference, and a session that has them by value. A layout tells of every
candidate of the store whose it is, in which node set and at which place; no two candidates stand at
one place. That is all it takes for every step to be the same in both (`Depicts.step`), as a step then
reaches only candidates of the selector that it is for. -/

namespace NodeSelection

structure Spot where
  on : Nat
  generation : Nat
  place : Nat
deriving DecidableEq

namespace Selector

theorem candidate?_current {s : Selector} {generation : Nat} (current : generation = s.generation)
    (place : Nat) : s.candidate? generation place = s.pool.get? place := by
  rw [candidate?, generationPool?, if_pos current, Option.bind_some]

theorem candidate?_superseded {s t : Selector} (past : t.past = s.past) {generation : Nat}
    (superseded : generation ≠ s.generation) (place : Nat) :
    t.candidate? generation place = s.candidate? generation place := by
  rw [candidate?, generationPool?_of_past past, if_neg superseded, candidate?]

theorem balancer_complete (s : Selector) (ticket : Ticket) (now : Int) (outcome : Outcome)
    (journal : Journal) : (s.complete ticket now outcome journal).selector.balancer = s.balancer := by
  rw [complete]
  split
  · rfl
  · dsimp only
    rw [setGenerationPool]
    split <;> rfl

theorem candidate?_complete_eq {s : Selector} {ticket : Ticket} {c : Candidate}
    (here : s.candidate? ticket.generation ticket.place = some c) (now : Int) (outcome : Outcome)
    (journal : Journal) (generation place : Nat) :
    (s.complete ticket now outcome journal).selector.candidate? generation place =
      if generation = ticket.generation ∧ place = ticket.place then
        some (c.complete ticket.number now outcome journal).1
      else s.candidate? generation place := by
  obtain ⟨pool, found, inside⟩ := Option.bind_eq_some_iff.1 here
  rw [complete, found]
  dsimp only
  rw [candidate?, generationPool?_setGenerationPool found]
  by_cases set : generation = ticket.generation
  · subst set
    rw [if_pos rfl, Option.bind_some]
    by_cases same : place = ticket.place
    · subst same
      rw [if_pos ⟨rfl, rfl⟩]
      exact Pool.get?_complete_self inside _ _ _ _
    · rw [if_neg fun both => same both.2, candidate?, found]
      exact Pool.get?_complete_of_ne _ (Ne.symm same) _ _ _ _
  · rw [if_neg set, if_neg fun both => set both.1, candidate?]

end Selector

def Session.candidate? (s : Session) (spot : Spot) : Option Candidate :=
  (s.selector? spot.on).bind fun p => p.candidate? spot.generation spot.place

theorem Session.candidate?_eq {s : Session} {on : Nat} {p : Selector}
    (here : s.selector? on = some p) (generation place : Nat) :
    s.candidate? ⟨on, generation, place⟩ = p.candidate? generation place := by
  rw [Session.candidate?, here, Option.bind_some]

namespace Store

structure Names (layout : List Spot) (on : Nat) (p : Selector) (refs : List Nat) : Prop where
  size : refs.length = p.pool.size
  spot : ∀ {ref place}, Named refs ref place → layout[ref]? = some ⟨on, p.generation, place⟩

theorem Names.spot_of_mem {layout : List Spot} {on : Nat} {p : Selector} {refs : List Nat}
    (names : Names layout on p refs) {ref : Nat} {spot : Spot} (found : layout[ref]? = some spot)
    (member : ref ∈ refs) : spot.on = on ∧ spot.generation = p.generation := by
  obtain ⟨place, named⟩ := List.mem_iff_getElem?.1 member
  have same := (names.spot named).symm.trans found
  rw [Option.some.injEq] at same
  rw [← same]
  exact ⟨rfl, rfl⟩

theorem Names.places {layout : List Spot} {on : Nat} {p : Selector} {refs : List Nat}
    (names : Names layout on p refs) : List.Forall₂ (Named refs) refs p.pool.places := by
  rw [Pool.places, ← names.size]
  exact named_range refs

/-- A store holds by reference what a session holds by value. -/
structure Depicts (layout : List Spot) (t : Store) (s : Session) : Prop where
  clock : t.clock = s.clock
  metering : t.metering = s.metering
  journal : t.journal = s.journal
  count : t.selectors.length = s.selectors.length
  balancers : t.balancers.length = s.selectors.length
  nodup : layout.Nodup
  size : layout.length = t.candidates.size
  candidate : ∀ {ref spot}, layout[ref]? = some spot →
    t.candidates.get? ref = s.candidate? spot
  /-- The balancer of a selector has its number, so that none is shared. -/
  selector : ∀ {on p}, s.selector? on = some p → ∃ parts,
    t.selector? on = some (parts, p.wrapping, p.balancer) ∧ parts.balancer = on ∧
      Names layout on p parts.nodes
  next : t.calls.next = s.calls.next
  opened : ∀ {call ref number}, t.calls.get? call = some (ref, number) → ∃ spot,
    layout[ref]? = some spot ∧
      s.calls.get? call = some (spot.on, ⟨spot.generation, spot.place, number⟩)
  closed : ∀ {call}, t.calls.get? call = none → s.calls.get? call = none

section
variable {layout : List Spot} {t : Store} {s : Session} (depicts : Depicts layout t s)
include depicts

theorem Depicts.now : t.now = s.now := by
  rw [Store.now, Session.now, depicts.clock]

theorem Depicts.selector_none {on : Nat} (nobody : s.selector? on = none) :
    t.selector? on = none := by
  have outside : s.selectors.length ≤ on := List.getElem?_eq_none_iff.1 nobody
  rw [← depicts.count] at outside
  rw [Store.selector?, List.getElem?_eq_none outside]
  rfl

theorem Depicts.inj {one other : Nat} {spot : Spot} (first : layout[one]? = some spot)
    (second : layout[other]? = some spot) : one = other := by
  obtain ⟨inside, _⟩ := List.getElem?_eq_some_iff.1 first
  exact (List.getElem?_inj inside depicts.nodup).1 (first.trans second.symm)

theorem Depicts.exists_candidate {ref : Nat} {spot : Spot} (found : layout[ref]? = some spot) :
    ∃ c, t.candidates.get? ref = some c ∧ s.candidate? spot = some c := by
  have inside : ref < t.candidates.size := by
    rw [← depicts.size]
    exact (List.getElem?_eq_some_iff.1 found).1
  have here : t.candidates.get? ref = some t.candidates.candidates[ref] :=
    List.getElem?_eq_getElem inside
  exact ⟨_, here, (depicts.candidate found).symm.trans here⟩

section
variable {on : Nat} {p : Selector} {refs : List Nat} (here : s.selector? on = some p)
  (names : Names layout on p refs)
include here names

theorem Depicts.named {ref place : Nat} (found : layout[ref]? = some ⟨on, p.generation, place⟩) :
    Named refs ref place := by
  obtain ⟨c, _, there⟩ := depicts.exists_candidate found
  rw [Session.candidate?_eq here, Selector.candidate?_current rfl] at there
  have inside : place < refs.length := by
    rw [names.size]
    exact (List.getElem?_eq_some_iff.1 there).1
  have named : Named refs refs[place] place := List.getElem?_eq_getElem inside
  rwa [depicts.inj found (names.spot named)]

theorem Depicts.holds : t.candidates.Holds refs p.pool := by
  refine ⟨List.nodup_iff_getElem?_ne_getElem?.2 fun i j before inside same => ?_, names.size,
    fun {ref place} named => ?_⟩
  · have one : Named refs refs[j] j := List.getElem?_eq_getElem inside
    have other : Named refs refs[j] i := same.trans one
    have spots := (names.spot other).symm.trans (names.spot one)
    rw [Option.some.injEq, Spot.mk.injEq] at spots
    exact Nat.ne_of_lt before spots.2.2
  · rw [depicts.candidate (names.spot named), Session.candidate?_eq here,
      Selector.candidate?_current rfl]

end

end

theorem selector?_eq_some_iff {t : Store} {on : Nat} {parts : Parts} {w : Wrapping} {b : Balancer} :
    t.selector? on = some (parts, w, b) ↔
      t.selectors[on]? = some parts ∧
        (∃ builder, t.builders[parts.builder]? = some builder ∧ builder.wrapping = w) ∧
        t.balancers[parts.balancer]? = some b := by
  simp only [Store.selector?, Option.bind_eq_bind, Option.bind_eq_some_iff, Option.pure_def,
    Option.some.injEq, Prod.mk.injEq]
  constructor
  · rintro ⟨_, found, builder, built, _, held, rfl, rfl, rfl⟩
    exact ⟨found, ⟨builder, built, rfl⟩, held⟩
  · rintro ⟨found, ⟨builder, built, rfl⟩, held⟩
    exact ⟨parts, found, builder, built, b, held, rfl, rfl, rfl⟩

theorem candidate?_setSelector {s : Session} {on : Nat} {p : Selector}
    (here : s.selector? on = some p) (q : Selector) (spot : Spot) :
    (s.setSelector on q).candidate? spot =
      if spot.on = on then q.candidate? spot.generation spot.place else s.candidate? spot := by
  obtain ⟨target, generation, place⟩ := spot
  dsimp only
  by_cases same : target = on
  · subst same
    have set := Session.selector?_setSelector here target q
    rw [if_pos rfl] at set
    rw [if_pos rfl, Session.candidate?_eq set]
  · rw [if_neg same, Session.candidate?, Session.candidate?, Session.selector?, Session.setSelector,
      List.getElem?_set_ne (Ne.symm same), Session.selector?]

section
variable {layout : List Spot} {t : Store} {s : Session} (depicts : Depicts layout t s)
include depicts

/-- A selector may change with its candidates where no others do. -/
theorem Depicts.change {on : Nat} {p q : Selector} (here : s.selector? on = some p) {after : Pool}
    (size : after.size = t.candidates.size) (wrapping : q.wrapping = p.wrapping)
    (generation : q.generation = p.generation) (places : q.pool.size = p.pool.size)
    (own : ∀ {ref generation place}, layout[ref]? = some ⟨on, generation, place⟩ →
      after.get? ref = q.candidate? generation place)
    (others : ∀ {ref spot}, layout[ref]? = some spot → spot.on ≠ on →
      after.get? ref = t.candidates.get? ref) :
    Depicts layout
      { t with candidates := after, balancers := t.balancers.set on q.balancer }
      (s.setSelector on q) where
  clock := depicts.clock
  metering := depicts.metering
  journal := depicts.journal
  count := by rw [Session.setSelector, List.length_set, depicts.count]
  balancers := by rw [Session.setSelector, List.length_set, List.length_set, depicts.balancers]
  nodup := depicts.nodup
  size := depicts.size.trans size.symm
  candidate {ref spot} found := by
    rw [candidate?_setSelector here]
    split
    · rename_i same
      obtain ⟨target, generation, place⟩ := spot
      subst same
      exact own found
    · rename_i other
      rw [← depicts.candidate found]
      exact others found other
  selector {target r} there := by
    by_cases same : target = on
    · subst same
      have set := Session.selector?_setSelector here target q
      rw [if_pos rfl, there, Option.some.injEq] at set
      subst set
      obtain ⟨parts, found, balancer, names⟩ := depicts.selector here
      obtain ⟨listed, built, held⟩ := selector?_eq_some_iff.1 found
      refine ⟨parts, selector?_eq_some_iff.2 ⟨listed, by rw [wrapping]; exact built, ?_⟩, balancer,
        names.size.trans places.symm, fun named => by rw [generation]; exact names.spot named⟩
      rw [balancer] at held ⊢
      exact List.getElem?_set_self (List.getElem?_eq_some_iff.1 held).1
    · have before : s.selector? target = some r := by
        rw [← there]
        exact (List.getElem?_set_ne (Ne.symm same)).symm
      obtain ⟨parts, found, balancer, names⟩ := depicts.selector before
      obtain ⟨listed, built, held⟩ := selector?_eq_some_iff.1 found
      refine ⟨parts, selector?_eq_some_iff.2 ⟨listed, built, ?_⟩, balancer, names⟩
      rw [balancer] at held ⊢
      exact (List.getElem?_set_ne (Ne.symm same)).trans held
  next := depicts.next
  opened := depicts.opened
  closed := depicts.closed

theorem Depicts.follow {on : Nat} {p q : Selector} {refs : List Nat}
    (here : s.selector? on = some p) (names : Names layout on p refs) {after : Pool}
    (follows : t.candidates.Follows refs after q.pool) (wrapping : q.wrapping = p.wrapping)
    (past : q.past = p.past) (size : q.pool.size = p.pool.size) :
    Depicts layout { t with candidates := after, balancers := t.balancers.set on q.balancer }
      (s.setSelector on q) := by
  have generation : q.generation = p.generation := by
    rw [Selector.generation, past, Selector.generation]
  refine depicts.change here follows.size wrapping generation size
    (fun {ref set place} found => ?_) (fun {ref spot} found other => ?_)
  · by_cases current : set = p.generation
    · subst current
      rw [follows.holds.get? (depicts.named here names found),
        Selector.candidate?_current generation.symm]
    · rw [follows.others ref fun member => current (names.spot_of_mem found member).2,
        depicts.candidate found, Session.candidate?_eq here,
        Selector.candidate?_superseded past current]
  · exact follows.others ref fun member => other (names.spot_of_mem found member).1

theorem Depicts.set_balancer {on : Nat} {p : Selector} (here : s.selector? on = some p) :
    t.balancers.set on p.balancer = t.balancers := by
  obtain ⟨parts, found, balancer, _⟩ := depicts.selector here
  obtain ⟨_, _, held⟩ := selector?_eq_some_iff.1 found
  rw [balancer] at held
  obtain ⟨inside, same⟩ := List.getElem?_eq_some_iff.1 held
  rw [← same, List.set_getElem_self]

theorem Depicts.put {ref : Nat} {spot : Spot} (found : layout[ref]? = some spot) (number : Nat) :
    Depicts layout { t with calls := t.calls.put (ref, number) }
      { s with calls := s.calls.put (spot.on, ⟨spot.generation, spot.place, number⟩) } := by
  refine { depicts with next := ?_, opened := ?_, closed := ?_ }
  · rw [Calls.next_put, Calls.next_put, depicts.next]
  · intro call one name opened
    by_cases last : call = t.calls.next
    · rw [last, Calls.get?_put_next] at opened
      cases opened
      exact ⟨spot, found, by rw [last, depicts.next, Calls.get?_put_next]⟩
    · rw [Calls.get?_put_of_ne _ _ last] at opened
      rw [Calls.get?_put_of_ne _ _ (depicts.next ▸ last)]
      exact depicts.opened opened
  · intro call closed
    by_cases last : call = t.calls.next
    · rw [last, Calls.get?_put_next] at closed
      cases closed
    · rw [Calls.get?_put_of_ne _ _ last] at closed
      rw [Calls.get?_put_of_ne _ _ (depicts.next ▸ last)]
      exact depicts.closed closed

theorem Depicts.drop (call : Nat) (journal : Journal) :
    Depicts layout { t with calls := t.calls.drop call, journal := journal }
      { s with calls := s.calls.drop call, journal := journal } := by
  refine { depicts with journal := rfl, next := ?_, opened := ?_, closed := ?_ }
  · rw [Calls.next_drop, Calls.next_drop, depicts.next]
  · intro other ref number opened
    by_cases same : other = call
    · rw [same, Calls.get?_drop_self] at opened
      cases opened
    · rw [Calls.get?_drop_of_ne _ same] at opened ⊢
      exact depicts.opened opened
  · intro other closed
    by_cases same : other = call
    · rw [same, Calls.get?_drop_self]
    · rw [Calls.get?_drop_of_ne _ same] at closed ⊢
      exact depicts.closed closed

end

end Store
end NodeSelection
