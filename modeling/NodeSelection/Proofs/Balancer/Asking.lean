import NodeSelection.Proofs.Balancer.Duel
import NodeSelection.Proofs.Ewma.Runs

/-! Questions for load and weight, all of them put at one time. The first one may renew the
prediction of the candidate it is put to; the scan is too recent then for any other, so every
answer is the one that would have been given to the first question. Candidates do not see each
other's, so the order of the questions, and how often each is put, makes no difference to any
answer or state. -/

namespace NodeSelection

namespace Ewma.Stats
variable (t : Tuning Float) (s : Stats Float) {now : Int} {acts : List Act}

theorem load_refresh (now : Int) : (s.refresh now).load t now = s.load t now := by
  rw [load, load, refresh_refresh]

theorem weight_refresh (now : Int) : (s.refresh now).weight t now = s.weight t now := by
  simp only [weight, load_refresh, weightOf_refresh]

theorem run_refresh_of_queries (queries : ∀ act ∈ acts, act.queryTime? = some now) :
    (s.refresh now).run t acts = s.refresh now := by
  induction acts with
  | nil => rfl
  | cons act rest ih =>
    obtain ⟨first, others⟩ := List.forall_mem_cons.1 queries
    rw [run_cons, step_of_query t _ first, refresh_refresh, ih others]

theorem run_of_queries (asked : acts ≠ []) (queries : ∀ act ∈ acts, act.queryTime? = some now) :
    s.run t acts = s.refresh now := by
  cases acts with
  | nil => exact absurd rfl asked
  | cons act rest =>
    obtain ⟨first, others⟩ := List.forall_mem_cons.1 queries
    rw [run_cons, step_of_query t s first, run_refresh_of_queries t s others]

end Ewma.Stats

namespace Pool

theorem eq_of_get? {p q : Pool} (same : ∀ place, p.get? place = q.get? place) : p = q :=
  congrArg Pool.mk (List.ext_getElem? same)

theorem get?_weigh (p : Pool) (place other : Nat) (now : Int) :
    (p.weigh place now).2.get? other =
      (p.get? other).map fun c => if other = place then (c.weigh now).2 else c := by
  by_cases same : other = place
  · subst same
    cases here : p.get? other with
    | none =>
      rw [weigh, here, Option.map_none]
      exact here
    | some c =>
      rw [weigh, here, Option.map_some, if_pos rfl]
      exact get?_set_self (List.getElem?_eq_some_iff.1 here).1 _
  · simp only [get?_weigh_of_ne p (Ne.symm same), if_neg same, Option.map_id']

/-- Candidates that were asked, however often, have been asked once; the others have not changed. -/
theorem get?_weighAll (p : Pool) (now : Int) (places : List Nat) (place : Nat) :
    (p.weighAll now places).2.get? place =
      (p.get? place).map fun c => if place ∈ places then (c.weigh now).2 else c := by
  induction places generalizing p with
  | nil => simp [weighAll]
  | cons first rest ih =>
    rw [weighAll, ih, get?_weigh, Option.map_map]
    refine congrArg (fun f => (p.get? place).map f) (funext fun c => ?_)
    dsimp only [Function.comp_apply]
    by_cases asked : place = first
    · rw [if_pos asked, if_pos (List.mem_cons.2 (Or.inl asked)), c.weigh_weigh, ite_self]
    · simp only [List.mem_cons, asked, false_or, if_false]

theorem weights_weighAll (p : Pool) (now : Int) (places : List Nat) :
    (p.weighAll now places).1 = places.map fun place => p.weightAt place now := by
  induction places generalizing p with
  | nil => rfl
  | cons first rest ih =>
    have others : (rest.map fun place => (p.weigh first now).2.weightAt place now) =
        rest.map fun place => p.weightAt place now :=
      List.map_congr_left fun place _ => p.weight_weigh first place now
    rw [weighAll, ih, others]
    rfl

end Pool

open Ewma in
/-- One candidate gives one answer at one time, and any questions leave it as the first one does.
Several candidates answer what they would have answered alone. -/
theorem queries_agree (now : Int) :
    (∀ (t : Tuning Float) (s : Stats Float) (acts : List Act),
      (∀ act ∈ acts, act = .load now ∨ act = .weigh now) →
        (s.run t acts).load t now = s.load t now ∧ (s.run t acts).weight t now = s.weight t now ∧
        (acts ≠ [] → s.run t acts = (s.load t now).2 ∧ s.run t acts = (s.weight t now).2)) ∧
      ∀ (p : Pool) (places : List Nat),
        (p.weighAll now places).1 = places.map (fun place => (p.weigh place now).1) ∧
        (∀ place, (p.weighAll now places).2.get? place =
          if place ∈ places then (p.weigh place now).2.get? place else p.get? place) ∧
        ∀ others, (∀ place, place ∈ others ↔ place ∈ places) →
          (p.weighAll now others).2 = (p.weighAll now places).2 := by
  refine ⟨fun t s acts queries => ?_, fun p places => ⟨?_, fun place => ?_, fun others same => ?_⟩⟩
  · have asks : ∀ act ∈ acts, act.queryTime? = some now := fun act member =>
      Act.queryTime?_eq_some_iff.2 (queries act member)
    by_cases none : acts = []
    · rw [none]
      exact ⟨rfl, rfl, fun some => absurd rfl some⟩
    · rw [s.run_of_queries t none asks]
      exact ⟨s.load_refresh t now, s.weight_refresh t now, fun _ => ⟨rfl, rfl⟩⟩
  · exact p.weights_weighAll now places
  · rw [p.get?_weighAll, p.get?_weigh]
    split
    · simp only [if_true]
    · exact Option.map_id'
  · refine Pool.eq_of_get? fun place => ?_
    rw [p.get?_weighAll, p.get?_weighAll]
    simp only [same]

end NodeSelection
