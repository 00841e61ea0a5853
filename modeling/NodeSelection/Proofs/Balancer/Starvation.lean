import Mathlib
import NodeSelection.Proofs.Balancer.Registration

/-! Starvation in the choice between two. A pick passes a candidate over that has been
idle for too long only where it is the heavier of two that both have, and then it takes
the other one. That one is idle no more, so it can do the same again only when the whole
time has passed once more, and within that time the others run out. -/

namespace NodeSelection

/-- What may become of candidates between two picks of a balancer: anything, but no last pick
moves back. -/
structure Pool.Later (p q : Pool) : Prop where
  size : q.size = p.size
  lastPick : ∀ place, p.lastPick place ≤ q.lastPick place

theorem Pool.Later.refl (p : Pool) : p.Later p := ⟨rfl, fun _ => Int.le_refl _⟩

theorem Pool.Later.inside {p q : Pool} {places : List Nat} (later : p.Later q)
    (inside : ∀ place ∈ places, place < p.size) : ∀ place ∈ places, place < q.size := by
  rw [later.size]
  exact inside

/-- One pick: when it comes, what chance has drawn for it, how it finds the candidates and what it
returns. -/
structure Round where
  clock : Clock
  draw : Draw
  pool : Pool
  pick : Pick

namespace Round

def now (r : Round) : Int := r.clock.stamp

def Draws (places : List Nat) (place : Nat) (r : Round) : Prop :=
  places[r.draw.pair.1]? = some place ∨ places[r.draw.pair.2]? = some place

def duel (places : List Nat) (r : Round) : Balancer.Duel :=
  match places with
  | [] => ⟨0, 0, r.pool⟩
  | first :: rest =>
    Balancer.duel r.pool (Balancer.atOr first rest r.draw.pair.1)
      (Balancer.atOr first rest r.draw.pair.2) r.now

end Round

/-- Picks among the candidates at some places, one after the other, in a time that does not run
backwards. -/
inductive Rounds (places : List Nat) : Balancer → Pool → Clock → List Round → Prop
  | nil (b : Balancer) (p : Pool) (c : Clock) : Rounds places b p c []
  | cons {b : Balancer} {p : Pool} {c : Clock} {r : Round} {rest : List Round}
      (later : p.Later r.pool) (clock : c.value ≤ r.clock.value)
      (picked : b.pick r.pool places r.now r.draw = .ok r.pick)
      (others : Rounds places r.pick.balancer r.pick.pool r.clock rest) :
      Rounds places b p c (r :: rest)

namespace Rounds
variable {places : List Nat} {b : Balancer} {p : Pool} {c : Clock} {rounds : List Round}

theorem inside (run : Rounds places b p c rounds) (inside : ∀ place ∈ places, place < p.size) :
    ∀ r ∈ rounds, ∀ place ∈ places, place < r.pool.size := by
  induction run with
  | nil => exact fun r member => by cases member
  | @cons b p c r rest later clock picked others ih =>
    have within := later.inside inside
    intro s member
    cases member with
    | head => exact within
    | tail _ member => exact ih ((Balancer.picked_of_pick within picked).inside within) s member

theorem le_lastPick (run : Rounds places b p c rounds)
    (inside : ∀ place ∈ places, place < p.size) {place : Nat} {stamp : Int}
    (past : stamp ≤ c.stamp) (since : stamp ≤ p.lastPick place) :
    ∀ r ∈ rounds, stamp ≤ r.pool.lastPick place := by
  induction run with
  | nil => exact fun r member => by cases member
  | @cons b p c r rest later clock picked others ih =>
    have within := later.inside inside
    have registered := Balancer.picked_of_pick within picked
    have here : stamp ≤ r.pool.lastPick place := Int.le_trans since (later.lastPick place)
    have now : stamp ≤ r.clock.stamp := Int.le_trans past (Clock.stamp_mono clock)
    have after : stamp ≤ r.pick.pool.lastPick place := by
      rw [registered.lastPick]
      split
      · exact now
      · exact here
    intro s member
    cases member with
    | head => exact here
    | tail _ member => exact ih (registered.inside within) now after s member

theorem spaced (run : Rounds places b p c rounds) (inside : ∀ place ∈ places, place < p.size)
    (limit : Nat) :
    rounds.Pairwise fun r s =>
      (s.pool.idle r.pick.place s.now).exceeds limit = true → (limit : Int) < s.now - r.now := by
  induction run with
  | nil => exact List.Pairwise.nil
  | @cons b p c r rest later clock picked others ih =>
    have within := later.inside inside
    have registered := Balancer.picked_of_pick within picked
    have still := registered.inside within
    refine List.pairwise_cons.2 ⟨fun s member idle => ?_, ih still⟩
    have recent : r.now ≤ s.pool.lastPick r.pick.place := by
      refine others.le_lastPick still (Int.le_refl _) ?_ s member
      rw [registered.lastPick, if_pos rfl]
      exact Int.le_refl _
    by_contra near
    have pos : 0 < r.now := r.clock.stamp_pos
    rw [Pool.idle_eq, Idle.not_exceeds_since (by omega) (by omega)] at idle
    cases idle

end Rounds

namespace Round
variable {places : List Nat} {place : Nat} {r : Round}

theorem Draws.duel (draws : r.Draws places place) :
    (r.duel places).preferred = place ∨ (r.duel places).other = place := by
  cases places with
  | nil => simp [Draws] at draws
  | cons first rest =>
    have drawn : Balancer.atOr first rest r.draw.pair.1 = place ∨
        Balancer.atOr first rest r.draw.pair.2 = place := by
      refine draws.imp (fun found => ?_) fun found => ?_
      · rw [Balancer.atOr, found, Option.getD_some]
      · rw [Balancer.atOr, found, Option.getD_some]
    rw [Round.duel, Balancer.duel]
    split
    · exact drawn.symm
    · exact drawn

theorem Draws.mem (draws : r.Draws places place) : place ∈ places := by
  cases draws with
  | inl found => exact List.mem_of_getElem? found
  | inr found => exact List.mem_of_getElem? found

theorem idle_duel (r : Round) (places : List Nat) (place : Nat) :
    (r.duel places).pool.idle place r.now = r.pool.idle place r.now := by
  cases places with
  | nil => rfl
  | cons first rest => exact Balancer.idle_duel _ _ _ _ _

theorem pick_twoChoices {forceAfter : Nat} {forcing : Bool} (several : 2 ≤ places.length)
    (picked : (Balancer.twoChoices forceAfter forcing).pick r.pool places r.now r.draw =
      .ok r.pick) :
    r.pick.balancer = .twoChoices forceAfter forcing ∧
      r.pick.place =
        if Balancer.starved forceAfter forcing (r.pool.idle (r.duel places).other r.now) then
          (r.duel places).other
        else (r.duel places).preferred := by
  rw [← idle_duel r places]
  cases places with
  | nil => simp at several
  | cons first rest =>
    cases rest with
    | nil => simp at several
    | cons second rest =>
      simp only [Balancer.pick, Balancer.choose, List.isEmpty_cons, Bool.false_eq_true,
        if_false, Except.ok.injEq] at picked
      rw [← picked, Balancer.register, Balancer.chooseOfTwo]
      dsimp only [duel]
      split
      · rename_i starved
        exact ⟨rfl, (if_pos starved).symm⟩
      · rename_i calm
        exact ⟨rfl, (if_neg calm).symm⟩

theorem passed_over {forceAfter : Nat} (several : 2 ≤ places.length)
    (picked : (Balancer.twoChoices forceAfter false).pick r.pool places r.now r.draw = .ok r.pick)
    (draws : r.Draws places place) (starving : (r.pool.idle place r.now).exceeds forceAfter = true)
    (passed : r.pick.place ≠ place) :
    (r.duel places).preferred = place ∧ r.pick.place = (r.duel places).other ∧
      (r.pool.idle r.pick.place r.now).exceeds forceAfter = true := by
  have chosen := (pick_twoChoices several picked).2
  simp only [Balancer.starved, Bool.not_false, Bool.and_true] at chosen
  split at chosen
  · rename_i other
    rw [chosen] at passed
    rw [chosen]
    exact ⟨draws.duel.resolve_right passed, rfl, other⟩
  · rename_i calm
    rw [chosen] at passed
    have lost := draws.duel.resolve_left passed
    rw [lost] at calm
    exact absurd starving calm

end Round

namespace Rounds
variable {places : List Nat} {p : Pool} {c : Clock} {rounds : List Round} {forceAfter : Nat}

theorem forall_picked {forcing : Bool}
    (run : Rounds places (.twoChoices forceAfter forcing) p c rounds)
    (several : 2 ≤ places.length) : ∀ r ∈ rounds,
      (Balancer.twoChoices forceAfter forcing).pick r.pool places r.now r.draw = .ok r.pick := by
  -- The balancer after a round is the one before it.
  generalize begun : Balancer.twoChoices forceAfter forcing = b at run
  induction run with
  | nil => exact fun r member => by cases member
  | @cons b p c r rest later clock picked others ih =>
    subst begun
    intro s member
    cases member with
    | head => exact picked
    | tail _ member =>
      have same := (Round.pick_twoChoices several picked).1
      have later := ih same.symm s member
      rwa [same] at later

section
variable {x : Nat} {part : List Round} (run : Rounds places (.twoChoices forceAfter false) p c rounds)
  (inside : ∀ place ∈ places, place < p.size) (several : 2 ≤ places.length)
  (among : part.Sublist rounds)
  (starving : ∀ r ∈ part, r.Draws places x ∧ (r.pool.idle x r.now).exceeds forceAfter = true)
include run several among starving

theorem displaced : ∀ r ∈ part, r.pick.place ≠ x →
    (r.duel places).preferred = x ∧ r.pick.place = (r.duel places).other ∧
      (r.pool.idle r.pick.place r.now).exceeds forceAfter = true := by
  intro r member passed
  obtain ⟨draws, idle⟩ := starving r member
  have picked := run.forall_picked several r (among.subset member)
  exact Round.passed_over several picked draws idle passed

include inside

theorem spaced_displaced : (part.filter fun r => r.pick.place ≠ x).Pairwise fun r s =>
    r.pick.place = s.pick.place → (forceAfter : Int) < s.now - r.now := by
  refine List.Pairwise.imp_of_mem ?_
    ((run.spaced inside forceAfter).sublist (List.filter_sublist.trans among))
  intro r s _ member far same
  obtain ⟨listed, passed⟩ := List.mem_filter.1 member
  refine far ?_
  rw [same]
  exact (run.displaced several among starving s listed (of_decide_eq_true passed)).2.2

theorem length_lt_of_passed (close : ∀ r ∈ part, ∀ s ∈ part, s.now - r.now ≤ forceAfter)
    (passed : ∀ r ∈ part, r.pick.place ≠ x) (drawn : x ∈ places) :
    part.length < places.length := by
  have spaced := run.spaced_displaced inside several among starving
  have all : part.filter (fun r => r.pick.place ≠ x) = part :=
    List.filter_eq_self.2 fun r member => decide_eq_true (passed r member)
  rw [all] at spaced
  have distinct : (part.map fun r => r.pick.place).Nodup := by
    refine List.pairwise_map.2 (List.Pairwise.imp_of_mem ?_ spaced)
    intro r s before after far same
    exact absurd (close r before s after) (Int.not_le.2 (far same))
  have others : (part.map fun r => r.pick.place) ⊆ places.erase x := by
    intro place member
    obtain ⟨r, listed, rfl⟩ := List.mem_map.1 member
    have within := run.inside inside r (among.subset listed)
    have picked := run.forall_picked several r (among.subset listed)
    exact (List.mem_erase_of_ne (passed r listed)).2 (Balancer.picked_of_pick within picked).place
  have few := (List.subperm_of_subset distinct others).length_le
  rw [List.length_map, List.length_erase_of_mem drawn] at few
  omega

end

/-- The rounds that draw a starving candidate: each that passes it over takes another starving one
in its place, never the same one twice within the limit. So as many such rounds as there are
candidates do not fit into the limit unless one of them takes it. -/
theorem starving_chosen (run : Rounds places (.twoChoices forceAfter false) p c rounds)
    (inside : ∀ place ∈ places, place < p.size) (several : 2 ≤ places.length) {x : Nat}
    {part : List Round} (among : part.Sublist rounds)
    (starving : ∀ r ∈ part, r.Draws places x ∧ (r.pool.idle x r.now).exceeds forceAfter = true) :
    (∀ r ∈ part, r.pick.place ≠ x →
        (r.duel places).preferred = x ∧ r.pick.place = (r.duel places).other ∧
          (r.pool.idle r.pick.place r.now).exceeds forceAfter = true) ∧
      ((part.filter fun r => r.pick.place ≠ x).Pairwise fun r s =>
        r.pick.place = s.pick.place → (forceAfter : Int) < s.now - r.now) ∧
      (places.length ≤ part.length →
        (∀ r ∈ part, ∀ s ∈ part, s.now - r.now ≤ forceAfter) → ∃ r ∈ part, r.pick.place = x) := by
  refine ⟨run.displaced several among starving, run.spaced_displaced inside several among starving,
    fun enough close => ?_⟩
  by_contra none
  have passed : ∀ r ∈ part, r.pick.place ≠ x := fun r member same => none ⟨r, member, same⟩
  obtain ⟨r, member⟩ := List.exists_mem_of_length_pos (l := part) (by omega)
  have drawn : x ∈ places := (starving r member).1.mem
  have few := run.length_lt_of_passed inside several among starving close passed drawn
  omega

end Rounds

-- Two candidates of equal weight, the first of which was never picked. It is passed over by a
-- round that finds the second idle too, and taken by one that comes soon after.
def twins (first second : Int) : Pool :=
  ⟨[.fixed (Node.bare "http" "a") 100 first, .fixed (Node.bare "http" "b") 100 second]⟩

def Round.forced (clock second : Int) : Round where
  clock := ⟨clock⟩
  draw := ⟨(0, 1), 0⟩
  pool := twins 0 second
  pick := ⟨.twoChoices 10 false, twins 0 (clock + 1), 1, 0,
    [.forced "b" (Idle.since (clock + 1) second)]⟩

def Round.settled (clock second : Int) : Round where
  clock := ⟨clock⟩
  draw := ⟨(0, 1), 0⟩
  pool := twins 0 second
  pick := ⟨.twoChoices 10 false, twins (clock + 1) second, 0, 0, []⟩

theorem Round.starves_twins {r : Round} {second : Int} (draw : r.draw = ⟨(0, 1), 0⟩)
    (pool : r.pool = twins 0 second) :
    r.Draws [0, 1] 0 ∧ (r.pool.idle 0 r.now).exceeds 10 = true := by
  rw [Draws, draw, pool]
  exact ⟨Or.inl rfl, rfl⟩

theorem Rounds.starving_chosen_twins :
    ∃ r ∈ [Round.forced 100 0, Round.settled 105 101], r.pick.place = 0 := by
  have run : Rounds [0, 1] (.twoChoices 10 false) (twins 0 0) ⟨0⟩
      [Round.forced 100 0, Round.settled 105 101] :=
    .cons (.refl _) (by decide) rfl (.cons (.refl _) (by decide) rfl (.nil _ _ _))
  have starving : ∀ r ∈ [Round.forced 100 0, Round.settled 105 101],
      r.Draws [0, 1] 0 ∧ (r.pool.idle 0 r.now).exceeds 10 = true :=
    List.forall_mem_cons.2 ⟨Round.starves_twins rfl rfl,
      List.forall_mem_singleton.2 (Round.starves_twins rfl rfl)⟩
  obtain ⟨_, _, chosen⟩ :=
    run.starving_chosen (by decide) (by decide) (List.Sublist.refl _) starving
  exact chosen (by decide) (by decide)

/-- Rounds further apart than the limit may pass the same candidate over every time. -/
theorem Rounds.starving_passed_over :
    Rounds [0, 1] (.twoChoices 10 false) (twins 0 0) ⟨0⟩
        [Round.forced 100 0, Round.forced 200 101] ∧
      (∀ r ∈ [Round.forced 100 0, Round.forced 200 101],
        r.Draws [0, 1] 0 ∧ (r.pool.idle 0 r.now).exceeds 10 = true) ∧
      ∀ r ∈ [Round.forced 100 0, Round.forced 200 101], r.pick.place ≠ 0 := by
  refine ⟨.cons (.refl _) (by decide) rfl (.cons (.refl _) (by decide) rfl (.nil _ _ _)), ?_,
    by decide⟩
  exact List.forall_mem_cons.2 ⟨Round.starves_twins rfl rfl,
    List.forall_mem_singleton.2 (Round.starves_twins rfl rfl)⟩

end NodeSelection
