import Mathlib.Data.List.Forall2
import NodeSelection.Proofs.Balancer.Exclusive

/-! A small pool inside a large one. Where the places of the small pool are named by references into
the large one, a balancer does to the large one, reference by reference, what it does to the small one
place by place, and it leaves all the rest of the large one as it is. -/

namespace NodeSelection

def Named (refs : List Nat) (ref place : Nat) : Prop := refs[place]? = some ref

theorem Named.mem {refs : List Nat} {ref place : Nat} (named : Named refs ref place) : ref ∈ refs :=
  List.mem_of_getElem? named

theorem named_range (refs : List Nat) : List.Forall₂ (Named refs) refs (List.range refs.length) := by
  refine List.forall₂_iff_get.2 ⟨List.length_range.symm, fun i inside _ => ?_⟩
  rw [List.get_eq_getElem, List.get_eq_getElem, List.getElem_range]
  exact List.getElem?_eq_getElem inside

namespace Pool

/-- A small pool stands in a large one, its places at different references. -/
structure Holds (big : Pool) (refs : List Nat) (small : Pool) : Prop where
  nodup : refs.Nodup
  size : refs.length = small.size
  get? : ∀ {ref place}, Named refs ref place → big.get? ref = small.get? place

/-- What becomes of a large pool when a small one inside becomes another one. -/
structure Follows (big : Pool) (refs : List Nat) (after small : Pool) : Prop where
  holds : after.Holds refs small
  size : after.size = big.size
  others : ∀ ref, ref ∉ refs → after.get? ref = big.get? ref

section
variable {big small : Pool} {refs : List Nat} {ref place : Nat}

theorem Follows.refl (holds : big.Holds refs small) : big.Follows refs big small :=
  ⟨holds, rfl, fun _ _ => rfl⟩

theorem Follows.trans {after later same : Pool} (one : big.Follows refs after small)
    (other : after.Follows refs later same) : big.Follows refs later same :=
  ⟨other.holds, other.size.trans one.size, fun ref outside =>
    (other.others ref outside).trans (one.others ref outside)⟩

variable (holds : big.Holds refs small) (named : Named refs ref place)
include holds named

theorem Holds.exists_candidate :
    ∃ c, big.get? ref = some c ∧ small.get? place = some c := by
  have inside : place < small.size := by
    rw [← holds.size]
    exact (List.getElem?_eq_some_iff.1 named).1
  have here : small.get? place = some small.candidates[place] := List.getElem?_eq_getElem inside
  exact ⟨_, (holds.get? named).trans here, here⟩

theorem Holds.set (c : Candidate) : big.Follows refs (big.set ref c) (small.set place c) := by
  obtain ⟨d, here, there⟩ := holds.exists_candidate named
  refine ⟨⟨holds.nodup, by rw [holds.size, size_set], fun {one at'} other => ?_⟩, size_set _ _ _,
    fun one outside => get?_set_of_ne big (ne_of_mem_of_not_mem named.mem outside) c⟩
  by_cases same : place = at'
  · subst same
    obtain rfl := Option.some.inj (named.symm.trans other)
    rw [get?_set_self (List.getElem?_eq_some_iff.1 here).1,
      get?_set_self (List.getElem?_eq_some_iff.1 there).1]
  · have apart : ref ≠ one := by
      rintro rfl
      obtain ⟨inside, _⟩ := List.getElem?_eq_some_iff.1 named
      exact same ((List.getElem?_inj inside holds.nodup).1 (named.trans other.symm))
    rw [get?_set_of_ne big apart, get?_set_of_ne small same, holds.get? other]

theorem Holds.weigh (now : Int) :
    (big.weigh ref now).1 = (small.weigh place now).1 ∧
      big.Follows refs (big.weigh ref now).2 (small.weigh place now).2 := by
  obtain ⟨c, here, there⟩ := holds.exists_candidate named
  rw [Pool.weigh, Pool.weigh, here, there]
  exact ⟨rfl, holds.set named _⟩

theorem Holds.pick (now : Int) :
    (big.pick ref now).2 = (small.pick place now).2 ∧
      big.Follows refs (big.pick ref now).1 (small.pick place now).1 := by
  obtain ⟨c, here, there⟩ := holds.exists_candidate named
  rw [Pool.pick, Pool.pick, here, there]
  exact ⟨rfl, holds.set named _⟩

theorem Holds.address : big.address ref = small.address place := by
  rw [Pool.address, Pool.address, holds.get? named]

theorem Holds.idle (now : Int) : big.idle ref now = small.idle place now := by
  rw [Pool.idle, Pool.idle, holds.get? named]

end

theorem Holds.candidates {big small : Pool} {refs : List Nat} (holds : big.Holds refs small) :
    refs.filterMap big.get? = small.candidates := by
  have found : refs.map big.get? = small.candidates.map some := by
    refine List.ext_getElem? fun place => ?_
    rw [List.getElem?_map, List.getElem?_map]
    cases named : refs[place]? with
    | none =>
      have outside : small.size ≤ place := by
        rw [← holds.size]
        exact List.getElem?_eq_none_iff.1 named
      rw [List.getElem?_eq_none outside]
      rfl
    | some ref =>
      obtain ⟨c, here, there⟩ := holds.exists_candidate named
      rw [Option.map_some, here, show small.candidates[place]? = some c from there, Option.map_some]
  calc
    refs.filterMap big.get? = (refs.map big.get?).filterMap id := by rw [List.filterMap_map]; rfl
    _ = (small.candidates.map some).filterMap id := by rw [found]
    _ = small.candidates.filterMap some := List.filterMap_map
    _ = small.candidates := List.filterMap_some

theorem Holds.weighAll {big small : Pool} {refs asked places : List Nat}
    (holds : big.Holds refs small) (named : List.Forall₂ (Named refs) asked places) (now : Int) :
    (big.weighAll now asked).1 = (small.weighAll now places).1 ∧
      big.Follows refs (big.weighAll now asked).2 (small.weighAll now places).2 := by
  induction named generalizing big small with
  | nil => exact ⟨rfl, .refl holds⟩
  | cons first _ ih =>
    obtain ⟨weight, one⟩ := holds.weigh first now
    obtain ⟨weights, others⟩ := ih one.holds
    refine ⟨?_, one.trans others⟩
    rw [Pool.weighAll, Pool.weighAll]
    dsimp only
    rw [weight, weights]

end Pool

structure Choice.Follows (big : Pool) (refs : List Nat) (c d : Choice) : Prop where
  balancer : c.balancer = d.balancer
  pool : big.Follows refs c.pool d.pool
  place : Named refs c.place d.place
  events : c.events = d.events

structure Pick.Follows (big : Pool) (refs : List Nat) (p q : Pick) : Prop where
  balancer : p.balancer = q.balancer
  pool : big.Follows refs p.pool q.pool
  place : Named refs p.place q.place
  number : p.number = q.number
  events : p.events = q.events

namespace Balancer

theorem named_atOr {refs asked places : List Nat} {ref place : Nat} (first : Named refs ref place)
    (rest : List.Forall₂ (Named refs) asked places) (index : Nat) :
    Named refs (atOr ref asked index) (atOr place places index) := by
  have both : List.Forall₂ (Named refs) (ref :: asked) (place :: places) := .cons first rest
  rw [atOr, atOr]
  rcases Nat.lt_or_ge index (ref :: asked).length with inside | outside
  · have within : index < (place :: places).length := both.length_eq ▸ inside
    rw [List.getElem?_eq_getElem inside, List.getElem?_eq_getElem within]
    exact (List.forall₂_iff_get.1 both).2 index inside within
  · rw [List.getElem?_eq_none outside, List.getElem?_eq_none (both.length_eq ▸ outside)]
    exact first

theorem register_follows {big : Pool} {refs : List Nat} {c d : Choice}
    (follows : c.Follows big refs d) (now : Int) :
    (register c now).Follows big refs (register d now) := by
  obtain ⟨number, pool⟩ := follows.pool.holds.pick follows.place now
  exact ⟨follows.balancer, follows.pool.trans pool, follows.place, number, follows.events⟩

section
variable {big small : Pool} {refs : List Nat} (holds : big.Holds refs small)
include holds

theorem duel_follows {ref other place against : Nat} (one : Named refs ref place)
    (two : Named refs other against) (now : Int) :
    let d := duel big ref other now
    let e := duel small place against now
    Named refs d.preferred e.preferred ∧ Named refs d.other e.other ∧
      big.Follows refs d.pool e.pool := by
  obtain ⟨later, second⟩ := holds.weigh two now
  obtain ⟨earlier, first⟩ := second.holds.weigh one now
  have pool := second.trans first
  rw [duel, duel, later, earlier]
  split
  · exact ⟨two, one, pool⟩
  · exact ⟨one, two, pool⟩

theorem chooseOfTwo_follows (forceAfter : Nat) (forcing : Bool) {ref other place against : Nat}
    (one : Named refs ref place) (two : Named refs other against) (now : Int) :
    (chooseOfTwo forceAfter forcing big ref other now).Follows big refs
      (chooseOfTwo forceAfter forcing small place against now) := by
  obtain ⟨preferred, loser, pool⟩ := duel_follows holds one two now
  rw [chooseOfTwo, chooseOfTwo, pool.holds.idle loser]
  split
  · refine ⟨rfl, pool, loser, ?_⟩
    dsimp only
    rw [pool.holds.address loser]
  · exact ⟨rfl, pool, preferred, rfl⟩

theorem map_address {asked places : List Nat} (named : List.Forall₂ (Named refs) asked places) :
    asked.map big.address = places.map small.address := by
  induction named with
  | nil => rfl
  | cons first _ ih => rw [List.map_cons, List.map_cons, holds.address first, ih]

theorem chooseByRotation_follows (state : Rotation Float) {asked places : List Nat} {ref place : Nat}
    (first : Named refs ref place) (rest : List.Forall₂ (Named refs) asked places) (now : Int) :
    (chooseByRotation state big ref asked now).Follows big refs
      (chooseByRotation state small place places now) := by
  obtain ⟨weights, pool⟩ := holds.weighAll (.cons first rest) now
  rw [chooseByRotation, chooseByRotation, map_address holds (.cons first rest), weights]
  exact ⟨rfl, pool, named_atOr first rest _, rfl⟩

theorem choose_follows (b : Balancer) {asked places : List Nat}
    (named : List.Forall₂ (Named refs) asked places) (now : Int) (draw : Draw) :
    Option.Rel (Choice.Follows big refs) (b.choose big asked now draw)
      (b.choose small places now draw) := by
  cases named with
  | nil => exact .none
  | @cons ref place asked places first rest =>
    cases b with
    | twoChoices forceAfter forcing =>
      have alone : asked.isEmpty = places.isEmpty := by cases rest <;> rfl
      rw [choose, choose, alone]
      split
      · exact .some ⟨rfl, .refl holds, first, rfl⟩
      · exact .some (chooseOfTwo_follows holds forceAfter forcing (named_atOr first rest _)
          (named_atOr first rest _) now)
    | rotation state => exact .some (chooseByRotation_follows holds state first rest now)
    | uniform => exact .some ⟨rfl, .refl holds, named_atOr first rest _, rfl⟩

/-- A pick by references is the pick by places. -/
theorem pick_follows (b : Balancer) {asked places : List Nat}
    (named : List.Forall₂ (Named refs) asked places) (now : Int) (draw : Draw) :
    (∃ e, b.pick big asked now draw = .error e ∧ b.pick small places now draw = .error e) ∨
      ∃ p q, b.pick big asked now draw = .ok p ∧ b.pick small places now draw = .ok q ∧
        p.Follows big refs q := by
  have chosen := choose_follows holds b named now draw
  rw [pick, pick]
  cases one : b.choose big asked now draw with
  | none =>
    cases other : b.choose small places now draw with
    | none => exact Or.inl ⟨_, rfl, rfl⟩
    | some d =>
      rw [one, other] at chosen
      cases chosen
  | some c =>
    cases other : b.choose small places now draw with
    | none =>
      rw [one, other] at chosen
      cases chosen
    | some d =>
      rw [one, other] at chosen
      cases chosen with
      | some follows => exact Or.inr ⟨_, _, rfl, rfl, register_follows follows now⟩

end

end Balancer
end NodeSelection
