import NodeSelection.Balancer

/-! What a pick leaves behind, whatever the balancer: the candidate it returns is one of
those offered and is the only one whose last pick moves, to the time of the pick. -/

namespace NodeSelection

theorem Clock.stamp_mono {c d : Clock} (le : c.value ≤ d.value) : c.stamp ≤ d.stamp := by
  refine Word.clampSigned_mono ?_
  omega

theorem Idle.not_exceeds_since {limit : Nat} {now stamp : Int} (pos : 0 < stamp)
    (recent : now - stamp ≤ limit) : (Idle.since now stamp).exceeds limit = false := by
  rw [Idle.since, if_neg (by omega), Idle.exceeds, decide_eq_false_iff_not]
  simp only [Stamp.since, Stamp.age, Word.clampSigned, Word.minSigned, Word.maxSigned]
  omega

namespace Pool

def lastPick (p : Pool) (place : Nat) : Int :=
  match p.get? place with
  | some c => c.lastPick
  | none => 0

theorem idle_eq (p : Pool) (place : Nat) (now : Int) :
    p.idle place now = Idle.since now (p.lastPick place) := by
  rw [idle, lastPick]
  cases p.get? place <;> rfl

theorem lastPick_set {p : Pool} {place : Nat} {c d : Candidate} (here : p.get? place = some c)
    (other : Nat) :
    (p.set place d).lastPick other = if other = place then d.lastPick else p.lastPick other := by
  have inside : place < p.size := (List.getElem?_eq_some_iff.1 here).1
  by_cases same : other = place
  · rw [if_pos same, same, lastPick, get?_set_self inside]
  · rw [if_neg same, lastPick, get?_set_of_ne p (Ne.symm same), lastPick]

theorem lastPick_set_eq {p : Pool} {place : Nat} {c d : Candidate} (here : p.get? place = some c)
    (same : d.lastPick = c.lastPick) (other : Nat) :
    (p.set place d).lastPick other = p.lastPick other := by
  rw [lastPick_set here]
  split
  · rename_i own
    rw [own, lastPick, here, same]
  · rfl

@[simp]
theorem lastPick_weigh (p : Pool) (place : Nat) (now : Int) (other : Nat) :
    (p.weigh place now).2.lastPick other = p.lastPick other := by
  rw [weigh]
  cases here : p.get? place with
  | none => rfl
  | some c => exact lastPick_set_eq here (Candidate.lastPick_weigh c now) other

@[simp]
theorem lastPick_weighAll (p : Pool) (now : Int) (places : List Nat) (other : Nat) :
    (p.weighAll now places).2.lastPick other = p.lastPick other := by
  induction places generalizing p with
  | nil => rfl
  | cons place rest ih => rw [weighAll, ih, lastPick_weigh]

@[simp]
theorem lastPick_complete (p : Pool) (place number : Nat) (now : Int) (outcome : Outcome)
    (journal : Journal) (other : Nat) :
    (p.complete place number now outcome journal).1.lastPick other = p.lastPick other := by
  rw [complete]
  cases here : p.get? place with
  | none => rfl
  | some c =>
    exact lastPick_set_eq here (Candidate.lastPick_complete c number now outcome journal) other

theorem lastPick_pick {p : Pool} {place : Nat} (inside : place < p.size) (now : Int)
    (other : Nat) :
    (p.pick place now).1.lastPick other = if other = place then now else p.lastPick other := by
  obtain ⟨c, here⟩ : ∃ c, p.get? place = some c := ⟨_, List.getElem?_eq_getElem inside⟩
  rw [pick, here]
  dsimp only
  rw [lastPick_set here, Candidate.lastPick_pick]

end Pool

namespace Balancer

theorem atOr_mem (first : Nat) (rest : List Nat) (index : Nat) :
    atOr first rest index ∈ first :: rest := by
  rw [atOr]
  cases found : (first :: rest)[index]? with
  | none => exact List.mem_cons_self
  | some place => exact List.mem_of_getElem? found

theorem idle_duel (p : Pool) (a b : Nat) (now : Int) (place : Nat) :
    (duel p a b now).pool.idle place now = p.idle place now := by
  rw [Pool.idle_eq, Pool.idle_eq, duel]
  split <;> simp

structure Chosen (p : Pool) (places : List Nat) (c : Choice) : Prop where
  place : c.place ∈ places
  size : c.pool.size = p.size
  lastPick : ∀ place, c.pool.lastPick place = p.lastPick place

theorem chosen_of_choose {b : Balancer} {p : Pool} {places : List Nat} {now : Int} {draw : Draw}
    {c : Choice} (chosen : b.choose p places now draw = some c) : Chosen p places c := by
  cases places with
  | nil => cases chosen
  | cons first rest =>
    cases b with
    | twoChoices forceAfter forcing =>
      simp only [choose] at chosen
      split at chosen
      · cases chosen
        exact ⟨List.mem_cons_self, rfl, fun _ => rfl⟩
      · cases chosen
        have preferred := atOr_mem first rest
        rw [chooseOfTwo, duel]
        split <;> split <;> exact ⟨preferred _, by simp, by simp⟩
    | rotation state =>
      cases chosen
      exact ⟨atOr_mem first rest _, by simp [chooseByRotation], by simp [chooseByRotation]⟩
    | uniform =>
      cases chosen
      exact ⟨atOr_mem first rest _, rfl, fun _ => rfl⟩

structure Picked (p : Pool) (places : List Nat) (now : Int) (r : Pick) : Prop where
  place : r.place ∈ places
  size : r.pool.size = p.size
  lastPick : ∀ place, r.pool.lastPick place = if place = r.place then now else p.lastPick place

theorem Picked.inside {p : Pool} {places : List Nat} {now : Int} {r : Pick}
    (picked : Picked p places now r) (inside : ∀ place ∈ places, place < p.size) :
    ∀ place ∈ places, place < r.pool.size := by
  rw [picked.size]
  exact inside

theorem exists_choose_of_pick {b : Balancer} {p : Pool} {places : List Nat} {now : Int}
    {draw : Draw} {r : Pick} (picked : b.pick p places now draw = .ok r) :
    ∃ c, b.choose p places now draw = some c ∧ register c now = r := by
  rw [pick] at picked
  split at picked
  · rename_i c choice
    exact ⟨c, choice, Except.ok.inj picked⟩
  · cases picked

theorem picked_of_pick {b : Balancer} {p : Pool} {places : List Nat} {now : Int} {draw : Draw}
    {r : Pick} (inside : ∀ place ∈ places, place < p.size)
    (picked : b.pick p places now draw = .ok r) : Picked p places now r := by
  obtain ⟨c, choice, rfl⟩ := exists_choose_of_pick picked
  have chosen := chosen_of_choose choice
  refine ⟨chosen.place, ?_, fun place => ?_⟩
  · rw [register, Pool.size_pick, chosen.size]
  · have within : c.place < c.pool.size := by
      rw [chosen.size]
      exact inside _ chosen.place
    rw [register]
    dsimp only
    rw [Pool.lastPick_pick within, chosen.lastPick]

end Balancer
end NodeSelection
