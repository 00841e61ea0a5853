import NodeSelection.Proofs.Balancer.Registration

/-! A pick reaches one candidate only. All that a balancer does to the others is to ask
some of them for their weights; asked twice at one time a candidate answers from the state
that the first question left. -/

namespace NodeSelection

namespace Ewma.Stats
variable {α : Type}

theorem scanDue_scanned (s : Stats α) (now predicted : Int) :
    ({ s with predictedAt := now, predicted } : Stats α).scanDue now = false := by
  have least := minScanInterval_le_scanInterval s.lag
  simp only [scanDue, Stamp.age, Int.sub_self, Word.clampSigned, Word.minSigned, Word.maxSigned,
    minScanInterval, decide_eq_false_iff_not] at least ⊢
  omega

theorem refresh_refresh (s : Stats α) (now : Int) :
    (s.refresh now).refresh now = s.refresh now := by
  cases due : s.scanDue now with
  | true => rw [refresh, refresh, if_pos due, scanDue_scanned, if_neg Bool.false_ne_true]
  | false => rw [refresh, refresh, due, if_neg Bool.false_ne_true, due, if_neg Bool.false_ne_true]

end Ewma.Stats

namespace Candidate

def Asked (now : Int) (c d : Candidate) : Prop := d = c ∨ d = (c.weigh now).2

theorem weigh_weigh (c : Candidate) (now : Int) : ((c.weigh now).2.weigh now).2 = (c.weigh now).2 := by
  cases c with
  | fixed node defaultWeight lastPick => rfl
  | adaptive node tuning stats =>
    simp only [weigh, Ewma.Stats.weight, Ewma.Stats.load, Ewma.Stats.refresh_refresh]

theorem Asked.refl (now : Int) (c : Candidate) : Asked now c c := Or.inl rfl

theorem Asked.weigh {now : Int} {c d : Candidate} (asked : Asked now c d) :
    Asked now c (d.weigh now).2 := by
  cases asked with
  | inl same => exact Or.inr (by rw [same])
  | inr once => exact Or.inr (by rw [once, weigh_weigh])

theorem Asked.node {now : Int} {c d : Candidate} (asked : Asked now c d) : d.node = c.node := by
  cases asked with
  | inl same => rw [same]
  | inr once => rw [once, node_weigh]

end Candidate

namespace Pool

def nodes (p : Pool) : List Node := p.candidates.map Candidate.node

theorem nodes_getElem? (p : Pool) (place : Nat) : p.nodes[place]? = (p.get? place).map Candidate.node :=
  List.getElem?_map

@[simp]
theorem nodes_pool (w : Wrapping) (nodes : List Node) : (w.pool nodes).nodes = nodes := by
  simp [Pool.nodes, Wrapping.pool, Function.comp_def]

/-- Some candidates of a pool were asked for their weights and nothing else has happened to it. -/
structure Asked (now : Int) (p q : Pool) : Prop where
  size : q.size = p.size
  each : ∀ place c, p.get? place = some c → ∃ d, q.get? place = some d ∧ c.Asked now d

theorem Asked.refl (now : Int) (p : Pool) : Asked now p p :=
  ⟨rfl, fun _ c here => ⟨c, here, .refl now c⟩⟩

theorem Asked.weigh {now : Int} {p q : Pool} (asked : Asked now p q) (place : Nat) :
    Asked now p (q.weigh place now).2 := by
  refine ⟨by rw [size_weigh, asked.size], fun other c here => ?_⟩
  obtain ⟨d, there, one⟩ := asked.each other c here
  by_cases same : place = other
  · subst same
    rw [Pool.weigh, there]
    exact ⟨_, get?_set_self (List.getElem?_eq_some_iff.1 there).1 _, one.weigh⟩
  · rw [get?_weigh_of_ne q same]
    exact ⟨d, there, one⟩

theorem Asked.weighAll {now : Int} {p q : Pool} (asked : Asked now p q) (places : List Nat) :
    Asked now p (q.weighAll now places).2 := by
  induction places generalizing q with
  | nil => exact asked
  | cons place rest ih => exact ih (asked.weigh place)

/-- One candidate was picked, perhaps after it was asked for its weight, and knows the call by a
number. -/
structure PickedAt (now : Int) (p : Pool) (place number : Nat) (q : Pool) : Prop where
  size : q.size = p.size
  picked : ∃ c d, p.get? place = some c ∧ c.Asked now d ∧ q.get? place = some (d.pick now).1 ∧
    number = (d.pick now).2
  others : ∀ other c, other ≠ place → p.get? other = some c →
    ∃ d, q.get? other = some d ∧ c.Asked now d

theorem Asked.pick {now : Int} {p q : Pool} (asked : Asked now p q) {place : Nat}
    (inside : place < p.size) : PickedAt now p place (q.pick place now).2 (q.pick place now).1 := by
  obtain ⟨c, here⟩ : ∃ c, p.get? place = some c := ⟨_, List.getElem?_eq_getElem inside⟩
  obtain ⟨d, there, one⟩ := asked.each place c here
  refine ⟨by rw [size_pick, asked.size], ⟨c, d, here, one, ?_, ?_⟩, fun other e ne found => ?_⟩
  · rw [Pool.pick, there]
    exact get?_set_self (List.getElem?_eq_some_iff.1 there).1 _
  · rw [Pool.pick, there]
  · rw [get?_pick_of_ne q (Ne.symm ne)]
    exact asked.each other e found

theorem exists_before {p q : Pool} {R : Nat → Candidate → Candidate → Prop} (size : q.size = p.size)
    (each : ∀ place c, p.get? place = some c → ∃ d, q.get? place = some d ∧ R place c d)
    {place : Nat} {d : Candidate} (there : q.get? place = some d) :
    ∃ c, p.get? place = some c ∧ R place c d := by
  have inside : place < p.size := by
    rw [← size]
    exact (List.getElem?_eq_some_iff.1 there).1
  have here : p.get? place = some p.candidates[place] := List.getElem?_eq_getElem inside
  obtain ⟨e, found, related⟩ := each place _ here
  rw [there, Option.some.injEq] at found
  exact ⟨_, here, found ▸ related⟩

theorem nodes_eq {p q : Pool} (size : q.size = p.size)
    (each : ∀ place c, p.get? place = some c → ∃ d, q.get? place = some d ∧ d.node = c.node) :
    q.nodes = p.nodes := by
  refine List.ext_getElem? fun place => ?_
  rw [nodes_getElem?, nodes_getElem?]
  cases here : p.get? place with
  | none =>
    have outside : p.size ≤ place := List.getElem?_eq_none_iff.1 here
    rw [← size] at outside
    rw [get?, List.getElem?_eq_none outside]
  | some c =>
    obtain ⟨d, there, same⟩ := each place c here
    rw [there, Option.map_some, Option.map_some, same]

theorem Asked.nodes {now : Int} {p q : Pool} (asked : Asked now p q) : q.nodes = p.nodes := by
  refine nodes_eq asked.size fun place c here => ?_
  obtain ⟨d, there, one⟩ := asked.each place c here
  exact ⟨d, there, one.node⟩

theorem PickedAt.nodes {now : Int} {p q : Pool} {place number : Nat}
    (picked : PickedAt now p place number q) : q.nodes = p.nodes := by
  refine nodes_eq picked.size fun other c here => ?_
  by_cases same : other = place
  · obtain ⟨_, d, first, asked, there, _⟩ := picked.picked
    rw [same, first] at here
    cases here
    exact ⟨_, same ▸ there, (Candidate.node_pick d now).trans asked.node⟩
  · obtain ⟨d, there, asked⟩ := picked.others other c same here
    exact ⟨d, there, asked.node⟩

end Pool

namespace Balancer

theorem asked_of_choose {b : Balancer} {p : Pool} {places : List Nat} {now : Int} {draw : Draw}
    {c : Choice} (chosen : b.choose p places now draw = some c) : p.Asked now c.pool := by
  have still := Pool.Asked.refl now p
  cases places with
  | nil => cases chosen
  | cons first rest =>
    cases b with
    | twoChoices forceAfter forcing =>
      simp only [choose] at chosen
      split at chosen
      · cases chosen
        exact still
      · cases chosen
        rw [chooseOfTwo, duel]
        split <;> split <;> exact (still.weigh _).weigh _
    | rotation state =>
      cases chosen
      exact still.weighAll _
    | uniform =>
      cases chosen
      exact still

theorem pick_nil (b : Balancer) (p : Pool) (now : Int) (draw : Draw) :
    b.pick p [] now draw = .error .noAvailableNode := rfl

theorem exists_pick (b : Balancer) {p : Pool} {places : List Nat} (some : places ≠ [])
    (inside : ∀ place ∈ places, place < p.size) (now : Int) (draw : Draw) :
    ∃ r, b.pick p places now draw = .ok r ∧ r.place ∈ places ∧
      p.PickedAt now r.place r.number r.pool := by
  cases chosen : b.choose p places now draw with
  | none => exact absurd (choose_eq_none_iff.1 chosen) some
  | some c =>
    have place := (chosen_of_choose chosen).place
    refine ⟨register c now, ?_, place, (asked_of_choose chosen).pick (inside _ place)⟩
    rw [pick, chosen]

theorem balancer_of_pick {b : Balancer} {p : Pool} {places : List Nat} {now : Int} {draw : Draw}
    {r : Pick} (other : b.algorithm ≠ .rotation) (picked : b.pick p places now draw = .ok r) :
    r.balancer = b := by
  obtain ⟨c, chosen, rfl⟩ := exists_choose_of_pick picked
  cases places with
  | nil => cases chosen
  | cons first rest =>
    cases b with
    | twoChoices forceAfter forcing =>
      simp only [choose] at chosen
      split at chosen
      · cases chosen
        rfl
      · cases chosen
        rw [register, chooseOfTwo]
        split <;> rfl
    | rotation state => exact absurd rfl other
    | uniform =>
      cases chosen
      rfl

end Balancer
end NodeSelection
