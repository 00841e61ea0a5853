import NodeSelection.Proofs.Balancer.Exclusive

/-! The choice between two, decided. Of the two places drawn the second wins only with a strictly
greater weight, and the loser is taken after all if it has been idle for too long and nobody is being
forced. Weights are those before the pick: a question put to one candidate does not change what the
other one answers, nor what it answers itself when it is asked again. -/

namespace NodeSelection

namespace Ewma.Stats
section
variable {α : Type}

def foreseen (s : Stats α) (scanned predicted : Int) : Stats α :=
  { s with predictedAt := scanned, predicted }

theorem exists_foreseen (s : Stats α) (now : Int) :
    ∃ scanned predicted, s.refresh now = s.foreseen scanned predicted := by
  rw [refresh]
  split
  · exact ⟨_, _, rfl⟩
  · exact ⟨s.predictedAt, s.predicted, rfl⟩

/-- One call has begun, under the next number, and nothing else has happened. -/
structure Begins (now : Int) (s t : Stats α) : Prop where
  started : t.openCalls.start? s.requests = some now
  others : ∀ number, number ≠ s.requests → t.openCalls.start? number = s.openCalls.start? number
  requests : t.requests = Word.wrapUnsigned (s.requests + 1)
  inflight : t.inflight = Word.wrapSigned (s.inflight + 1)
  lastPick : t.lastPick = now
  rest : t = { s with
    openCalls := t.openCalls, requests := t.requests, inflight := t.inflight, lastPick := now }

theorem begins_start (s : Stats α) (now : Int) : s.Begins now (s.start now).1 where
  started := s.openCalls.start?_insert_self s.requests now
  others _ other := s.openCalls.start?_insert_of_ne other now
  requests := rfl
  inflight := rfl
  lastPick := rfl
  rest := rfl

end

theorem weightOf_refresh (s : Stats Float) (now : Int) (load : Nat) :
    (s.refresh now).weightOf load = s.weightOf load := by
  rw [refresh]
  split <;> rfl

end Ewma.Stats

namespace Candidate

/-- Candidates that differ in nothing but their predictions. -/
inductive Foreseen : Candidate → Candidate → Prop
  | fixed (node : Node) (defaultWeight lastPick : Int) :
      Foreseen (.fixed node defaultWeight lastPick) (.fixed node defaultWeight lastPick)
  | adaptive (node : Node) (tuning : Ewma.Tuning Float) (stats : Ewma.Stats Float)
      (scanned predicted : Int) :
      Foreseen (.adaptive node tuning stats) (.adaptive node tuning (stats.foreseen scanned predicted))

inductive Begins (now : Int) : Candidate → Candidate → Nat → Prop
  | fixed (node : Node) (defaultWeight lastPick : Int) :
      Begins now (.fixed node defaultWeight lastPick) (.fixed node defaultWeight now) 0
  | adaptive (node : Node) (tuning : Ewma.Tuning Float) {s t : Ewma.Stats Float}
      (begins : s.Begins now t) :
      Begins now (.adaptive node tuning s) (.adaptive node tuning t) s.requests

theorem begins_pick (c : Candidate) (now : Int) : c.Begins now (c.pick now).1 (c.pick now).2 := by
  cases c with
  | fixed node defaultWeight lastPick => exact .fixed node defaultWeight lastPick
  | adaptive node tuning stats => exact .adaptive node tuning (stats.begins_start now)

theorem foreseen_weigh (c : Candidate) (now : Int) : c.Foreseen (c.weigh now).2 := by
  cases c with
  | fixed node defaultWeight lastPick => exact .fixed node defaultWeight lastPick
  | adaptive node tuning stats =>
    obtain ⟨scanned, predicted, same⟩ := stats.exists_foreseen now
    have asked : ((Candidate.adaptive node tuning stats).weigh now).2 =
        .adaptive node tuning (stats.foreseen scanned predicted) := by rw [← same]; rfl
    rw [asked]
    exact .adaptive node tuning stats scanned predicted

theorem Asked.foreseen {now : Int} {c d : Candidate} (asked : Asked now c d) : c.Foreseen d := by
  cases asked with
  | inl same =>
    rw [same]
    cases c with
    | fixed node defaultWeight lastPick => exact .fixed node defaultWeight lastPick
    | adaptive node tuning stats =>
      exact .adaptive node tuning stats stats.predictedAt stats.predicted
  | inr once =>
    rw [once]
    exact c.foreseen_weigh now

theorem weight_weigh (c : Candidate) (now : Int) :
    ((c.weigh now).2.weigh now).1 = (c.weigh now).1 := by
  cases c with
  | fixed node defaultWeight lastPick => rfl
  | adaptive node tuning stats =>
    simp only [weigh, Ewma.Stats.weight, Ewma.Stats.load, Ewma.Stats.refresh_refresh,
      Ewma.Stats.weightOf_refresh]

end Candidate

namespace Pool

def weightAt (p : Pool) (place : Nat) (now : Int) : Float := (p.weigh place now).1

theorem weight_weigh (p : Pool) (asked place : Nat) (now : Int) :
    (p.weigh asked now).2.weightAt place now = p.weightAt place now := by
  rw [weightAt, weightAt]
  by_cases same : asked = place
  · subst same
    cases here : p.get? asked with
    | none => simp only [weigh, here]
    | some c =>
      have inside : asked < p.size := (List.getElem?_eq_some_iff.1 here).1
      simp only [weigh, here, get?_set_self inside, Candidate.weight_weigh]
  · rw [weigh, get?_weigh_of_ne p same now]
    cases here : p.get? place <;> simp only [weigh, here]

theorem address_eq (p : Pool) (place : Nat) :
    p.address place = (p.nodes[place]?.map Node.address).getD "" := by
  rw [address, nodes_getElem?]
  cases p.get? place <;> rfl

theorem Asked.address {now : Int} {p q : Pool} (asked : Asked now p q) (place : Nat) :
    q.address place = p.address place := by
  rw [address_eq, asked.nodes, address_eq]

def lighter (p : Pool) (first second : Nat) (now : Int) : Nat :=
  if p.weightAt first now < p.weightAt second now then first else second

def heavier (p : Pool) (first second : Nat) (now : Int) : Nat :=
  if p.weightAt first now < p.weightAt second now then second else first

end Pool

namespace Balancer

theorem duel_eq (p : Pool) (first second : Nat) (now : Int) :
    duel p first second now = ⟨p.heavier first second now, p.lighter first second now,
      ((p.weigh second now).2.weigh first now).2⟩ := by
  have asked : ((p.weigh second now).2.weigh first now).1 = p.weightAt first now :=
    p.weight_weigh second first now
  rw [duel, asked, Pool.heavier, Pool.lighter, Pool.weightAt, Pool.weightAt]
  split <;> rfl

/-- Whether the loser of two places drawn has to be taken after all. -/
def Overdue (forceAfter : Nat) (forcing : Bool) (p : Pool) (first second : Nat) (now : Int) :
    Prop :=
  (p.idle (p.lighter first second now) now).exceeds forceAfter = true ∧ forcing = false

instance (forceAfter : Nat) (forcing : Bool) (p : Pool) (first second : Nat) (now : Int) :
    Decidable (Overdue forceAfter forcing p first second now) :=
  inferInstanceAs (Decidable (_ ∧ _))

theorem starved_iff {forceAfter : Nat} {forcing : Bool} {p : Pool} {first second : Nat} {now : Int} :
    starved forceAfter forcing (p.idle (p.lighter first second now) now) = true ↔
      Overdue forceAfter forcing p first second now := by
  rw [starved, Overdue, Bool.and_eq_true, Bool.not_eq_true']

theorem chooseOfTwo_eq (forceAfter : Nat) (forcing : Bool) (p : Pool) (first second : Nat)
    (now : Int) :
    chooseOfTwo forceAfter forcing p first second now =
      { balancer := .twoChoices forceAfter forcing
        pool := ((p.weigh second now).2.weigh first now).2
        place :=
          if Overdue forceAfter forcing p first second now then p.lighter first second now
          else p.heavier first second now
        events :=
          if Overdue forceAfter forcing p first second now then
            [.forced (p.address (p.lighter first second now))
              (p.idle (p.lighter first second now) now)]
          else [] } := by
  have idle := idle_duel p first second now (p.lighter first second now)
  have address := ((Pool.Asked.refl now p).weigh second |>.weigh first).address
    (p.lighter first second now)
  rw [duel_eq] at idle
  rw [chooseOfTwo, duel_eq]
  dsimp only at idle ⊢
  rw [idle, address]
  by_cases overdue : Overdue forceAfter forcing p first second now
  · rw [if_pos (starved_iff.2 overdue), if_pos overdue, if_pos overdue]
  · rw [if_neg (mt starved_iff.1 overdue), if_neg overdue, if_neg overdue]

theorem lighter_or_heavier (p : Pool) (first second : Nat) (now : Int) :
    (p.lighter first second now = first ∧ p.heavier first second now = second) ∨
      (p.lighter first second now = second ∧ p.heavier first second now = first) := by
  rw [Pool.lighter, Pool.heavier]
  split
  · exact Or.inl ⟨rfl, rfl⟩
  · exact Or.inr ⟨rfl, rfl⟩

theorem decided_eq_or_eq (forceAfter : Nat) (forcing : Bool) (p : Pool) (first second : Nat)
    (now : Int) :
    let decided := if Overdue forceAfter forcing p first second now then p.lighter first second now
      else p.heavier first second now
    decided = first ∨ decided = second := by
  intro decided
  dsimp only [decided]
  rcases lighter_or_heavier p first second now with ⟨lighter, heavier⟩ | ⟨lighter, heavier⟩
  · rw [lighter, heavier]
    split
    · exact Or.inl rfl
    · exact Or.inr rfl
  · rw [lighter, heavier]
    split
    · exact Or.inr rfl
    · exact Or.inl rfl

structure PicksOfTwo (forceAfter : Nat) (forcing : Bool) (p : Pool) (first second : Nat) (now : Int)
    (r : Pick) : Prop where
  place : r.place =
    if Overdue forceAfter forcing p first second now then p.lighter first second now
    else p.heavier first second now
  balancer : r.balancer = .twoChoices forceAfter forcing
  events : r.events =
    if Overdue forceAfter forcing p first second now then
      [.forced (p.address (p.lighter first second now)) (p.idle (p.lighter first second now) now)]
    else []
  size : r.pool.size = p.size
  undrawn : ∀ other, other ≠ first → other ≠ second → r.pool.get? other = p.get? other
  passed : ∀ other c, other ≠ r.place → p.get? other = some c →
    ∃ d, r.pool.get? other = some d ∧ c.Foreseen d
  picked : ∃ c d e, p.get? r.place = some c ∧ c.Foreseen d ∧ d.Begins now e r.number ∧
    r.pool.get? r.place = some e

namespace PicksOfTwo
variable {forceAfter : Nat} {forcing : Bool} {p : Pool} {first second : Nat} {now : Int} {r : Pick}

theorem drawn (picks : PicksOfTwo forceAfter forcing p first second now r) :
    r.place = first ∨ r.place = second := by
  rw [picks.place]
  exact decided_eq_or_eq forceAfter forcing p first second now

theorem place_eq_lighter_iff (picks : PicksOfTwo forceAfter forcing p first second now r)
    (ne : first ≠ second) :
    r.place = p.lighter first second now ↔ Overdue forceAfter forcing p first second now := by
  have apart : p.heavier first second now ≠ p.lighter first second now := by
    rcases lighter_or_heavier p first second now with ⟨lighter, heavier⟩ | ⟨lighter, heavier⟩
    · rw [lighter, heavier]
      exact ne.symm
    · rw [lighter, heavier]
      exact ne
  rw [picks.place]
  split
  · rename_i overdue
    exact ⟨fun _ => overdue, fun _ => rfl⟩
  · rename_i calm
    exact ⟨fun same => absurd same apart, fun overdue => absurd overdue calm⟩

end PicksOfTwo

theorem picksOfTwo_register {p : Pool} {first second : Nat} (one : first < p.size)
    (other : second < p.size) (forceAfter : Nat) (forcing : Bool) (now : Int) :
    PicksOfTwo forceAfter forcing p first second now
      (register (chooseOfTwo forceAfter forcing p first second now) now) := by
  rw [chooseOfTwo_eq, register]
  dsimp only
  have asked := ((Pool.Asked.refl now p).weigh second).weigh first
  have drawn := decided_eq_or_eq forceAfter forcing p first second now
  dsimp only at drawn
  generalize chosen : (if Overdue forceAfter forcing p first second now then
    p.lighter first second now else p.heavier first second now) = place at drawn ⊢
  have inside : place < p.size := by
    cases drawn with
    | inl same => rwa [same]
    | inr same => rwa [same]
  have picked := asked.pick inside
  refine ⟨chosen.symm, rfl, rfl, picked.size, fun bystander first second => ?_,
    fun passed c ne here => ?_, ?_⟩
  · have ne : place ≠ bystander := by
      cases drawn with
      | inl same => rw [same]; exact first.symm
      | inr same => rw [same]; exact second.symm
    rw [Pool.get?_pick_of_ne _ ne, Pool.get?_weigh_of_ne _ first.symm,
      Pool.get?_weigh_of_ne _ second.symm]
  · obtain ⟨d, there, one⟩ := picked.others passed c ne here
    exact ⟨d, there, one.foreseen⟩
  · obtain ⟨c, d, here, one, there, number⟩ := picked.picked
    refine ⟨c, d, _, here, one.foreseen, ?_, there⟩
    rw [number]
    exact d.begins_pick now

theorem atOr_of_getElem? {first : Nat} {rest : List Nat} {index place : Nat}
    (here : (first :: rest)[index]? = some place) : atOr first rest index = place := by
  rw [atOr, here, Option.getD_some]

/-- Two indices of the list of candidates are drawn, at which the same candidate may stand. The
pick is decided by weights and idle time as they are before it, nobody else's state changes, the one
passed over may have another prediction, and the one picked has one call more. -/
theorem pick_of_two {p : Pool} {places : List Nat} (inside : ∀ place ∈ places, place < p.size)
    {draw : Draw} (distinct : draw.pair.1 ≠ draw.pair.2) {first second : Nat}
    (one : places[draw.pair.1]? = some first) (other : places[draw.pair.2]? = some second)
    (forceAfter : Nat) (forcing : Bool) (now : Int) :
    ∃ r, (twoChoices forceAfter forcing).pick p places now draw = .ok r ∧
      (r.place = first ∨ r.place = second) ∧
      (first ≠ second →
        (r.place = p.lighter first second now ↔ Overdue forceAfter forcing p first second now)) ∧
      PicksOfTwo forceAfter forcing p first second now r := by
  cases places with
  | nil => cases one
  | cons head tail =>
    -- One candidate alone would leave no room for two indices.
    have several : tail.isEmpty = false := by
      cases tail with
      | nil =>
        have low := (List.getElem?_eq_some_iff.1 one).1
        have high := (List.getElem?_eq_some_iff.1 other).1
        rw [List.length_singleton] at low high
        omega
      | cons => rfl
    have picks := picksOfTwo_register (inside first (List.mem_of_getElem? one))
      (inside second (List.mem_of_getElem? other)) forceAfter forcing now
    refine ⟨_, ?_, picks.drawn, picks.place_eq_lighter_iff, picks⟩
    rw [pick, choose, several, atOr_of_getElem? one, atOr_of_getElem? other]
    rfl

def unlike : Pool :=
  ⟨[.adaptive (Node.bare "http" "a")
      (.ofNanos Ewma.defaultTau Ewma.defaultPenalty none) Ewma.Stats.fresh,
    .fixed (Node.bare "http" "b") 50 90]⟩

/-- The heavier one stands in the list twice, and is passed over. -/
theorem pick_of_two_unlike :
    ∃ r, (twoChoices 10 false).pick unlike [0, 1, 0] 101 ⟨(2, 1), 0⟩ = .ok r ∧ r.place = 1 ∧
      r.balancer = .twoChoices 10 false ∧ ∀ c, unlike.get? 0 = some c →
        ∃ d, r.pool.get? 0 = some d ∧ c.Foreseen d := by
  obtain ⟨r, picked, _, lost, picks⟩ := @pick_of_two unlike [0, 1, 0] (by decide) ⟨(2, 1), 0⟩
    (by decide) 0 1 rfl rfl 10 false 101
  have place : r.place = 1 := (lost (by decide)).2 (by decide)
  refine ⟨r, picked, place, picks.balancer, fun c here => picks.passed 0 c ?_ here⟩
  rw [place]
  exact Nat.zero_ne_one

end Balancer
end NodeSelection
