import NodeSelection.Proofs.Store.Depiction

/-! Every step of a store is the step of the session that it depicts: it answers the same, tells of the
same events and leaves a store that depicts the session left. -/

namespace NodeSelection

theorem Selector.candidate?_next (s : Selector) (place : Nat) :
    s.candidate? (s.generation + 1) place = none := by
  have outside : s.past.length ≤ s.generation + 1 := Nat.le_succ _
  rw [candidate?, generationPool?, if_neg (Nat.succ_ne_self _), List.getElem?_eq_none outside,
    Option.bind_none]

theorem Selector.candidate?_apply_eq (s : Selector) (nodes : List Node) (generation place : Nat) :
    (s.apply nodes).1.candidate? generation place =
      if generation = s.generation + 1 then (s.wrapping.pool nodes).get? place
      else s.candidate? generation place := by
  rw [candidate?, generationPool?_apply]
  split
  · rw [Option.bind_some]
  · rw [candidate?]

namespace Store

def newSpots (on earlier : Nat) (pool : Pool) : List Spot :=
  pool.places.map fun place => ⟨on, earlier + 1, place⟩

theorem newSpots_getElem? {on earlier place : Nat} {pool : Pool} {spot : Spot}
    (found : (newSpots on earlier pool)[place]? = some spot) :
    spot = ⟨on, earlier + 1, place⟩ ∧ place < pool.size := by
  rw [newSpots, List.getElem?_map, Pool.places] at found
  obtain ⟨at', listed, rfl⟩ := Option.map_eq_some_iff.1 found
  obtain ⟨inside, same⟩ := List.getElem?_eq_some_iff.1 listed
  rw [List.getElem_range] at same
  rw [List.length_range] at inside
  exact ⟨by rw [same], inside⟩

theorem newSpots_of_lt {on earlier place : Nat} {pool : Pool} (inside : place < pool.size) :
    (newSpots on earlier pool)[place]? = some ⟨on, earlier + 1, place⟩ := by
  rw [newSpots, List.getElem?_map, Pool.places, List.getElem?_range inside, Option.map_some]

section
variable {layout : List Spot} {t : Store} {s : Session} (depicts : Depicts layout t s)
include depicts

theorem Depicts.ne_next {on : Nat} {p : Selector} (here : s.selector? on = some p) {ref : Nat}
    {spot : Spot} (found : layout[ref]? = some spot) (own : spot.on = on) :
    spot.generation ≠ p.generation + 1 := by
  obtain ⟨target, generation, place⟩ := spot
  obtain ⟨c, _, there⟩ := depicts.exists_candidate found
  subst own
  rintro rfl
  rw [Session.candidate?_eq here, Selector.candidate?_next] at there
  cases there

theorem Depicts.nodup_apply {on : Nat} {p : Selector} (here : s.selector? on = some p) (pool : Pool) :
    (layout ++ newSpots on p.generation pool).Nodup := by
  refine List.nodup_append.2 ⟨depicts.nodup, ?_, fun spot old new fresh => ?_⟩
  · refine List.Nodup.map (fun one other same => ?_) List.nodup_range
    exact (Spot.mk.inj same).2.2
  · rintro rfl
    obtain ⟨ref, found⟩ := List.mem_iff_getElem?.1 old
    obtain ⟨place, listed⟩ := List.mem_iff_getElem?.1 fresh
    obtain ⟨rfl, _⟩ := newSpots_getElem? listed
    exact depicts.ne_next here found rfl rfl

theorem Depicts.apply {on : Nat} {p : Selector} (here : s.selector? on = some p) {parts : Parts}
    (found : t.selector? on = some (parts, p.wrapping, p.balancer)) (balancer : parts.balancer = on)
    (nodes : List Node) :
    let fresh := p.wrapping.pool nodes
    Depicts (layout ++ newSpots on p.generation fresh)
      { t with
        candidates := ⟨t.candidates.candidates ++ fresh.candidates⟩
        selectors := t.selectors.set on
          { parts with nodes := fresh.places.map (t.candidates.size + ·) } }
      (s.setSelector on (p.apply nodes).1) := by
  intro fresh
  obtain ⟨listed, built, held⟩ := selector?_eq_some_iff.1 found
  refine
    { clock := depicts.clock
      metering := depicts.metering
      journal := depicts.journal
      count := ?_
      balancers := ?_
      nodup := depicts.nodup_apply here fresh
      size := ?_
      candidate := fun {ref spot} known => ?_
      selector := fun {target r} there => ?_
      next := depicts.next
      opened := fun {call ref number} opened => ?_
      closed := depicts.closed }
  · rw [Session.setSelector, List.length_set, List.length_set, depicts.count]
  · rw [Session.setSelector, List.length_set, depicts.balancers]
  · rw [List.length_append, depicts.size, newSpots, List.length_map, Pool.places, List.length_range,
      Pool.size, Pool.size, Pool.size, List.length_append]
  · rw [candidate?_setSelector here, Selector.candidate?_apply_eq]
    rcases Nat.lt_or_ge ref layout.length with old | new
    · have before : ref < t.candidates.candidates.length := by
        rw [← Pool.size, ← depicts.size]
        exact old
      rw [List.getElem?_append_left old] at known
      rw [Pool.get?, List.getElem?_append_left before]
      refine (depicts.candidate known).trans ?_
      split
      · rename_i same
        obtain ⟨_, generation, place⟩ := spot
        subst same
        rw [if_neg (depicts.ne_next here known rfl), Session.candidate?_eq here]
      · rfl
    · rw [List.getElem?_append_right new] at known
      obtain ⟨rfl, _⟩ := newSpots_getElem? known
      have after : t.candidates.candidates.length ≤ ref := by
        rw [← Pool.size, ← depicts.size]
        exact new
      rw [if_pos rfl, if_pos rfl, Pool.get?, List.getElem?_append_right after, depicts.size]
      rfl
  · by_cases same : target = on
    · subst same
      have set := Session.selector?_setSelector here target (p.apply nodes).1
      rw [if_pos rfl, there, Option.some.injEq] at set
      subst set
      have inside := (List.getElem?_eq_some_iff.1 listed).1
      refine ⟨{ parts with nodes := fresh.places.map (t.candidates.size + ·) },
        selector?_eq_some_iff.2 ⟨List.getElem?_set_self inside, built, held⟩, balancer, ?_,
        fun {ref place} named => ?_⟩
      · rw [List.length_map, Pool.places, List.length_range]
        rfl
      · rw [Named, List.getElem?_map, Pool.places] at named
        obtain ⟨at', within, rfl⟩ := Option.map_eq_some_iff.1 named
        obtain ⟨inside, same⟩ := List.getElem?_eq_some_iff.1 within
        rw [List.getElem_range] at same
        rw [List.length_range] at inside
        subst same
        rw [← depicts.size, List.getElem?_append_right (Nat.le_add_right _ _),
          Nat.add_sub_cancel_left, Selector.generation_apply]
        exact newSpots_of_lt inside
    · have before : s.selector? target = some r := by
        rw [← there]
        exact (List.getElem?_set_ne (Ne.symm same)).symm
      obtain ⟨others, known, own, names⟩ := depicts.selector before
      obtain ⟨standing, made, kept⟩ := selector?_eq_some_iff.1 known
      exact ⟨others, selector?_eq_some_iff.2
        ⟨(List.getElem?_set_ne (Ne.symm same)).trans standing, made, kept⟩, own, names.size,
        fun named => getElem?_append_of_eq_some (names.spot named) _⟩
  · obtain ⟨spot, known, there⟩ := depicts.opened opened
    exact ⟨spot, getElem?_append_of_eq_some known _, there⟩

end

structure Turn.Depicts (t : Turn) (u : Session.Turn) : Prop where
  store : ∃ layout, Store.Depicts layout t.store u.session
  answer : t.answer = u.answer
  events : t.events = u.events
  metered : t.metered = u.metered

section
variable {layout : List Spot} {t : Store} {s : Session} (depicts : Depicts layout t s)
include depicts

theorem Depicts.applyStep (on : Nat) (nodes : List Node) :
    (t.applyStep on nodes).Depicts (s.applyStep on nodes) := by
  rw [Store.applyStep, Session.applyStep]
  cases here : s.selector? on with
  | none =>
    rw [depicts.selector_none here]
    exact ⟨⟨layout, depicts⟩, rfl, rfl, depicts.metering⟩
  | some p =>
    obtain ⟨parts, found, balancer, names⟩ := depicts.selector here
    rw [found]
    refine ⟨⟨_, depicts.apply here found balancer nodes⟩, ?_, rfl, depicts.metering⟩
    dsimp only
    rw [List.length_map, Pool.places, List.length_range]
    rfl

theorem Depicts.weightsStep (on : Nat) : (t.weightsStep on).Depicts (s.weightsStep on) := by
  rw [Store.weightsStep, Session.weightsStep]
  cases here : s.selector? on with
  | none =>
    rw [depicts.selector_none here]
    exact ⟨⟨layout, depicts⟩, rfl, rfl, depicts.metering⟩
  | some p =>
    obtain ⟨parts, found, balancer, names⟩ := depicts.selector here
    obtain ⟨values, follows⟩ := (depicts.holds here names).weighAll names.places s.now
    rw [found, depicts.now]
    have after := depicts.follow (q := (p.weights s.now).2) here names follows rfl rfl
      (p.pool.size_weighAll s.now p.pool.places)
    have still : (p.weights s.now).2.balancer = p.balancer := rfl
    rw [still, depicts.set_balancer here] at after
    exact ⟨⟨layout, after⟩, congrArg Session.Answer.weights values, rfl, depicts.metering⟩

theorem Depicts.selectStep (on : Nat) (context : CallContext) (draw : Draw) :
    (t.selectStep on context draw).Depicts (s.selectStep on context draw) := by
  rw [Store.selectStep, Session.selectStep]
  cases here : s.selector? on with
  | none =>
    rw [depicts.selector_none here]
    exact ⟨⟨layout, depicts⟩, rfl, rfl, depicts.metering⟩
  | some p =>
    obtain ⟨parts, found, balancer, names⟩ := depicts.selector here
    have holds := depicts.holds here names
    rw [found, depicts.now]
    dsimp only
    rcases Balancer.pick_follows holds p.balancer names.places s.now draw with
      ⟨e, refused, also⟩ | ⟨one, other, picked, also, follows⟩
    · have select : p.select context s.now draw =
          ⟨p, context, .error e, [.noneAvailable p.algorithm]⟩ := by
        rw [Selector.select, also]
      rw [refused, select, Session.setSelector_self here]
      exact ⟨⟨layout, depicts⟩, rfl, rfl, depicts.metering⟩
    · obtain ⟨c, big, small⟩ := follows.pool.holds.exists_candidate follows.place
      have select : p.select context s.now draw =
          { selector := { p with balancer := other.balancer, pool := other.pool }
            context := context.fill c.node
            result := .ok (c.node, ⟨p.generation, other.place, other.number⟩)
            events := other.events ++ [.selected p.algorithm c.address other.pool.size] } := by
        rw [Selector.select, also]
        dsimp only
        rw [small]
      rw [picked, select]
      dsimp only
      rw [big]
      dsimp only
      have size : other.pool.size = p.pool.size := by
        rw [← follows.pool.holds.size, names.size]
      have after := depicts.follow
        (q := { p with balancer := other.balancer, pool := other.pool }) here names follows.pool
        rfl rfl size
      have made := after.put (names.spot follows.place) one.number
      rw [balancer, follows.balancer]
      refine ⟨⟨layout, ?_⟩, ?_, ?_, depicts.metering⟩
      · rw [follows.number] at made ⊢
        exact made
      · rw [depicts.next]
      · rw [follows.events, size, ← names.size]
        rfl

theorem Depicts.complete {on generation place ref : Nat} {p : Selector} {c : Candidate}
    (here : s.selector? on = some p) (known : layout[ref]? = some ⟨on, generation, place⟩)
    (found : t.candidates.get? ref = some c) (own : p.candidate? generation place = some c)
    (number : Nat) (now : Int) (outcome : Outcome) (journal : Journal) :
    Depicts layout
      { t with candidates := t.candidates.set ref (c.complete number now outcome journal).1 }
      (s.setSelector on (p.complete ⟨generation, place, number⟩ now outcome journal).selector) := by
  have moves := p.moves_complete ⟨generation, place, number⟩ now outcome journal
  have places := congrArg List.length moves.nodes
  rw [Pool.nodes, List.length_map, Pool.nodes, List.length_map] at places
  have still := depicts.set_balancer here
  rw [← p.balancer_complete ⟨generation, place, number⟩ now outcome journal] at still
  rw [← still]
  refine depicts.change here (Pool.size_set _ _ _) moves.wrapping moves.generation places
    (fun {other set at'} there => ?_) (fun {other spot} there apart => ?_)
  · rw [Selector.candidate?_complete_eq own]
    split
    · rename_i same
      obtain ⟨rfl, rfl⟩ := same
      obtain rfl := depicts.inj there known
      exact Pool.get?_set_self (List.getElem?_eq_some_iff.1 found).1 _
    · rename_i differs
      have ne : ref ≠ other := by
        rintro rfl
        have spots := known.symm.trans there
        rw [Option.some.injEq, Spot.mk.injEq] at spots
        exact differs ⟨spots.2.1.symm, spots.2.2.symm⟩
      rw [Pool.get?_set_of_ne _ ne, depicts.candidate there, Session.candidate?_eq here]
  · refine Pool.get?_set_of_ne _ ?_ _
    rintro rfl
    have spots := known.symm.trans there
    rw [Option.some.injEq] at spots
    exact apart (by rw [← spots])

theorem Depicts.doneStep (call : Nat) (outcome : Outcome) :
    (t.doneStep call outcome).Depicts (s.doneStep call outcome) := by
  rw [Store.doneStep, Session.doneStep]
  cases opened : t.calls.get? call with
  | none =>
    rw [depicts.closed opened]
    exact ⟨⟨layout, depicts⟩, rfl, rfl, depicts.metering⟩
  | some handle =>
    obtain ⟨ref, number⟩ := handle
    obtain ⟨⟨on, generation, place⟩, known, there⟩ := depicts.opened opened
    obtain ⟨c, found, stands⟩ := depicts.exists_candidate known
    obtain ⟨p, here, own⟩ := Option.bind_eq_some_iff.1 stands
    rw [there]
    dsimp only at here own ⊢
    have told := p.events_complete ⟨generation, place, number⟩ s.now outcome s.journal
    rw [own, Option.bind_some] at told
    have after := (depicts.complete here known found own number s.now outcome s.journal).drop call
      (c.complete number s.now outcome s.journal).2.2
    rw [here, depicts.now, depicts.journal, Pool.complete, found, Pool.address, found]
    dsimp only
    rw [Selector.journal_complete own, told]
    refine ⟨⟨layout, after⟩, rfl, ?_, depicts.metering⟩
    dsimp only
    cases (c.complete number s.now outcome s.journal).2.1 <;> rfl

theorem Depicts.step (step : Session.Step) : (t.step step).Depicts (s.step step) := by
  cases step with
  | apply on nodes => exact depicts.applyStep on nodes
  | select on context draw => exact depicts.selectStep on context draw
  | done call outcome => exact depicts.doneStep call outcome
  | weights on => exact depicts.weightsStep on
  | setClock value =>
    refine ⟨⟨layout, { depicts with clock := ?_ }⟩, rfl, rfl, depicts.metering⟩
    rw [Store.step, Session.step, depicts.clock]
    rfl
  | advanceClock offset =>
    refine ⟨⟨layout, { depicts with clock := ?_ }⟩, rfl, rfl, depicts.metering⟩
    rw [Store.step, Session.step, depicts.clock]
    rfl
  | setMetering value => exact ⟨⟨layout, { depicts with metering := rfl }⟩, rfl, rfl, rfl⟩

/-- A run by reference goes as the run by value, turn by turn. -/
theorem Depicts.run (steps : List Session.Step) :
    List.Forall₂ Turn.Depicts (t.run steps) (s.run steps) := by
  induction steps generalizing layout t s with
  | nil => exact .nil
  | cons step steps ih =>
    have turn := depicts.step step
    obtain ⟨later, after⟩ := turn.store
    rw [Store.run, Session.run]
    exact .cons turn (ih after)

end

theorem Depicts.build {layout : List Spot} {t : Store} {s : Session} (depicts : Depicts layout t s)
    {builder : Nat} {b : Blueprint} (known : t.builders[builder]? = some b) :
    Depicts layout (t.build builder) (s.add b.build) := by
  rw [Store.build, known]
  refine { depicts with count := ?_, balancers := ?_, candidate := ?_, selector := ?_ }
  · rw [Session.add, List.length_append, List.length_append, depicts.count]
    rfl
  · rw [Session.add, List.length_append, List.length_append, depicts.balancers]
    rfl
  · intro ref spot found
    obtain ⟨c, here, there⟩ := depicts.exists_candidate found
    obtain ⟨p, before, own⟩ := Option.bind_eq_some_iff.1 there
    have still : (s.add b.build).selector? spot.on = some p := getElem?_append_of_eq_some before _
    exact here.trans (by rw [Session.candidate?, still, Option.bind_some, own])
  · intro on p there
    rcases Nat.lt_or_ge on s.selectors.length with old | new
    · have before : s.selector? on = some p := (List.getElem?_append_left old).symm.trans there
      obtain ⟨parts, found, balancer, names⟩ := depicts.selector before
      obtain ⟨listed, built, held⟩ := selector?_eq_some_iff.1 found
      exact ⟨parts, selector?_eq_some_iff.2 ⟨getElem?_append_of_eq_some listed _, built,
        getElem?_append_of_eq_some held _⟩, balancer, names⟩
    · have last : on = s.selectors.length := by
        have inside := (List.getElem?_eq_some_iff.1 there).1
        rw [Session.add, List.length_append, List.length_singleton] at inside
        exact Nat.le_antisymm (Nat.le_of_lt_succ inside) new
      rw [Session.selector?, Session.add, last, List.getElem?_concat_length, Option.some.injEq] at there
      subst there last
      refine ⟨⟨builder, t.balancers.length, []⟩, selector?_eq_some_iff.2 ⟨?_, ⟨b, known, rfl⟩, ?_⟩,
        depicts.balancers, rfl, fun named => ?_⟩
      · rw [← depicts.count]
        exact List.getElem?_concat_length
      · exact List.getElem?_concat_length
      · cases named

theorem builders_ofBlueprint (b : Blueprint) (count : Nat) : (ofBlueprint b count).builders = [b] := by
  induction count with
  | zero => rfl
  | succ n ih =>
    rw [ofBlueprint, Store.build]
    split
    · exact ih
    · exact ih

theorem depicts_ofBlueprint (b : Blueprint) (count : Nat) :
    Depicts [] (ofBlueprint b count) (Session.ofBlueprint b count) := by
  induction count with
  | zero =>
    exact
      { clock := rfl
        metering := rfl
        journal := rfl
        count := rfl
        balancers := rfl
        nodup := List.nodup_nil
        size := rfl
        candidate := nofun
        selector := nofun
        next := rfl
        opened := nofun
        closed := fun _ => rfl }
  | succ n ih =>
    have known : (ofBlueprint b n).builders[0]? = some b := by
      rw [builders_ofBlueprint]
      rfl
    have added : Session.ofBlueprint b (n + 1) = (Session.ofBlueprint b n).add b.build := by
      rw [Session.ofBlueprint, List.replicate_succ']
      rfl
    rw [added]
    exact ih.build known

end Store
end NodeSelection
