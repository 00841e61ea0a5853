import NodeSelection.Calls
import NodeSelection.Selector

/-!
A session: some selectors with the clock, the metrics switch, the numbering of
calls and the journal of the rules that they share. A run is a list of steps; each
step answers and shows what an onlooker would see of it.
-/

namespace NodeSelection

structure Session where
  clock : Clock
  metering : Bool
  selectors : List Selector
  /-- Open calls: which selector made them, and its ticket. -/
  calls : Calls (Nat × Ticket)
  journal : Journal

namespace Session

inductive Step where
  | apply (on : Nat) (nodes : List Node)
  | select (on : Nat) (context : CallContext) (draw : Draw)
  | done (call : Nat) (outcome : Outcome)
  | weights (on : Nat)
  | setClock (value : Int)
  | advanceClock (offset : Int)
  | setMetering (value : Bool)

inductive Answer where
  | done
  /-- The number of candidates now in force. -/
  | applied (size : Nat)
  | selected (node : Node) (call : Nat) (context : CallContext)
  | refused (error : SelectionError) (context : CallContext)
  | noSuchCall
  | noSuchSelector
  | weights (values : List Float)

structure Turn where
  session : Session
  answer : Answer
  events : List Event
  metered : Bool

def Turn.observation (t : Turn) : Observation := .ofEvents t.metered t.events

def ofBlueprint (b : Blueprint) (count : Nat) : Session :=
  ⟨Clock.start, true, List.replicate count b.build, Calls.empty, .empty⟩

def now (s : Session) : Int := s.clock.stamp

def selector? (s : Session) (on : Nat) : Option Selector := s.selectors[on]?

def setSelector (s : Session) (on : Nat) (selector : Selector) : Session :=
  { s with selectors := s.selectors.set on selector }

def add (s : Session) (selector : Selector) : Session :=
  { s with selectors := s.selectors ++ [selector] }

private def quiet (s : Session) (answer : Answer) : Turn := ⟨s, answer, [], s.metering⟩

def applyStep (s : Session) (on : Nat) (nodes : List Node) : Turn :=
  match s.selector? on with
  | none => quiet s .noSuchSelector
  | some selector =>
    let r := selector.apply nodes
    ⟨s.setSelector on r.1, .applied r.1.pool.size, r.2, s.metering⟩

def selectStep (s : Session) (on : Nat) (context : CallContext) (draw : Draw) : Turn :=
  match s.selector? on with
  | none => quiet s .noSuchSelector
  | some selector =>
    let r := selector.select context s.now draw
    let after := s.setSelector on r.selector
    match r.result with
    | .error e => ⟨after, .refused e r.context, r.events, s.metering⟩
    | .ok (node, ticket) =>
      ⟨{ after with calls := s.calls.put (on, ticket) }, .selected node s.calls.next r.context,
        r.events, s.metering⟩

def doneStep (s : Session) (call : Nat) (outcome : Outcome) : Turn :=
  match s.calls.get? call with
  | none => quiet s .noSuchCall
  | some (on, ticket) =>
    match s.selector? on with
    | none => quiet s .noSuchSelector
    | some selector =>
      let r := selector.complete ticket s.now outcome s.journal
      ⟨{ s.setSelector on r.selector with calls := s.calls.drop call, journal := r.journal },
        .done, r.events, s.metering⟩

def weightsStep (s : Session) (on : Nat) : Turn :=
  match s.selector? on with
  | none => quiet s .noSuchSelector
  | some selector =>
    let r := selector.weights s.now
    quiet (s.setSelector on r.2) (.weights r.1)

def step (s : Session) : Step → Turn
  | .apply on nodes => s.applyStep on nodes
  | .select on context draw => s.selectStep on context draw
  | .done call outcome => s.doneStep call outcome
  | .weights on => s.weightsStep on
  | .setClock value => quiet { s with clock := s.clock.set value } .done
  | .advanceClock offset => quiet { s with clock := s.clock.advance offset } .done
  | .setMetering value => quiet { s with metering := value } .done

def run (s : Session) : List Step → List Turn
  | [] => []
  | first :: rest =>
    let turn := s.step first
    turn :: turn.session.run rest

end Session

end NodeSelection
