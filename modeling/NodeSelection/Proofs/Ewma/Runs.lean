import NodeSelection.Proofs.Ewma.Averages

/-! Runs of the statistics by themselves, from any state and without a record of the calls. A call
is named by its own number here, and any number may be ended, whether that call is open or not. -/

namespace NodeSelection.Ewma

namespace Act

def endTime? : Act → Option Int
  | .finish _ now _ => some now
  | _ => none

def queryTime? : Act → Option Int
  | .load now => some now
  | .weigh now => some now
  | _ => none

theorem endTime?_eq_some_iff {act : Act} {now : Int} :
    act.endTime? = some now ↔ ∃ number failed, act = .finish number now failed := by
  cases act <;> simp [endTime?]

theorem queryTime?_eq_some_iff {act : Act} {now : Int} :
    act.queryTime? = some now ↔ act = .load now ∨ act = .weigh now := by
  cases act <;> simp [queryTime?]

end Act

def endTimes (acts : List Act) : List Int := acts.filterMap Act.endTime?

namespace Stats
variable {α : Type} [Add α] [Sub α] [Mul α] [Div α] [Neg α] [Scalar α]

def step (t : Tuning α) (s : Stats α) : Act → Stats α
  | .start now => (s.start now).1
  | .finish number now failed => (s.finish t number now failed).1
  | .load now => (s.load t now).2
  | .weigh now => (s.weight t now).2

def run (t : Tuning α) (s : Stats α) (acts : List Act) : Stats α := acts.foldl (step t) s

theorem run_cons (t : Tuning α) (s : Stats α) (act : Act) (rest : List Act) :
    s.run t (act :: rest) = (s.step t act).run t rest := rfl

theorem run_append (t : Tuning α) (s : Stats α) (first second : List Act) :
    s.run t (first ++ second) = (s.run t first).run t second := List.foldl_append

theorem step_of_query (t : Tuning α) (s : Stats α) {act : Act} {now : Int}
    (query : act.queryTime? = some now) : s.step t act = s.refresh now := by
  rcases Act.queryTime?_eq_some_iff.1 query with rfl | rfl <;> rfl

theorem averages_step_of_no_end (t : Tuning α) (s : Stats α) {act : Act}
    (running : act.endTime? = none) : (s.step t act).averages = s.averages := by
  cases act with
  | start now => rfl
  | finish number now failed => cases running
  | load now => exact s.averages_refresh now
  | weigh now => exact s.averages_refresh now

end Stats

end NodeSelection.Ewma
