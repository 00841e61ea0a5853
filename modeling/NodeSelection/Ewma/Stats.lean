import NodeSelection.Call.Outcome
import NodeSelection.Ewma.OpenCalls
import NodeSelection.Ewma.Prediction
import NodeSelection.Scalar

/-!
What is learnt of one node from its calls: averages of latency and of success that
decay with the time between completions, the calls still open, and the load and
the weight that follow from them.

    load   = max lag predicted * (open calls + 1)    where a latency is known
           = penalty * (open calls + 1)              before the first sample
    weight = success * 10^9 / load

The formulas are written over any `Scalar`.
-/

namespace NodeSelection.Ewma

def defaultTau : Nat := 600000000

def defaultPenalty : Nat := 10000000000

structure Tuning (α : Type) where
  tau : α
  /-- The latency assumed of a node without samples. -/
  penalty : Nat
  classifier : Option Classifier

structure Stats (α : Type) where
  /-- Average latency, in whole nanoseconds. -/
  lag : Int
  /-- Average success, in thousandths. -/
  success : α
  /-- Open calls and one more, so that an idle node is not without load. -/
  inflight : Int
  openCalls : OpenCalls
  /-- When the last call ended. -/
  stamp : Int
  predictedAt : Int
  predicted : Int
  /-- How many calls have begun; the number of the next one. -/
  requests : Nat
  lastPick : Int

section

variable {α : Type} [Add α] [Sub α] [Mul α] [Div α] [Neg α] [Scalar α]

def Tuning.ofNanos (tau penalty : Nat) (classifier : Option Classifier) : Tuning α :=
  ⟨Scalar.ofInt tau, Word.clampUnsigned penalty, classifier⟩

def fullSuccess : α := Scalar.ofInt 1000

def decay (tau : α) (elapsed : Int) : α := Scalar.exp (-(Scalar.ofInt elapsed) / tau)

def blend (w old new : α) : α := old * w + new * (Scalar.ofInt 1 - w)

namespace Stats

def fresh : Stats α where
  lag := 0
  success := fullSuccess
  inflight := 1
  openCalls := OpenCalls.empty
  stamp := 0
  predictedAt := 0
  predicted := 0
  requests := 0
  lastPick := 0

def start (s : Stats α) (now : Int) : Stats α × Nat :=
  ({ s with
      lastPick := now
      inflight := Word.wrapSigned (s.inflight + 1)
      requests := Word.wrapUnsigned (s.requests + 1)
      openCalls := s.openCalls.insert s.requests now },
    s.requests)

/-- The share that the averages keep when a call ends at `now`. Before the first sample there is
nothing to keep. -/
def keptShare (t : Tuning α) (s : Stats α) (now : Int) : α :=
  if s.lag = 0 then Scalar.ofInt 0 else decay t.tau (Stamp.since now s.stamp)

def absorb (s : Stats α) (w : α) (latency : Int) (failed : Bool) : Stats α :=
  { s with
    lag := Scalar.toInt (blend w (Scalar.ofInt s.lag) (Scalar.ofInt latency))
    success := blend w s.success (if failed then Scalar.ofInt 0 else fullSuccess) }

def close (s : Stats α) (number : Nat) (now : Int) : Stats α :=
  { s with
    openCalls := s.openCalls.erase number
    inflight := Word.wrapSigned (s.inflight - 1)
    stamp := now }

/-- How long a call took that ends at `now`; no time if it is not open. -/
def latency (s : Stats α) (number : Nat) (now : Int) : Int :=
  Stamp.since now ((s.openCalls.start? number).getD now)

def finish (t : Tuning α) (s : Stats α) (number : Nat) (now : Int) (failed : Bool) :
    Stats α × Int :=
  ((s.close number now).absorb (s.keptShare t now) (s.latency number now) failed,
    s.latency number now)

def scanDue (s : Stats α) (now : Int) : Bool :=
  scanInterval s.lag < Stamp.age now s.predictedAt

def refresh (s : Stats α) (now : Int) : Stats α :=
  if s.scanDue now then
    { s with predictedAt := now, predicted := predictedLag now s.lag s.openCalls.starts }
  else s

def currentLoad (t : Tuning α) (s : Stats α) : Nat :=
  if s.lag = 0 then Word.clampUnsigned (t.penalty * s.inflight.toNat)
  else Word.clampUnsigned (Word.wrapUnsigned (max s.lag s.predicted) * s.inflight.toNat)

def load (t : Tuning α) (s : Stats α) (now : Int) : Nat × Stats α :=
  ((s.refresh now).currentLoad t, s.refresh now)

def weightOf (s : Stats α) (load : Nat) : α :=
  if load = 0 then Scalar.tiny
  else s.success * Scalar.ofInt 1000000000 / Scalar.ofInt load

def weight (t : Tuning α) (s : Stats α) (now : Int) : α × Stats α :=
  let r := s.load t now
  (s.weightOf r.1, r.2)

end Stats

end

namespace Stats

variable {α : Type}

def openCount (s : Stats α) : Int := s.inflight - 1

def lagNanos (s : Stats α) : Nat := s.lag.toNat

def successRate (s : Stats Float) : Nat := Binary64.roundToNat s.success

end Stats

end NodeSelection.Ewma
