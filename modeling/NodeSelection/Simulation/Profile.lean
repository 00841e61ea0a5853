import NodeSelection.Node
import NodeSelection.Text.Decimal

/-!
How a simulated node behaves, which is written in its metadata: how long a call
takes, and how likely it is to fail. An entry that is no such number counts as
none.
-/

namespace NodeSelection

structure Profile where
  latencyMs : Nat
  errorRate : Float

namespace Profile

def latencyKey : String := "sim.latency_ms"

def errorRateKey : String := "sim.error_rate"

def defaultLatencyMs : Nat := 10

/-- The nearest number between zero and one. What is no number stays as it is. -/
def clampRate (x : Float) : Float := if x < 0.0 then 0.0 else if 1.0 < x then 1.0 else x

def ofNode (n : Node) : Profile where
  latencyMs := ((n.metadata.get? latencyKey).bind Numeral.unsignedWord?).getD defaultLatencyMs
  errorRate := clampRate (((n.metadata.get? errorRateKey).bind Binary64.ofText?).getD 0.0)

def fails (p : Profile) (luck : Float) : Bool := luck < p.errorRate

end Profile

end NodeSelection
