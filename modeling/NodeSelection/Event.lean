import NodeSelection.Algorithm
import NodeSelection.Clock
import NodeSelection.Scalar
import NodeSelection.Text.Numeral

/-!
What happens inside the library, as it is shown outside: every event has a log
line, a metric, or both. Whether metrics are wanted is not for the event to know.
-/

namespace NodeSelection

inductive Event where
  | builderConfigured (algorithm : Algorithm)
  | globalConfigured
  | configLoaded (path : String) (algorithm : Algorithm) (nodes : Nat)
  | applied (algorithm : Algorithm) (nodes : Nat)
  | noneAvailable (algorithm : Algorithm)
  | selected (algorithm : Algorithm) (address : String) (candidates : Nat)
  | forced (address : String) (idle : Idle)
  /-- A call ended. The text is that of the error, where it counts against the node. -/
  | finished (address : String) (latency : Int) (failure : Option String)
deriving DecidableEq, Repr

inductive LogLevel where
  | trace | debug | info | warn
deriving DecidableEq, Repr

namespace LogLevel

def name : LogLevel → String
  | trace => "TRACE"
  | debug => "DEBUG"
  | info => "INFO"
  | warn => "WARN"

end LogLevel

structure LogLine where
  level : LogLevel
  message : String
  fields : List (String × String)
deriving DecidableEq, Repr

inductive Measure where
  | counter (increment : Nat)
  | gauge (value : Float)
  | histogram (value : Float)
deriving DecidableEq

structure Metric where
  name : String
  labels : List (String × String)
  measure : Measure
deriving DecidableEq

/-- A duration in seconds: the whole ones and the fraction are converted one by one. -/
def secondsOfNanos (nanos : Nat) : Float :=
  Binary64.ofNat (nanos / 1000000000) + Binary64.ofNat (nanos % 1000000000) / 1e9

namespace Event

def log? : Event → Option LogLine
  | builderConfigured a => some ⟨.info, "Selector builder configured", [("balancer", a.name)]⟩
  | globalConfigured => some ⟨.info, "Global selector configured", []⟩
  | configLoaded path a nodes =>
    some ⟨.debug, "Configuration loaded",
      [("path", path), ("balancer", a.name), ("nodes", Numeral.ofNat nodes)]⟩
  | applied a nodes =>
    some ⟨.debug, "Applying node set", [("balancer", a.name), ("nodes", Numeral.ofNat nodes)]⟩
  | noneAvailable a => some ⟨.warn, "No available node to select", [("balancer", a.name)]⟩
  | selected a address candidates =>
    some ⟨.trace, "Node selected",
      [("balancer", a.name), ("address", address), ("candidates", Numeral.ofNat candidates)]⟩
  | forced address idle =>
    some ⟨.debug, "Force picking starved node",
      [("address", address), ("elapsed_ms", Numeral.ofNat idle.millis)]⟩
  | finished address _ (some error) =>
    some ⟨.debug, "Call counted as node failure", [("address", address), ("error", error)]⟩
  | finished _ _ none => none

def metric? : Event → Option Metric
  | applied a nodes =>
    some ⟨"selector_candidates", [("balancer", a.name)], .gauge (Binary64.ofNat nodes)⟩
  | noneAvailable a => some ⟨"selector_no_available_total", [("balancer", a.name)], .counter 1⟩
  | selected a address _ =>
    some ⟨"selector_picks_total", [("balancer", a.name), ("address", address)], .counter 1⟩
  | forced _ _ => some ⟨"selector_force_picks_total", [], .counter 1⟩
  | finished address latency _ =>
    some ⟨"selector_call_duration_seconds", [("address", address)],
      .histogram (secondsOfNanos latency.toNat)⟩
  | builderConfigured _ | globalConfigured | configLoaded _ _ _ => none

end Event

structure Observation where
  metrics : List Metric
  logs : List LogLine
deriving DecidableEq

/-- Log lines are always written; metrics only while they are switched on. -/
def Observation.ofEvents (metering : Bool) (events : List Event) : Observation where
  metrics := if metering then events.filterMap Event.metric? else []
  logs := events.filterMap Event.log?

end NodeSelection
