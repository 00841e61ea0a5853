import NodeSelection.Registry

/-!
The configuration of node selection. Every setting has a default except the
address of a node; the static nodes and the recipe for selectors are read off it.
-/

namespace NodeSelection

structure EwmaSettings where
  tauMs : Nat
  penaltyMs : Nat
deriving DecidableEq

structure TwoChoicesSettings where
  forcePickMs : Nat
deriving DecidableEq

structure DirectSettings where
  defaultWeight : Int
deriving DecidableEq

structure ObservabilitySettings where
  logLevel : String
  metricsEnabled : Bool
deriving DecidableEq

structure NodeEntry where
  scheme : String
  address : String
  serviceName : String
  version : String
  /-- Overrides a weight in the metadata. -/
  weight : Option Int
  metadata : Table String

structure Config where
  algorithm : Algorithm
  ewma : EwmaSettings
  twoChoices : TwoChoicesSettings
  direct : DirectSettings
  observability : ObservabilitySettings
  nodes : List NodeEntry

def EwmaSettings.standard : EwmaSettings := ⟨600, 10000⟩

def TwoChoicesSettings.standard : TwoChoicesSettings := ⟨3000⟩

def DirectSettings.standard : DirectSettings := ⟨100⟩

def ObservabilitySettings.standard : ObservabilitySettings := ⟨"info", true⟩

def Config.standard : Config := ⟨.twoChoices, .standard, .standard, .standard, .standard, []⟩

instance : Inhabited Config := ⟨Config.standard⟩

namespace NodeEntry

def defaultScheme : String := "grpc"

def fullMetadata (e : NodeEntry) : Table String :=
  match e.weight with
  | some w => e.metadata.insert Node.weightKey (Numeral.ofInt w)
  | none => e.metadata

def published (e : NodeEntry) : Instance where
  id := e.address
  name := e.serviceName
  version := e.version
  metadata := e.fullMetadata
  endpoints := [e.scheme ++ "://" ++ e.address]

def toNode (e : NodeEntry) : Node := Node.ofInstance e.scheme e.address e.published

end NodeEntry

namespace Config

def buildNodes (c : Config) : List Node := c.nodes.map NodeEntry.toNode

/-- Two choices learn from calls; the other algorithms go by fixed weights. -/
def wrapping (c : Config) : Wrapping :=
  match c.algorithm with
  | .twoChoices =>
    .adaptive (.ofNanos (c.ewma.tauMs * nanosPerMilli) (c.ewma.penaltyMs * nanosPerMilli) none)
  | .rotation | .uniform => .fixed c.direct.defaultWeight

def blueprint (c : Config) : Blueprint :=
  ⟨c.wrapping, c.algorithm.balancer (c.twoChoices.forcePickMs * nanosPerMilli)⟩

def builder (c : Config) : Blueprint × List Event := (c.blueprint, [.builderConfigured c.algorithm])

end Config

def Blueprint.stock (a : Algorithm) : Blueprint :=
  { Config.standard with algorithm := a }.blueprint

end NodeSelection
