import NodeSelection.Config.Basic
import NodeSelection.Config.Document

/-!
Reading a configuration from a document. A group of settings may be written as a
table, in which unknown keys are passed over, or as a list of its fields in their
declared order. The first mistake in reading order is the one reported.
-/

namespace NodeSelection

inductive ReadError where
  | unknownBalancer (name : String)
  | missingAddress
  /-- A value of the wrong kind, or out of range, or too many of them. -/
  | mismatch
deriving DecidableEq, Repr

def ReadError.message? : ReadError → Option String
  | unknownBalancer name => some (SelectionError.unknownBalancer name).message
  | missingAddress => some "missing field \x60address\x60"
  | mismatch => none

/-- What a format does with a list that is longer than the group has fields. -/
inductive Surplus where
  | refused
  | ignored
deriving DecidableEq, Repr

namespace Reading

abbrev Reader (α : Type) := Document → Except ReadError α

def unsigned : Reader Nat
  | .integer x => if 0 ≤ x ∧ x ≤ Word.maxUnsigned then .ok x.toNat else .error .mismatch
  | _ => .error .mismatch

def signed : Reader Int
  | .integer x =>
    if Word.minSigned ≤ x ∧ x ≤ Word.maxSigned then .ok x else .error .mismatch
  | _ => .error .mismatch

def boolean : Reader Bool
  | .boolean b => .ok b
  | _ => .error .mismatch

def text : Reader String
  | .text s => .ok s
  | _ => .error .mismatch

def optional {α : Type} (r : Reader α) : Reader (Option α)
  | .null => .ok none
  | d => (r d).map some

def algorithm : Reader Algorithm := fun d => do
  let name ← text d
  match Algorithm.ofName? name with
  | some a => .ok a
  | none => .error (.unknownBalancer (Algorithm.normalName name))

def textTableFrom (t : Table String) : List (String × Document) → Except ReadError (Table String)
  | [] => .ok t
  | (key, d) :: rest => do
    let value ← text d
    textTableFrom (t.insert key value) rest

def textTable : Reader (Table String)
  | .table entries => textTableFrom Table.empty entries
  | _ => .error .mismatch

def listOf {α : Type} (r : Reader α) : Reader (List α)
  | .list items => items.mapM r
  | _ => .error .mismatch

structure Field (σ : Type) where
  key : String
  set : σ → Document → Except ReadError σ

def field {σ α : Type} (key : String) (r : Reader α) (put : σ → α → σ) : Field σ :=
  ⟨key, fun s d => (r d).map (put s)⟩

variable {σ : Type}

def entries (fields : List (Field σ)) : σ → List (String × Document) → Except ReadError σ
  | s, [] => .ok s
  | s, (key, d) :: rest =>
    match fields.find? fun f => f.key == key with
    | some f => do
      let s ← f.set s d
      entries fields s rest
    | none => entries fields s rest

def items (surplus : Surplus) : List (Field σ) → σ → List Document → Except ReadError σ
  | _, s, [] => .ok s
  | f :: fields, s, d :: rest => do
    let s ← f.set s d
    items surplus fields s rest
  | [], s, _ :: _ => if surplus = .ignored then .ok s else .error .mismatch

/-- Reads a group all of whose fields have defaults, those of the given one. -/
def group (surplus : Surplus) (fields : List (Field σ)) (standard : σ) : Reader σ
  | .table es => entries fields standard es
  | .list ds => items surplus fields standard ds
  | _ => .error .mismatch

def ewma (surplus : Surplus) : Reader EwmaSettings :=
  group surplus
    [field "tau_ms" unsigned fun s x => { s with tauMs := x },
      field "penalty_ms" unsigned fun s x => { s with penaltyMs := x }]
    .standard

def twoChoices (surplus : Surplus) : Reader TwoChoicesSettings :=
  group surplus [field "force_pick_ms" unsigned fun s x => { s with forcePickMs := x }] .standard

def direct (surplus : Surplus) : Reader DirectSettings :=
  group surplus [field "default_weight" signed fun s x => { s with defaultWeight := x }] .standard

def observability (surplus : Surplus) : Reader ObservabilitySettings :=
  group surplus
    [field "log_level" text fun s x => { s with logLevel := x },
      field "metrics_enabled" boolean fun s x => { s with metricsEnabled := x }]
    .standard

/-- A node entry of which the address may still be missing. -/
structure Draft where
  address : Option String
  entry : NodeEntry

def Draft.blank : Draft := ⟨none, ⟨NodeEntry.defaultScheme, "", "", "", none, Table.empty⟩⟩

def Draft.finish (d : Draft) (missing : ReadError) : Except ReadError NodeEntry :=
  match d.address with
  | some address => .ok { d.entry with address := address }
  | none => .error missing

def nodeFields : List (Field Draft) :=
  [field "scheme" text fun d x => { d with entry := { d.entry with scheme := x } },
    field "address" text fun d x => { d with address := some x },
    field "service_name" text fun d x => { d with entry := { d.entry with serviceName := x } },
    field "version" text fun d x => { d with entry := { d.entry with version := x } },
    field "weight" (optional signed) fun d x => { d with entry := { d.entry with weight := x } },
    field "metadata" textTable fun d x => { d with entry := { d.entry with metadata := x } }]

def node (surplus : Surplus) : Reader NodeEntry
  | .table es => do
    let d ← entries nodeFields Draft.blank es
    d.finish .missingAddress
  | .list ds => do
    let d ← items surplus nodeFields Draft.blank ds
    d.finish .mismatch
  | _ => .error .mismatch

def config (surplus : Surplus) : Reader Config :=
  group surplus
    [field "balancer" algorithm fun c x => { c with algorithm := x },
      field "ewma" (ewma surplus) fun c x => { c with ewma := x },
      field "p2c" (twoChoices surplus) fun c x => { c with twoChoices := x },
      field "direct" (direct surplus) fun c x => { c with direct := x },
      field "observability" (observability surplus) fun c x => { c with observability := x },
      field "nodes" (listOf (node surplus)) fun c x => { c with nodes := x }]
    .standard

end Reading

def Config.ofDocument (surplus : Surplus) : Document → Except ReadError Config
  | .null => .ok .standard
  | d => Reading.config surplus d

end NodeSelection
