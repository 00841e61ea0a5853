import NodeSelection.Config.Loading
import NodeSelection.Simulation.Timeline
import NodeSelection.Text.Duration

/-!
The command that simulates a configuration and prints how the picks were spread
over the nodes. What it prints and its exit code are a function of the options,
the configuration file and the seed.
-/

namespace NodeSelection.Command

structure Options where
  requests : Nat
  concurrency : Nat
  json : Bool
deriving DecidableEq, Repr

def Options.standard : Options := ⟨1000, 16, false⟩

inductive Failure where
  | configuration (error : LoadError)
  | selection (error : SelectionError)

def Failure.text : Failure → String
  | configuration e => (e.debug? <|> e.message?).getD "malformed configuration"
  | selection e => e.kindName

structure Result where
  exitCode : UInt32
  output : String
  errors : String

def selector (c : Config) : Selector := (c.blueprint.build.apply c.buildNodes).1

def simulate (o : Options) (file : Except LoadError ByteArray) (chance : Chance) :
    Except Failure (Config × Simulation) :=
  match file.bind Config.ofBytes with
  | .error e => .error (.configuration e)
  | .ok c =>
    match (Simulation.start (selector c) o.requests o.concurrency).run chance with
    | .error e => .error (.selection e)
    | .ok s => .ok (c, s)

def printed (o : Options) (c : Config) (s : Simulation) : String :=
  if o.json then s.report.json ++ "\n"
  else
    "\n--- Selection Results (" ++ c.algorithm.name ++ ") ---\n" ++ s.report.table o.requests ++
      "Total Duration: " ++ Duration.text s.duration ++
      "\n------------------------------\n\n"

def result (o : Options) (file : Except LoadError ByteArray) (chance : Chance) : Result :=
  match simulate o file chance with
  | .error e => ⟨1, "", "Error: " ++ e.text ++ "\n"⟩
  | .ok (c, s) => ⟨0, printed o c s, ""⟩

structure Line where
  path : Option String
  options : Options

def usage : String :=
  "Usage: simulate --config FILE [--requests N] [--concurrency N] [--json]"

def Line.read (l : Line) : List String → Option Line
  | [] => some l
  | "--json" :: rest => Line.read { l with options := { l.options with json := true } } rest
  | name :: value :: rest =>
    if name = "--config" ∨ name = "-c" then Line.read { l with path := some value } rest
    else if name = "--requests" ∨ name = "-r" then
      match Numeral.unsignedWord? value with
      | some n => Line.read { l with options := { l.options with requests := n } } rest
      | none => none
    else if name = "--concurrency" ∨ name = "-n" then
      match Numeral.unsignedWord? value with
      | some n => Line.read { l with options := { l.options with concurrency := n } } rest
      | none => none
    else none
  | [_] => none

/-- Reads a command line, which has to name a configuration. -/
def Line.ofArguments (arguments : List String) : Option (String × Options) :=
  match Line.read ⟨none, .standard⟩ arguments with
  | some ⟨some path, options⟩ => some (path, options)
  | _ => none

end NodeSelection.Command
