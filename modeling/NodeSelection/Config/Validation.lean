import NodeSelection.Config.Basic
import NodeSelection.Text.Quoted

/-!
What makes a configuration unusable. All violations are reported: first the
settings that have to be positive, then those of each node in order.
-/

namespace NodeSelection

inductive Violation where
  | notPositive (field : String)
  | emptyAddress (index : Nat)
  | duplicateAddress (address : String)
  | negativeWeight (address : String) (weight : Int)
deriving DecidableEq, Repr

namespace Violation

def message : Violation → String
  | notPositive field => field ++ " must be greater than zero"
  | emptyAddress index => "node #" ++ Numeral.ofNat index ++ " has an empty address"
  | duplicateAddress address => "duplicate node address: " ++ address
  | negativeWeight address weight =>
    "node " ++ address ++ " has negative weight " ++ Numeral.ofInt weight

def kindName : Violation → String
  | notPositive _ => "NotPositive"
  | emptyAddress _ => "EmptyAddress"
  | duplicateAddress _ => "DuplicateAddress"
  | negativeWeight _ _ => "NegativeWeight"

def debug : Violation → String
  | notPositive field => "NotPositive \x7b field: " ++ Quoted.debug field ++ " \x7d"
  | emptyAddress index => "EmptyAddress \x7b index: " ++ Numeral.ofNat index ++ " \x7d"
  | duplicateAddress address => "DuplicateAddress(" ++ Quoted.debug address ++ ")"
  | negativeWeight address weight =>
    "NegativeWeight \x7b address: " ++ Quoted.debug address ++ ", weight: " ++
      Numeral.ofInt weight ++ " \x7d"

end Violation

def NodeEntry.violations (e : NodeEntry) (seen : List String) : List Violation :=
  (if seen.contains e.address then [.duplicateAddress e.address] else []) ++
    match e.weight with
    | some w => if w < 0 then [.negativeWeight e.address w] else []
    | none => []

/-- Violations of the nodes from some index on. A blank address is an error of its own and is not
compared with others. -/
def nodeViolations (seen : List String) (index : Nat) : List NodeEntry → List Violation
  | [] => []
  | e :: rest =>
    if Text.isBlankText e.address then
      .emptyAddress index :: nodeViolations seen (index + 1) rest
    else e.violations seen ++ nodeViolations (e.address :: seen) (index + 1) rest

namespace Config

def settingViolations (c : Config) : List Violation :=
  (if c.ewma.tauMs = 0 then [.notPositive "ewma.tau_ms"] else []) ++
  (if c.ewma.penaltyMs = 0 then [.notPositive "ewma.penalty_ms"] else []) ++
  (if c.twoChoices.forcePickMs = 0 then [.notPositive "p2c.force_pick_ms"] else []) ++
  (if c.direct.defaultWeight ≤ 0 then [.notPositive "direct.default_weight"] else [])

def violations (c : Config) : List Violation :=
  c.settingViolations ++ nodeViolations [] 0 c.nodes

def validate (c : Config) : Except (List Violation) Unit :=
  if c.violations.isEmpty then .ok () else .error c.violations

end Config

end NodeSelection
