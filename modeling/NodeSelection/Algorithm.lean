import NodeSelection.Text.Blank

/-!
The balancing algorithms and the names under which they are configured.
-/

namespace NodeSelection

inductive Algorithm where
  /-- Two candidates are drawn and the heavier one is kept. -/
  | twoChoices
  /-- Smooth weighted round robin. -/
  | rotation
  | uniform
deriving DecidableEq, Repr

namespace Algorithm

instance : Inhabited Algorithm := ⟨twoChoices⟩

def name : Algorithm → String
  | twoChoices => "p2c"
  | rotation => "wrr"
  | uniform => "random"

def normalName (text : String) : String := Text.lowerAscii (Text.trim text)

def ofName? (text : String) : Option Algorithm :=
  let name := normalName text
  if name = "p2c" then some twoChoices
  else if name = "wrr" then some rotation
  else if name = "random" then some uniform
  else none

end Algorithm

inductive SelectionError where
  | noAvailableNode
  | globalAlreadySet
  | unknownBalancer (name : String)
deriving DecidableEq, Repr

namespace SelectionError

def kindName : SelectionError → String
  | noAvailableNode => "NoAvailableNode"
  | globalAlreadySet => "GlobalAlreadySet"
  | unknownBalancer _ => "UnknownBalancer"

def message : SelectionError → String
  | noAvailableNode => "no_available_node"
  | globalAlreadySet => "global selector already set"
  | unknownBalancer name => "unknown balancer: " ++ name

end SelectionError

def Algorithm.ofName (text : String) : Except SelectionError Algorithm :=
  match ofName? text with
  | some a => .ok a
  | none => .error (.unknownBalancer (normalName text))

end NodeSelection
