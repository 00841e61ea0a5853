import NodeSelection.Table
import NodeSelection.Text.Blank
import NodeSelection.Text.Numeral

/-!
A node is one instance of a service as discovery knows it: fixed identity, no
runtime state. Its initial weight is written in its metadata as a decimal
numeral; an entry that is no such numeral counts as none.
-/

namespace NodeSelection

structure Instance where
  id : String
  name : String
  version : String
  metadata : Table String
  endpoints : List String

structure Node where
  scheme : String
  address : String
  serviceName : String
  version : String
  initialWeight : Option Int
  metadata : Table String

instance : Inhabited Node := ⟨⟨"", "", "", "", none, Table.empty⟩⟩

namespace Node

def weightKey : String := "weight"

def weight? (text : String) : Option Int := Numeral.signedWord? (Text.trim text)

def bare (scheme address : String) : Node := ⟨scheme, address, "", "", none, Table.empty⟩

def ofInstance (scheme address : String) (published : Instance) : Node where
  scheme := scheme
  address := address
  serviceName := published.name
  version := published.version
  initialWeight := (published.metadata.get? weightKey).bind weight?
  metadata := published.metadata

def staticWeight (n : Node) (defaultWeight : Int) : Int := n.initialWeight.getD defaultWeight

end Node

end NodeSelection
