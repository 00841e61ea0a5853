/-!
Documents: the values of a data format, as far as a configuration can tell them
apart.
-/

namespace NodeSelection

inductive Document where
  | null
  | boolean (value : Bool)
  | integer (value : Int)
  /-- A number that is not written as an integer, or too large for one. Its value is never used. -/
  | real
  | text (value : String)
  | list (items : List Document)
  | table (entries : List (String × Document))

namespace Document

instance : Inhabited Document := ⟨null⟩

def enter (key : String) (value : Document) :
    List (String × Document) → List (String × Document)
  | [] => [(key, value)]
  | e :: rest =>
    if key < e.1 then (key, value) :: e :: rest
    else if key = e.1 then (key, value) :: rest
    else e :: enter key value rest

/-- A table whose entries are read in the order of their keys, the last one of a key counting. -/
def sortedTable (entries : List (String × Document)) : Document :=
  .table (entries.foldl (fun sorted e => enter e.1 e.2 sorted) [])

end Document

end NodeSelection
