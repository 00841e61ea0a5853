import NodeSelection.Config.Document

/-!
Tables under construction. What may still be added to a table depends on where it
comes from: a table of its own header is complete for dotted keys, one that only
lies on the way to another may get its header later, and one made by dotted keys
grows by dotted keys alone. Values, among them the tables written in braces, are
closed.
-/

namespace NodeSelection.Toml

inductive Origin where
  | header
  | onTheWay
  | dotted
deriving DecidableEq, Repr

inductive Item where
  | value (d : Document)
  | table (origin : Origin) (entries : List (String × Item))
  | tables (elements : List (List (String × Item)))

abbrev Entries := List (String × Item)

namespace Entries

def get? (key : String) : Entries → Option Item
  | [] => none
  | e :: rest => if e.1 = key then some e.2 else get? key rest

def put (key : String) (item : Item) : Entries → Entries
  | [] => [(key, item)]
  | e :: rest => if e.1 = key then (key, item) :: rest else e :: put key item rest

def erase (key : String) (es : Entries) : Entries := es.filter fun e => e.1 != key

/-- Changes the table at the end of a path, making the tables that are missing on the way. In an
array of tables the last one is meant. The change is told where its table comes from, and may also
give something back. -/
def alter {β : Type} (dotted : Bool) (f : Origin → Entries → Option (β × Entries)) :
    Origin → List String → Entries → Option (β × Entries)
  | origin, [], es => f origin es
  | _, key :: path, es =>
    match get? key es with
    | none =>
      let made := if dotted then Origin.dotted else Origin.onTheWay
      (alter dotted f made path []).map fun r => (r.1, put key (.table made r.2) es)
    | some (.value _) => none
    | some (.tables elements) =>
      (alter dotted f .header path (elements.getLastD [])).map fun r =>
        (r.1, put key (.tables (elements.dropLast ++ [r.2])) es)
    | some (.table origin sub) =>
      if dotted ∧ origin = .header then none
      else (alter dotted f origin path sub).map fun r => (r.1, put key (.table origin r.2) es)

/-- Defines a key of the table at hand, which may be dotted. A key is defined once, and a table
that was not made by dotted keys does not grow by them. -/
def define (path : List String) (key : String) (d : Document) (es : Entries) : Option Entries :=
  (alter true
    (fun origin sub =>
      if ¬ path.isEmpty ∧ origin ≠ .dotted then none
      else if (get? key sub).isSome then none
      else some ((), put key (.value d) sub))
    .header path es).map Prod.snd

end Entries

mutual

def Item.toDocument : Item → Document
  | .value d => d
  | .table _ es => .table (entriesToDocuments es)
  | .tables elements => .list (elementsToDocuments elements)

def entriesToDocuments : List (String × Item) → List (String × Document)
  | [] => []
  | (key, item) :: rest => (key, item.toDocument) :: entriesToDocuments rest

def elementsToDocuments : List (List (String × Item)) → List Document
  | [] => []
  | es :: rest => .table (entriesToDocuments es) :: elementsToDocuments rest

end

def Entries.toDocument (es : Entries) : Document := .table (entriesToDocuments es)

/-- The tables of a text: the finished ones, and the one that its lines are filling. -/
structure Tree where
  root : Entries
  /-- The header of the table at hand; none before the first header. -/
  path : List String
  isElement : Bool
  current : Entries

namespace Tree

def empty : Tree := ⟨[], [], false, []⟩

def place (t : Tree) (key : String) (parent : Entries) : Option (Unit × Entries) :=
  if t.isElement then
    match Entries.get? key parent with
    | some (.tables elements) =>
      some ((), Entries.put key (.tables (elements ++ [t.current])) parent)
    | _ => none
  else some ((), Entries.put key (.table .header t.current) parent)

def close (t : Tree) : Option Entries :=
  match t.path.getLast? with
  | none => some t.current
  | some key =>
    (Entries.alter false (fun _ parent => t.place key parent) .header t.path.dropLast t.root).map
      Prod.snd

/-- Takes a table that lay on the way to others out of its parent, with what it holds. A key that
means anything else is taken. -/
def takeUp (key : String) (parent : Entries) : Option (Entries × Entries) :=
  match Entries.get? key parent with
  | none => some ([], parent)
  | some (.table .onTheWay held) => some (held, Entries.erase key parent)
  | some _ => none

def openTable (t : Tree) (parents : List String) (key : String) : Option Tree := do
  let root ← t.close
  let (held, root) ← Entries.alter false (fun _ parent => takeUp key parent) .header parents root
  pure ⟨root, parents ++ [key], false, held⟩

def makeRoom (key : String) (parent : Entries) : Option (Unit × Entries) :=
  match Entries.get? key parent with
  | none => some ((), Entries.put key (.tables []) parent)
  | some (.tables _) => some ((), parent)
  | some _ => none

def openElement (t : Tree) (parents : List String) (key : String) : Option Tree := do
  let root ← t.close
  let (_, root) ← Entries.alter false (fun _ parent => makeRoom key parent) .header parents root
  pure ⟨root, parents ++ [key], true, []⟩

def define (t : Tree) (path : List String) (key : String) (d : Document) : Option Tree :=
  (Entries.define path key d t.current).map fun es => { t with current := es }

def toDocument? (t : Tree) : Option Document := t.close.map Entries.toDocument

end Tree

end NodeSelection.Toml
