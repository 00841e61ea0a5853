import NodeSelection.Table
import NodeSelection.Text.Column
import NodeSelection.Text.Quoted

/-!
What became of the simulated calls, node by node. Reports of several callers are
merged by adding up, and a merged report is written in the order of the addresses.
-/

namespace NodeSelection

/-- Calls that a node was picked for, and those of them that failed. -/
structure Tally where
  picks : Nat
  failures : Nat
deriving DecidableEq, Repr

namespace Tally

def zero : Tally := ⟨0, 0⟩

def add (a b : Tally) : Tally := ⟨a.picks + b.picks, a.failures + b.failures⟩

def ofCall (failed : Bool) : Tally := ⟨1, if failed then 1 else 0⟩

end Tally

abbrev Report := Table Tally

namespace Report

def empty : Report := Table.empty

def tally (r : Report) (address : String) : Tally := (r.get? address).getD .zero

def enter (r : Report) (address : String) (t : Tally) : Report :=
  r.insert address ((r.tally address).add t)

def count (r : Report) (address : String) (failed : Bool) : Report :=
  r.enter address (.ofCall failed)

def merge (r s : Report) : Report := s.entries.foldl (fun t e => enter t e.1 e.2) r

def mergeAll (reports : List Report) : Report := reports.foldl merge empty

def picks (r : Report) : Nat := r.entries.foldr (fun e n => e.2.picks + n) 0

def sorted (r : Report) : List (String × Tally) :=
  r.entries.mergeSort fun a b => !decide (b.1 < a.1)

theorem tally_enter (r : Report) (address other : String) (t : Tally) :
    (r.enter address t).tally other =
      if other = address then (r.tally other).add t else r.tally other := by
  by_cases h : other = address
  · subst h
    simp [enter, tally]
  · simp [enter, tally, Table.get?_insert, h]

def share (picks requests : Nat) : Float :=
  Binary64.ofNat picks * 100.0 / Binary64.ofNat (max requests 1)

def jsonEntry (e : String × Tally) : String :=
  "  " ++ Quoted.json e.1 ++ ": \x7b\n    \"picks\": " ++ Numeral.ofNat e.2.picks ++
    ",\n    \"failures\": " ++ Numeral.ofNat e.2.failures ++ "\n  \x7d"

def json (r : Report) : String :=
  match r.sorted with
  | [] => "\x7b\x7d"
  | entries => "\x7b\n" ++ String.intercalate ",\n" (entries.map jsonEntry) ++ "\n\x7d"

def tableRow (address picks share errors : String) : String :=
  Column.left 24 address ++ " " ++ Column.right 8 picks ++ " " ++ share ++ " " ++
    Column.right 8 errors ++ "\n"

def table (r : Report) (requests : Nat) : String :=
  tableRow "address" "picks" (Column.right 8 "share") "errors" ++
    String.join (r.sorted.map fun e =>
      tableRow e.1 (Numeral.ofNat e.2.picks)
        (Column.right 7 (Binary64.onePlace (share e.2.picks requests)) ++ "%")
        (Numeral.ofNat e.2.failures))

end Report

end NodeSelection
