import NodeSelection.Call.Error
import NodeSelection.Table

/-!
What a caller reports when its call is over. The one thing that ever leaves a
report is its verdict: whether the call counts against the node. The rules that
give it write down what they are asked.
-/

namespace NodeSelection

abbrev Classifier := CallError → Bool

def Classifier.listing (codes : List Nat) (kinds : List String) : Classifier := fun e =>
  kinds.contains e.kindName ||
    match e with
    | .status code _ => codes.contains code
    | _ => false

/-- The errors that the rules were asked about, each rule's in the order of asking. -/
structure Journal where
  user : List CallError
  standard : List CallError
deriving DecidableEq, Repr

def Journal.empty : Journal := ⟨[], []⟩

def Classifier.ask (rule : Classifier) (e : CallError) (journal : Journal) : Bool × Journal :=
  (rule e, { journal with user := journal.user ++ [e] })

def CallError.ask (e : CallError) (journal : Journal) : Bool × Journal :=
  (e.isNodeFailure, { journal with standard := journal.standard ++ [e] })

structure Outcome where
  error : Option CallError
  replyMetadata : Option (Table String)
  bytesSent : Bool
  bytesReceived : Bool

namespace Outcome

def failed (error : CallError) : Outcome := ⟨some error, none, false, false⟩

/-- A call without an error is never a failure; an error goes to the user's rule if there is one
and to the standard rule otherwise. -/
def isFailure (o : Outcome) (classifier : Option Classifier) (journal : Journal) :
    Bool × Journal :=
  match o.error with
  | none => (false, journal)
  | some error =>
    match classifier with
    | some rule => rule.ask error journal
    | none => error.ask journal

theorem isFailure_journal (o : Outcome) (classifier : Option Classifier) (one other : Journal) :
    (o.isFailure classifier one).1 = (o.isFailure classifier other).1 := by
  rw [isFailure, isFailure]
  cases o.error with
  | none => rfl
  | some error => cases classifier <;> rfl

def failureText? (o : Outcome) (failed : Bool) : Option String :=
  if failed then o.error.map CallError.message else none

def reply? (o : Outcome) (key : String) : Option String := o.replyMetadata.bind (·.get? key)

private def truth (b : Bool) : String := if b then "true" else "false"

def debug (o : Outcome) : String :=
  let error := match o.error with
    | none => "None"
    | some e => "Some(" ++ e.debug ++ ")"
  "DoneInfo \x7b err: " ++ error ++ ", reply_md: " ++ truth o.replyMetadata.isSome ++
    ", bytes_sent: " ++ truth o.bytesSent ++
    ", bytes_received: " ++ truth o.bytesReceived ++ " \x7d"

end Outcome

end NodeSelection
