import NodeSelection.Selector

/-!
The one place of a process where the recipe for its selectors is kept. It is
filled once and never changes after that.
-/

namespace NodeSelection

structure Registry where
  slot : Option Blueprint

namespace Registry

def empty : Registry := ⟨none⟩

instance : Inhabited Registry := ⟨empty⟩

/-- Fills the registry. A full one stays as it is. -/
def install (r : Registry) (b : Blueprint) : Except SelectionError (Registry × List Event) :=
  match r.slot with
  | none => .ok (⟨some b⟩, [.globalConfigured])
  | some _ => .error .globalAlreadySet

end Registry

end NodeSelection
