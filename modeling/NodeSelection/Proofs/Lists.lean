import Mathlib.Algebra.GroupWithZero.Nat

/-! Lists with places added or one place overwritten. What the new value has in common with the old
one, the lists have in common, and a sum over the places changes by that one. -/

namespace NodeSelection
variable {α β : Type} {l : List α} {i : Nat} {a b : α}

theorem getElem?_append_of_eq_some (here : l[i]? = some a) (more : List α) :
    (l ++ more)[i]? = some a := by
  rw [List.getElem?_append_left (List.getElem?_eq_some_iff.1 here).1, here]

theorem filterMap_cons_toList (f : α → Option β) (a : α) (l : List α) :
    (a :: l).filterMap f = (f a).toList ++ l.filterMap f := by
  cases shown : f a with
  | none => exact List.filterMap_cons_none shown
  | some b => exact List.filterMap_cons_some shown

theorem map_set_of_eq {f : α → β} (here : l[i]? = some a) (same : f b = f a) :
    (l.set i b).map f = l.map f := by
  obtain ⟨inside, rfl⟩ := List.getElem?_eq_some_iff.1 here
  have within : i < (l.map f).length := by rwa [List.length_map]
  have own : f l[i] = (l.map f)[i] := List.getElem_map f |>.symm
  rw [List.map_set, same, own, List.set_getElem_self]

theorem sum_map_set (f : α → Nat) (here : l[i]? = some a) (b : α) :
    ((l.set i b).map f).sum + f a = (l.map f).sum + f b := by
  induction l generalizing i with
  | nil => cases here
  | cons c rest ih =>
    cases i with
    | zero =>
      rw [List.getElem?_cons_zero, Option.some.injEq] at here
      rw [List.set_cons_zero, List.map_cons, List.sum_cons, List.map_cons, List.sum_cons, here]
      omega
    | succ j =>
      have later := ih (i := j) here
      rw [List.set_cons_succ, List.map_cons, List.sum_cons, List.map_cons, List.sum_cons]
      omega

theorem mem_set_of_length_eq_one {c : α} (one : l.length = 1) (here : l[i]? = some a)
    (member : c ∈ l.set i b) : c = b := by
  obtain ⟨d, rfl⟩ := List.length_eq_one_iff.1 one
  have inside := (List.getElem?_eq_some_iff.1 here).1
  rw [List.length_singleton, Nat.lt_one_iff] at inside
  rw [inside] at member
  exact List.mem_singleton.1 member

end NodeSelection
