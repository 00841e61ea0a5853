/-!
Handles of open calls. A call gets the next number when it is opened, and its
handle can be taken out once.
-/

namespace NodeSelection

structure Calls (τ : Type) where
  handles : Array (Option τ)

namespace Calls

variable {τ : Type}

def empty : Calls τ := ⟨#[]⟩

instance : Inhabited (Calls τ) := ⟨empty⟩

def next (c : Calls τ) : Nat := c.handles.size

def put (c : Calls τ) (handle : τ) : Calls τ := ⟨c.handles.push (some handle)⟩

def get? (c : Calls τ) (call : Nat) : Option τ := c.handles[call]?.join

def drop (c : Calls τ) (call : Nat) : Calls τ := ⟨c.handles.setIfInBounds call none⟩

@[simp]
theorem get?_put_next (c : Calls τ) (handle : τ) : (c.put handle).get? c.next = some handle := by
  simp [get?, put, next]

@[simp]
theorem get?_drop_self (c : Calls τ) (call : Nat) : (c.drop call).get? call = none := by
  simp only [get?, drop, Array.getElem?_setIfInBounds_self]
  split <;> rfl

theorem get?_drop_of_ne (c : Calls τ) {call other : Nat} (h : other ≠ call) :
    (c.drop call).get? other = c.get? other := by
  simp only [get?, drop, Array.getElem?_setIfInBounds_ne (Ne.symm h)]

theorem get?_put_of_ne (c : Calls τ) (handle : τ) {other : Nat} (h : other ≠ c.next) :
    (c.put handle).get? other = c.get? other := by
  simp only [next] at h
  simp only [get?, put, Array.getElem?_push, if_neg h]

end Calls

end NodeSelection
