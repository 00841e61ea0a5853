/-!
Finite maps from text. Keys are pairwise distinct and keep the order in which
they first came in, so an answer that lists a map is determined by its history.
Everything else is said through `get?`.
-/

namespace NodeSelection

/-- A map from text, as a list of entries with pairwise distinct keys. -/
structure Table (α : Type) where
  entries : List (String × α)
  nodup : (entries.map Prod.fst).Nodup

namespace Table

variable {α : Type}

def empty : Table α := ⟨[], List.nodup_nil⟩

instance : Inhabited (Table α) := ⟨empty⟩

def keys (t : Table α) : List String := t.entries.map Prod.fst

def values (t : Table α) : List α := t.entries.map Prod.snd

def size (t : Table α) : Nat := t.entries.length

def find? (k : String) : List (String × α) → Option α
  | [] => none
  | (k', v) :: rest => if k' = k then some v else find? k rest

/-- Replaces the value under a key where it stands; a new key goes last. -/
def put (k : String) (v : α) : List (String × α) → List (String × α)
  | [] => [(k, v)]
  | (k', v') :: rest => if k' = k then (k', v) :: rest else (k', v') :: put k v rest

def get? (t : Table α) (k : String) : Option α := find? k t.entries

theorem mem_keys_put {k x : String} {v : α} {l : List (String × α)} :
    x ∈ (put k v l).map Prod.fst ↔ x = k ∨ x ∈ l.map Prod.fst := by
  induction l with
  | nil => simp [put]
  | cons e rest ih =>
    obtain ⟨k', v'⟩ := e
    by_cases h : k' = k
    · subst h
      simp [put]
    · rw [put, if_neg h, List.map_cons, List.map_cons, List.mem_cons, List.mem_cons, ih]
      constructor
      · rintro (rfl | rfl | h') <;> simp_all
      · rintro (rfl | rfl | h') <;> simp_all

theorem nodup_put {k : String} {v : α} {l : List (String × α)}
    (h : (l.map Prod.fst).Nodup) : ((put k v l).map Prod.fst).Nodup := by
  induction l with
  | nil => simp [put]
  | cons e rest ih =>
    obtain ⟨k', v'⟩ := e
    rw [List.map_cons, List.nodup_cons] at h
    by_cases hk : k' = k
    · rw [put, if_pos hk, List.map_cons, List.nodup_cons]
      exact h
    · rw [put, if_neg hk, List.map_cons, List.nodup_cons]
      refine ⟨fun hm => ?_, ih h.2⟩
      rcases mem_keys_put.1 hm with h' | h'
      · exact hk h'
      · exact h.1 h'

def insert (t : Table α) (k : String) (v : α) : Table α :=
  ⟨put k v t.entries, nodup_put t.nodup⟩

def restrict (t : Table α) (p : String → Bool) : Table α :=
  ⟨t.entries.filter fun e => p e.1,
    t.nodup.sublist (List.Sublist.map _ List.filter_sublist)⟩

/-- Enters the pairs one after another; a later pair replaces an earlier one of the same key. -/
def ofList (l : List (String × α)) : Table α :=
  l.foldl (fun t e => t.insert e.1 e.2) empty

theorem find?_put_self (k : String) (v : α) (l : List (String × α)) :
    find? k (put k v l) = some v := by
  induction l with
  | nil => simp [put, find?]
  | cons e rest ih =>
    obtain ⟨k', v'⟩ := e
    by_cases h : k' = k <;> simp [put, find?, h, ih]

theorem find?_put_of_ne {k k' : String} (h : k' ≠ k) (v : α) (l : List (String × α)) :
    find? k' (put k v l) = find? k' l := by
  induction l with
  | nil => simp [put, find?, Ne.symm h]
  | cons e rest ih =>
    obtain ⟨k₀, v₀⟩ := e
    by_cases h₀ : k₀ = k
    · subst h₀
      simp [put, find?, Ne.symm h]
    · rw [put, if_neg h₀, find?, find?, ih]

@[simp]
theorem get?_empty (k : String) : (empty : Table α).get? k = none := rfl

@[simp]
theorem get?_insert_self (t : Table α) (k : String) (v : α) :
    (t.insert k v).get? k = some v :=
  find?_put_self k v t.entries

theorem get?_insert_of_ne (t : Table α) {k k' : String} (h : k' ≠ k) (v : α) :
    (t.insert k v).get? k' = t.get? k' :=
  find?_put_of_ne h v t.entries

theorem get?_insert (t : Table α) (k k' : String) (v : α) :
    (t.insert k v).get? k' = if k' = k then some v else t.get? k' := by
  by_cases h : k' = k
  · subst h
    simp
  · rw [if_neg h, get?_insert_of_ne t h]

theorem find?_isSome {k : String} {l : List (String × α)} :
    (find? k l).isSome ↔ k ∈ l.map Prod.fst := by
  induction l with
  | nil => simp [find?]
  | cons e rest ih =>
    obtain ⟨k', v'⟩ := e
    by_cases h : k' = k
    · simp [find?, h]
    · simp [find?, h, ih, Ne.symm h]

theorem get?_isSome {t : Table α} {k : String} : (t.get? k).isSome ↔ k ∈ t.keys :=
  find?_isSome

theorem keys_restrict (t : Table α) (p : String → Bool) :
    (t.restrict p).keys = t.keys.filter p := by
  simp only [keys, restrict, List.filter_map]
  rfl

theorem get?_restrict (t : Table α) (p : String → Bool) (k : String) :
    (t.restrict p).get? k = if p k then t.get? k else none := by
  obtain ⟨l, h⟩ := t
  simp only [restrict, get?]
  clear h
  induction l with
  | nil => simp [find?]
  | cons e rest ih =>
    obtain ⟨k', v'⟩ := e
    by_cases hp : p k' = true <;> by_cases hk : k' = k <;> simp_all [find?]

end Table

end NodeSelection
