/-!
The calls of one node that have begun and not ended: their numbers, each with the
stamp at which it began. Entries stand in order of their numbers, so a number
occurs at most once.
-/

namespace NodeSelection.Ewma

structure OpenCalls where
  entries : List (Nat × Int)
  sorted : entries.Pairwise fun a b => a.1 < b.1
deriving DecidableEq

namespace OpenCalls

def empty : OpenCalls := ⟨[], List.Pairwise.nil⟩

instance : Inhabited OpenCalls := ⟨empty⟩

def size (c : OpenCalls) : Nat := c.entries.length

def numbers (c : OpenCalls) : List Nat := c.entries.map Prod.fst

def starts (c : OpenCalls) : List Int := c.entries.map Prod.snd

def file (number : Nat) (start : Int) : List (Nat × Int) → List (Nat × Int)
  | [] => [(number, start)]
  | e :: rest =>
    if number < e.1 then (number, start) :: e :: rest
    else if number = e.1 then (number, start) :: rest
    else e :: file number start rest

theorem mem_file {number : Nat} {start : Int} {l : List (Nat × Int)} {e : Nat × Int}
    (h : e ∈ file number start l) : e = (number, start) ∨ e ∈ l := by
  induction l with
  | nil => exact Or.inl (by simpa [file] using h)
  | cons d rest ih =>
    simp only [file] at h
    split at h
    · simpa using h
    · split at h
      · rcases List.mem_cons.1 h with h | h
        · exact Or.inl h
        · exact Or.inr (List.mem_cons_of_mem _ h)
      · rcases List.mem_cons.1 h with h | h
        · exact Or.inr (h ▸ List.mem_cons_self)
        · exact (ih h).imp id (List.mem_cons_of_mem _)

theorem sorted_file {number : Nat} {start : Int} {l : List (Nat × Int)}
    (h : l.Pairwise fun a b => a.1 < b.1) :
    (file number start l).Pairwise fun a b => a.1 < b.1 := by
  induction l with
  | nil => simp [file]
  | cons d rest ih =>
    obtain ⟨above, tail⟩ := List.pairwise_cons.1 h
    simp only [file]
    split
    · rename_i below
      refine List.pairwise_cons.2 ⟨fun e he => ?_, h⟩
      rcases List.mem_cons.1 he with rfl | he
      · exact below
      · exact Nat.lt_trans below (above e he)
    · split
      · rename_i same
        exact List.pairwise_cons.2 ⟨fun e he => same ▸ above e he, tail⟩
      · rename_i notBelow notSame
        refine List.pairwise_cons.2 ⟨fun e he => ?_, ih tail⟩
        rcases mem_file he with rfl | he
        · show d.1 < number
          omega
        · exact above e he

def insert (c : OpenCalls) (number : Nat) (start : Int) : OpenCalls :=
  ⟨file number start c.entries, sorted_file c.sorted⟩

def start? (c : OpenCalls) (number : Nat) : Option Int :=
  (c.entries.find? fun e => e.1 == number).map Prod.snd

def erase (c : OpenCalls) (number : Nat) : OpenCalls :=
  ⟨c.entries.filter fun e => e.1 != number, c.sorted.sublist List.filter_sublist⟩

theorem start?_insert_self (c : OpenCalls) (number : Nat) (start : Int) :
    (c.insert number start).start? number = some start := by
  rw [insert, start?]
  dsimp only
  induction c.entries with
  | nil => simp [file]
  | cons e rest ih =>
    rw [file]
    split
    · simp
    · rename_i above
      split
      · simp
      · rename_i other
        rwa [List.find?_cons_of_neg (by simpa using Ne.symm other)]

theorem start?_insert_of_ne (c : OpenCalls) {number other : Nat} (h : other ≠ number)
    (start : Int) : (c.insert number start).start? other = c.start? other := by
  rw [insert, start?, start?]
  dsimp only
  induction c.entries with
  | nil => simp [file, Ne.symm h]
  | cons e rest ih =>
    rw [file]
    split
    · rw [List.find?_cons_of_neg (by simpa using Ne.symm h)]
    · split
      · rename_i same
        rw [List.find?_cons_of_neg (by simpa using Ne.symm h),
          List.find?_cons_of_neg (by simpa [← same] using Ne.symm h)]
      · by_cases found : e.1 = other
        · rw [List.find?_cons_of_pos (by simpa using found),
            List.find?_cons_of_pos (by simpa using found)]
        · rw [List.find?_cons_of_neg (by simpa using found),
            List.find?_cons_of_neg (by simpa using found), ih]

theorem start?_erase_of_ne (c : OpenCalls) {number other : Nat} (h : other ≠ number) :
    (c.erase number).start? other = c.start? other := by
  rw [start?, start?, erase, List.find?_filter]
  congr 2
  funext e
  by_cases found : e.1 = other <;> simp [found, h]

end OpenCalls

end NodeSelection.Ewma
