import Mathlib.Algebra.GroupWithZero.Nat
import NodeSelection.Simulation.Report

/-! What reports add up to. Every call counted adds one pick to its address and to the whole, and
at most one failure. Merging adds up reports address by address and loses nothing, in whatever order
their entries stand. -/

namespace NodeSelection

namespace Table
variable {α : Type}

theorem sum_put (measure : α → Nat) (k : String) (v : α) (l : List (String × α)) :
    ((put k v l).map fun e => measure e.2).sum + ((find? k l).map measure).getD 0 =
      (l.map fun e => measure e.2).sum + measure v := by
  induction l with
  | nil => simp [put, find?]
  | cons e rest ih =>
    obtain ⟨k', v'⟩ := e
    by_cases h : k' = k
    · simp only [put, find?, if_pos h, List.map_cons, List.sum_cons, Option.map_some,
        Option.getD_some]
      omega
    · simp only [put, find?, if_neg h, List.map_cons, List.sum_cons]
      omega

theorem find?_eq_none {k : String} {l : List (String × α)} (absent : k ∉ l.map Prod.fst) :
    find? k l = none := by
  rw [← Option.not_isSome_iff_eq_none, find?_isSome]
  exact absent

end Table

namespace Report

theorem picks_eq (r : Report) : r.picks = (r.entries.map fun e => e.2.picks).sum := by
  rw [picks, List.sum_eq_foldr, List.foldr_map]

theorem picks_enter (r : Report) (address : String) (t : Tally) :
    (r.enter address t).picks = r.picks + t.picks := by
  have sums := Table.sum_put Tally.picks address ((r.tally address).add t) r.entries
  have old : (r.tally address).picks =
      ((Table.find? address r.entries).map Tally.picks).getD 0 := by
    rw [tally, Table.get?]
    cases Table.find? address r.entries <;> rfl
  have entered : (r.enter address t).entries =
      Table.put address ((r.tally address).add t) r.entries := rfl
  rw [picks_eq, picks_eq, entered]
  simp only [Tally.add] at sums ⊢
  omega

theorem picks_count (r : Report) (address : String) (failed : Bool) :
    (r.count address failed).picks = r.picks + 1 :=
  picks_enter r address (.ofCall failed)

theorem tally_count (r : Report) (address other : String) (failed : Bool) :
    (r.count address failed).tally other =
      if other = address then (r.tally other).add (.ofCall failed) else r.tally other :=
  tally_enter r address other (.ofCall failed)

theorem picks_foldl_enter (r : Report) (l : List (String × Tally)) :
    (l.foldl (fun t e => t.enter e.1 e.2) r).picks = r.picks + (l.map fun e => e.2.picks).sum := by
  induction l generalizing r with
  | nil => rfl
  | cons e rest ih =>
    rw [List.foldl_cons, ih, picks_enter, List.map_cons, List.sum_cons, Nat.add_assoc]

theorem tally_foldl_enter (r : Report) {l : List (String × Tally)}
    (distinct : (l.map Prod.fst).Nodup) (address : String) :
    (l.foldl (fun t e => t.enter e.1 e.2) r).tally address =
      (r.tally address).add ((Table.find? address l).getD .zero) := by
  induction l generalizing r with
  | nil => rfl
  | cons e rest ih =>
    rw [List.map_cons, List.nodup_cons] at distinct
    rw [List.foldl_cons, ih _ distinct.2, tally_enter, Table.find?]
    by_cases same : address = e.1
    · subst same
      rw [if_pos rfl, if_pos rfl, Table.find?_eq_none distinct.1]
      rfl
    · rw [if_neg same, if_neg (Ne.symm same)]

theorem picks_merge (r s : Report) : (r.merge s).picks = r.picks + s.picks := by
  rw [merge, picks_foldl_enter, picks_eq s]

theorem tally_merge (r s : Report) (address : String) :
    (r.merge s).tally address = (r.tally address).add (s.tally address) :=
  tally_foldl_enter r s.nodup address

/-- Whatever is nothing for the empty report and adds up when two are merged, adds up when all are. -/
theorem measure_mergeAll (measure : Report → Nat) (none : measure empty = 0)
    (two : ∀ r s, measure (r.merge s) = measure r + measure s) (reports : List Report) :
    measure (mergeAll reports) = (reports.map measure).sum := by
  have onto (r : Report) :
      measure (reports.foldl merge r) = measure r + (reports.map measure).sum := by
    induction reports generalizing r with
    | nil => rfl
    | cons s rest ih =>
      rw [List.foldl_cons, ih, two, List.map_cons, List.sum_cons, Nat.add_assoc]
  rw [mergeAll, onto, none, Nat.zero_add]

theorem picks_mergeAll (reports : List Report) :
    (mergeAll reports).picks = (reports.map picks).sum :=
  measure_mergeAll picks rfl picks_merge reports

theorem picks_tally_mergeAll (reports : List Report) (address : String) :
    ((mergeAll reports).tally address).picks =
      (reports.map fun r => (r.tally address).picks).sum :=
  measure_mergeAll (fun r => (r.tally address).picks) rfl
    (fun r s => congrArg Tally.picks (r.tally_merge s address)) reports

theorem failures_tally_mergeAll (reports : List Report) (address : String) :
    ((mergeAll reports).tally address).failures =
      (reports.map fun r => (r.tally address).failures).sum :=
  measure_mergeAll (fun r => (r.tally address).failures) rfl
    (fun r s => congrArg Tally.failures (r.tally_merge s address)) reports

def Sound (r : Report) : Prop := ∀ address, (r.tally address).failures ≤ (r.tally address).picks

theorem sound_empty : empty.Sound := fun _ => Nat.le_refl 0

theorem Sound.count {r : Report} (sound : r.Sound) (address : String) (failed : Bool) :
    (r.count address failed).Sound := by
  intro other
  have before := sound other
  have one : (Tally.ofCall failed).failures ≤ (Tally.ofCall failed).picks := by
    cases failed <;> decide
  rw [tally_count]
  split
  · exact Nat.add_le_add before one
  · exact before

theorem sound_mergeAll {reports : List Report} (sound : ∀ r ∈ reports, r.Sound) :
    (mergeAll reports).Sound := by
  intro address
  rw [failures_tally_mergeAll, picks_tally_mergeAll]
  induction reports with
  | nil => exact Nat.le_refl 0
  | cons r rest ih =>
    rw [List.map_cons, List.map_cons, List.sum_cons, List.sum_cons]
    exact Nat.add_le_add (sound r List.mem_cons_self address)
      (ih fun s later => sound s (List.mem_cons_of_mem r later))

end Report

end NodeSelection
