import Mathlib
import NodeSelection.Rotation

/-! What one pick of a rotation does, in whole numbers. A pass over the list raises
the running weight of every address to its claim: what it had and the weights of all
its occurrences. The winner has the greatest claim and pays the total of the list,
so a pick is determined by the running weights of the listed addresses. -/

namespace NodeSelection.Rotation

def credit (running : Table Int) (address : String) : Int := (running.get? address).getD 0

def demand (candidates : List (String × Int)) (address : String) : Int :=
  ((candidates.filter fun c => c.1 = address).map Prod.snd).sum

def total (candidates : List (String × Int)) : Int := (candidates.map Prod.snd).sum

/-- The running weight that an address has after a pass. -/
def claim (running : Table Int) (candidates : List (String × Int)) (address : String) : Int :=
  credit running address + demand candidates address

theorem credit_insert (running : Table Int) (address other : String) (value : Int) :
    credit (running.insert address value) other =
      if other = address then value else credit running other := by
  simp only [credit, Table.get?_insert]
  split <;> rfl

theorem grown_eq (running : Table Int) (address : String) (weight : Int) :
    grown running address weight = credit running address + weight := by
  simp only [grown, credit]
  cases running.get? address <;> simp

theorem demand_append (first second : List (String × Int)) (address : String) :
    demand (first ++ second) address = demand first address + demand second address := by
  simp [demand]

theorem demand_cons (c : String × Int) (rest : List (String × Int)) (address : String) :
    demand (c :: rest) address = (if c.1 = address then c.2 else 0) + demand rest address := by
  by_cases same : c.1 = address <;> simp [demand, same]

theorem demand_of_not_mem {candidates : List (String × Int)} {address : String}
    (absent : address ∉ candidates.map Prod.fst) : demand candidates address = 0 := by
  induction candidates with
  | nil => rfl
  | cons c rest ih =>
    simp only [List.map_cons, List.mem_cons, not_or] at absent
    rw [demand_cons, if_neg (Ne.symm absent.1), ih absent.2, zero_add]

theorem demand_of_mem {candidates : List (String × Int)}
    (distinct : (candidates.map Prod.fst).Nodup) {c : String × Int} (mem : c ∈ candidates) :
    demand candidates c.1 = c.2 := by
  induction candidates with
  | nil => cases mem
  | cons d rest ih =>
    rw [List.map_cons, List.nodup_cons] at distinct
    rcases List.mem_cons.1 mem with rfl | later
    · rw [demand_cons, if_pos rfl, demand_of_not_mem distinct.1, add_zero]
    · have other : d.1 ≠ c.1 := fun same =>
        distinct.1 (same ▸ List.mem_map_of_mem later)
      rw [demand_cons, if_neg other, ih distinct.2 later, zero_add]

theorem total_append (first second : List (String × Int)) :
    total (first ++ second) = total first + total second := by
  simp [total]

theorem total_nonneg {candidates : List (String × Int)} (nonneg : ∀ c ∈ candidates, 0 ≤ c.2) :
    0 ≤ total candidates := by
  refine List.sum_nonneg fun w member => ?_
  obtain ⟨c, listed, rfl⟩ := List.mem_map.1 member
  exact nonneg c listed

theorem get?_prune {α : Type} {r : Rotation α} {candidates : List (String × α)} {address : String}
    (listed : address ∈ candidates.map Prod.fst) :
    (r.prune candidates).get? address = r.running.get? address := by
  rw [prune]
  split
  · rw [Table.get?_restrict, if_pos (List.contains_iff_mem.2 listed)]
  · rfl

theorem credit_prune {r : Rotation Int} {candidates : List (String × Int)} {address : String}
    (listed : address ∈ candidates.map Prod.fst) :
    credit (r.prune candidates) address = credit r.running address := by
  rw [credit, get?_prune listed, credit]

theorem get?_of_get?_prune {α : Type} {r : Rotation α} {candidates : List (String × α)}
    {address : String} {value : α} (kept : (r.prune candidates).get? address = some value) :
    r.running.get? address = some value := by
  rw [prune] at kept
  split at kept
  · rw [Table.get?_restrict] at kept
    split at kept
    · exact kept
    · cases kept
  · exact kept

/-- The first candidate of a list whose address has the greatest claim, with that claim. -/
structure Leads (start : Table Int) (seen : List (String × Int)) (l : Leader Int) : Prop where
  candidate : ∃ weight, seen[l.position]? = some (l.address, weight)
  value : l.value = claim start seen l.address
  greatest : ∀ address ∈ seen.map Prod.fst, claim start seen address ≤ l.value

structure Covers (start : Table Int) (seen : List (String × Int)) (p : Pass Int) : Prop where
  running : ∀ address, p.running.get? address =
    if address ∈ seen.map Prod.fst then some (claim start seen address) else start.get? address
  total : p.total = total seen
  position : p.position = seen.length
  leader : seen = [] ∧ p.leader = none ∨ ∃ l, p.leader = some l ∧ Leads start seen l

theorem covers_begun (start : Table Int) : Covers start [] (Pass.begun start) where
  running address := by simp [Pass.begun]
  total := rfl
  position := rfl
  leader := Or.inl ⟨rfl, rfl⟩

theorem claim_append_self (start : Table Int) (seen : List (String × Int)) (c : String × Int) :
    claim start (seen ++ [c]) c.1 = claim start seen c.1 + c.2 := by
  rw [claim, demand_append, demand_cons, if_pos rfl, claim]
  simp [demand, add_assoc]

theorem claim_append_of_ne (start : Table Int) (seen : List (String × Int)) {c : String × Int}
    {address : String} (ne : address ≠ c.1) :
    claim start (seen ++ [c]) address = claim start seen address := by
  rw [claim, demand_append, demand_cons, if_neg (Ne.symm ne), claim]
  simp [demand]

theorem Covers.credit {start : Table Int} {seen : List (String × Int)} {p : Pass Int}
    (covers : Covers start seen p) (address : String) :
    credit p.running address = claim start seen address := by
  rw [Rotation.credit, covers.running]
  split
  · rfl
  · rename_i absent
    rw [claim, demand_of_not_mem absent, add_zero, Rotation.credit]

theorem Covers.challenge {start : Table Int} {seen : List (String × Int)} {p : Pass Int}
    (covers : Covers start seen p) {c : String × Int} (nonneg : 0 ≤ c.2) :
    Leads start (seen ++ [c]) (p.challenge c.1 (claim start seen c.1 + c.2)) := by
  have last : (seen ++ [c])[p.position]? = some (c.1, c.2) := by
    rw [covers.position, List.getElem?_append_right (Nat.le_refl _), Nat.sub_self]
    rfl
  have own := claim_append_self start seen c
  rw [Pass.challenge]
  rcases covers.leader with ⟨none, unled⟩ | ⟨best, led, leads⟩
  · subst none
    rw [unled]
    refine ⟨⟨c.2, last⟩, own.symm, fun address member => ?_⟩
    rw [List.nil_append, List.map_singleton, List.mem_singleton] at member
    rw [member, own]
  obtain ⟨⟨weight, place⟩, value, greatest⟩ := leads
  rw [led]
  dsimp only
  split
  · rename_i exceeded
    refine ⟨⟨c.2, last⟩, own.symm, fun address member => ?_⟩
    by_cases same : address = c.1
    · rw [same, own]
    · rw [claim_append_of_ne start seen same]
      simp only [List.map_append, List.map_singleton, List.mem_append, List.mem_singleton, same,
        or_false] at member
      exact (greatest address member).trans (Int.le_of_lt exceeded)
  · rename_i kept
    have stays : claim start (seen ++ [c]) best.address = best.value := by
      by_cases same : best.address = c.1
      · rw [same] at value ⊢
        omega
      · rw [claim_append_of_ne start seen same, value]
    refine ⟨⟨weight, ?_⟩, stays.symm, fun address member => ?_⟩
    · rw [List.getElem?_append_left (List.getElem?_eq_some_iff.1 place).1]
      exact place
    · by_cases same : address = c.1
      · rw [same, own]
        omega
      · rw [claim_append_of_ne start seen same]
        simp only [List.map_append, List.map_singleton, List.mem_append, List.mem_singleton, same,
          or_false] at member
        exact greatest address member

theorem covers_visit {start : Table Int} {seen : List (String × Int)} {p : Pass Int}
    (covers : Covers start seen p) {c : String × Int} (nonneg : 0 ≤ c.2) :
    Covers start (seen ++ [c]) (p.visit c) := by
  have value : grown p.running c.1 c.2 = claim start seen c.1 + c.2 := by
    rw [grown_eq, covers.credit]
  refine ⟨fun address => ?_, ?_, ?_, Or.inr ⟨_, rfl, ?_⟩⟩
  · rw [Pass.visit, Table.get?_insert, value]
    by_cases same : address = c.1
    · rw [if_pos same, if_pos (by simp [same]), same, claim_append_self]
    · have listed : address ∈ (seen ++ [c]).map Prod.fst ↔ address ∈ seen.map Prod.fst := by
        simp [same]
      rw [if_neg same, covers.running, claim_append_of_ne start seen same]
      simp only [listed]
  · rw [Pass.visit, covers.total, total_append]
    simp [total]
  · rw [Pass.visit, covers.position, List.length_append, List.length_singleton]
  · rw [value]
    exact covers.challenge nonneg

theorem covers_foldl {start : Table Int} {seen : List (String × Int)} {p : Pass Int}
    (covers : Covers start seen p) {rest : List (String × Int)} (nonneg : ∀ c ∈ rest, 0 ≤ c.2) :
    Covers start (seen ++ rest) (rest.foldl Pass.visit p) := by
  induction rest generalizing seen p with
  | nil => simpa using covers
  | cons c rest ih =>
    have visited := covers_visit covers (nonneg c List.mem_cons_self)
    have done := ih visited fun d later => nonneg d (List.mem_cons_of_mem c later)
    rwa [List.append_assoc, List.singleton_append] at done

theorem covers_pass (r : Rotation Int) {candidates : List (String × Int)}
    (nonneg : ∀ c ∈ candidates, 0 ≤ c.2) :
    Covers (r.prune candidates) candidates (r.pass candidates) := by
  rw [pass]
  exact covers_foldl (covers_begun (r.prune candidates)) nonneg

/-- The outcome of a pick: the winner has the greatest claim and pays the total; the other listed
addresses keep their claims. -/
structure Won (r : Rotation Int) (candidates : List (String × Int)) (place : Nat)
    (address : String) : Prop where
  chosen : (r.pick candidates).2 = some place
  candidate : ∃ weight, candidates[place]? = some (address, weight)
  greatest : ∀ other ∈ candidates.map Prod.fst,
    claim r.running candidates other ≤ claim r.running candidates address
  running : ∀ other, (r.pick candidates).1.running.get? other =
    if other = address then some (claim r.running candidates address - total candidates)
    else if other ∈ candidates.map Prod.fst then some (claim r.running candidates other)
    else (r.prune candidates).get? other

theorem pick_eq {α : Type} [Add α] [Sub α] [Zero α] [LT α] [DecidableLT α] {r : Rotation α}
    {candidates : List (String × α)} (ne : candidates ≠ []) {l : Leader α}
    (led : (r.pass candidates).leader = some l) :
    r.pick candidates =
      (⟨(r.pass candidates).running.insert l.address (l.value - (r.pass candidates).total)⟩,
        some l.position) := by
  cases candidates with
  | nil => exact absurd rfl ne
  | cons c rest => simp only [pick, led]

theorem claim_prune {r : Rotation Int} {candidates : List (String × Int)} {address : String}
    (listed : address ∈ candidates.map Prod.fst) :
    claim (r.prune candidates) candidates address = claim r.running candidates address := by
  rw [claim, credit_prune listed, claim]

theorem exists_won (r : Rotation Int) {candidates : List (String × Int)} (ne : candidates ≠ [])
    (nonneg : ∀ c ∈ candidates, 0 ≤ c.2) :
    ∃ place address, Won r candidates place address := by
  have covers := covers_pass r nonneg
  obtain ⟨l, led, ⟨weight, place⟩, value, greatest⟩ :=
    covers.leader.resolve_left fun unled => ne unled.1
  have listed : l.address ∈ candidates.map Prod.fst :=
    List.mem_map_of_mem (f := Prod.fst) (List.mem_of_getElem? place)
  have picked := pick_eq ne led
  rw [claim_prune listed] at value
  refine ⟨l.position, l.address, ?_, ⟨weight, place⟩, fun other member => ?_, fun other => ?_⟩
  · rw [picked]
  · rw [← claim_prune member, ← value]
    exact greatest other member
  · rw [picked, Table.get?_insert, covers.running, covers.total, value]
    split
    · rfl
    · split
      · rename_i member
        rw [claim_prune member]
      · rfl

theorem Won.credit {r : Rotation Int} {candidates : List (String × Int)} {place : Nat}
    {address other : String} (won : Won r candidates place address)
    (listed : other ∈ candidates.map Prod.fst) :
    credit (r.pick candidates).1.running other =
      claim r.running candidates other + if other = address then -total candidates else 0 := by
  rw [Rotation.credit, won.running]
  by_cases same : other = address
  · rw [if_pos same, if_pos same, same, Option.getD_some, sub_eq_add_neg]
  · rw [if_neg same, if_pos listed, if_neg same, add_zero, Option.getD_some]

theorem Won.get?_eq {r : Rotation Int} {candidates : List (String × Int)} {place : Nat}
    {address other : String} (won : Won r candidates place address)
    (listed : other ∈ candidates.map Prod.fst) :
    (r.pick candidates).1.running.get? other =
      some (Rotation.credit (r.pick candidates).1.running other) := by
  rw [Rotation.credit, won.running, if_pos listed]
  split <;> rfl

theorem Won.place_lt {r : Rotation Int} {candidates : List (String × Int)} {place : Nat}
    {address : String} (won : Won r candidates place address) : place < candidates.length := by
  obtain ⟨weight, found⟩ := won.candidate
  exact (List.getElem?_eq_some_iff.1 found).1

def Alike (candidates : List (String × Int)) (first second : Table Int) : Prop :=
  ∀ c ∈ candidates, credit first c.1 = credit second c.1

structure Pass.Alike (candidates : List (String × Int)) (p q : Pass Int) : Prop where
  running : Rotation.Alike candidates p.running q.running
  total : p.total = q.total
  position : p.position = q.position
  leader : p.leader = q.leader

theorem Pass.Alike.visit {candidates : List (String × Int)} {p q : Pass Int}
    (alike : Alike candidates p q) {c : String × Int} (listed : c ∈ candidates) :
    Alike candidates (p.visit c) (q.visit c) := by
  have value : grown p.running c.1 c.2 = grown q.running c.1 c.2 := by
    rw [grown_eq, grown_eq, alike.running c listed]
  refine ⟨fun d member => ?_, ?_, ?_, ?_⟩
  · rw [Pass.visit, Pass.visit, credit_insert, credit_insert, value, alike.running d member]
  · rw [Pass.visit, Pass.visit, alike.total]
  · rw [Pass.visit, Pass.visit, alike.position]
  · rw [Pass.visit, Pass.visit, value, Pass.challenge, Pass.challenge, alike.leader,
      alike.position]

theorem Pass.Alike.foldl {candidates rest : List (String × Int)} {p q : Pass Int}
    (alike : Alike candidates p q) (listed : ∀ c ∈ rest, c ∈ candidates) :
    Alike candidates (rest.foldl Pass.visit p) (rest.foldl Pass.visit q) := by
  induction rest generalizing p q with
  | nil => exact alike
  | cons c rest ih =>
    exact ih (alike.visit (listed c List.mem_cons_self))
      fun d later => listed d (List.mem_cons_of_mem c later)

theorem pick_alike {r s : Rotation Int} {candidates : List (String × Int)}
    (alike : Alike candidates r.running s.running) :
    (r.pick candidates).2 = (s.pick candidates).2 ∧
      Alike candidates (r.pick candidates).1.running (s.pick candidates).1.running := by
  have begun : Pass.Alike candidates (Pass.begun (r.prune candidates))
      (Pass.begun (s.prune candidates)) := by
    refine ⟨fun c listed => ?_, rfl, rfl, rfl⟩
    have member : c.1 ∈ candidates.map Prod.fst := List.mem_map_of_mem listed
    rw [Pass.begun, Pass.begun, credit_prune member, credit_prune member, alike c listed]
  have passed : Pass.Alike candidates (r.pass candidates) (s.pass candidates) :=
    begun.foldl fun _ listed => listed
  cases candidates with
  | nil => exact ⟨rfl, alike⟩
  | cons c rest =>
    simp only [pick, passed.leader]
    cases (s.pass (c :: rest)).leader with
    | none => exact ⟨rfl, passed.running⟩
    | some l =>
      refine ⟨rfl, fun d listed => ?_⟩
      rw [credit_insert, credit_insert, passed.total, passed.running d listed]

end NodeSelection.Rotation
