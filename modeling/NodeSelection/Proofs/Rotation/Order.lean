import NodeSelection.Proofs.Rotation.Distinct
import NodeSelection.Proofs.Rotation.Serving

/-! The order of service, which the shares of the candidates leave open. The winner of a pick is
the first of those with the greatest claim. Among equal weights every candidate that has served in
the current round is behind all the others by the total, so the next in the list serves. -/

namespace NodeSelection
namespace Rotation

/-- The leader of a pass is ahead of everyone before it, and no one after it is ahead of it. -/
structure Foremost (start : Table Int) (seen : List (String × Int)) (l : Leader Int) : Prop where
  greatest : ∀ (i : Nat) (c : String × Int), seen[i]? = some c → grown start c.1 c.2 ≤ l.value
  first : ∀ (i : Nat) (c : String × Int), seen[i]? = some c → i < l.position →
    grown start c.1 c.2 < l.value

theorem getElem?_seen {seen : List (String × Int)} {c d : String × Int} {i : Nat}
    (listed : (seen ++ [c])[i]? = some d) : seen[i]? = some d ∨ i = seen.length ∧ d = c := by
  rcases Nat.lt_or_ge i seen.length with earlier | late
  · exact Or.inl (by rwa [List.getElem?_append_left earlier] at listed)
  · have inside := (List.getElem?_eq_some_iff.1 listed).1
    rw [List.length_append, List.length_singleton] at inside
    obtain rfl : i = seen.length := by omega
    rw [List.getElem?_concat_length, Option.some.injEq] at listed
    exact Or.inr ⟨rfl, listed.symm⟩

section
variable {start : Table Int} {seen : List (String × Int)} {c : String × Int}

theorem foremost_last (ahead : ∀ (i : Nat) (d : String × Int), seen[i]? = some d →
      grown start d.1 d.2 < grown start c.1 c.2) :
    Foremost start (seen ++ [c]) ⟨seen.length, c.1, grown start c.1 c.2⟩ := by
  refine ⟨fun i d listed => ?_, fun i d listed before => ?_⟩
  · obtain earlier | ⟨-, rfl⟩ := getElem?_seen listed
    · exact (ahead i d earlier).le
    · exact le_rfl
  · obtain earlier | ⟨rfl, -⟩ := getElem?_seen listed
    · exact ahead i d earlier
    · exact absurd before (lt_irrefl _)

theorem Foremost.keep {l : Leader Int} (foremost : Foremost start seen l)
    (inside : l.position < seen.length) (behind : grown start c.1 c.2 ≤ l.value) :
    Foremost start (seen ++ [c]) l := by
  refine ⟨fun i d listed => ?_, fun i d listed before => ?_⟩
  · obtain earlier | ⟨-, rfl⟩ := getElem?_seen listed
    · exact foremost.greatest i d earlier
    · exact behind
  · obtain earlier | ⟨rfl, -⟩ := getElem?_seen listed
    · exact foremost.first i d earlier before
    · exact absurd before inside.not_gt

theorem Raised.challenge_foremost {p : Pass Int} (raised : Raised start seen p)
    (foremost : ∀ l, p.leader = some l → Foremost start seen l) (c : String × Int) :
    Foremost start (seen ++ [c]) (p.challenge c.1 (Rotation.grown start c.1 c.2)) := by
  rw [Pass.challenge, raised.position]
  rcases raised.leader with ⟨rfl, unled⟩ | ⟨place, best, found, led⟩
  · rw [unled]
    exact foremost_last fun i d none => by cases none
  have ahead := foremost _ led
  rw [led]
  dsimp only
  split
  · rename_i exceeded
    exact foremost_last fun i d earlier => (ahead.greatest i d earlier).trans_lt exceeded
  · rename_i kept
    exact ahead.keep (List.getElem?_eq_some_iff.1 found).1 (not_lt.1 kept)

end

theorem Raised.foldl_foremost {start : Table Int} {seen rest : List (String × Int)} {p : Pass Int}
    (raised : Raised start seen p) (foremost : ∀ l, p.leader = some l → Foremost start seen l)
    (distinct : ((seen ++ rest).map Prod.fst).Nodup) {l : Leader Int}
    (led : (rest.foldl Pass.visit p).leader = some l) : Foremost start (seen ++ rest) l := by
  induction rest generalizing seen p with
  | nil =>
    rw [List.append_nil]
    exact foremost l led
  | cons c rest ih =>
    have new := not_mem_of_nodup distinct
    rw [List.append_cons] at distinct ⊢
    refine ih (raised.visit new) (fun best leads => ?_) distinct led
    rw [Pass.visit, Option.some.injEq, raised.grown new] at leads
    exact leads ▸ raised.challenge_foremost foremost c

theorem foremost_pass (r : Rotation Int) {candidates : List (String × Int)}
    (distinct : (candidates.map Prod.fst).Nodup) {l : Leader Int}
    (led : (r.pass candidates).leader = some l) : Foremost (r.prune candidates) candidates l :=
  (raised_begun (r.prune candidates)).foldl_foremost (fun _ none => by cases none) distinct led

section
variable {candidates : List (String × Int)} (distinct : (candidates.map Prod.fst).Nodup)
include distinct

theorem pick_first (r : Rotation Int) {place : Nat} {c : String × Int}
    (here : candidates[place]? = some c)
    (greatest : ∀ (i : Nat) (d : String × Int), candidates[i]? = some d →
      claim r.running candidates d.1 ≤ claim r.running candidates c.1)
    (first : ∀ (i : Nat) (d : String × Int), candidates[i]? = some d → i < place →
      claim r.running candidates d.1 < claim r.running candidates c.1) :
    (r.pick candidates).2 = some place := by
  have ne : candidates ≠ [] := List.ne_nil_of_mem (List.mem_of_getElem? here)
  have value {i : Nat} {d : String × Int} (listed : candidates[i]? = some d) :
      grown (r.prune candidates) d.1 d.2 = claim r.running candidates d.1 := by
    have member := List.mem_of_getElem? listed
    rw [grown_prune (List.mem_map_of_mem member), grown_eq, claim, demand_of_mem distinct member]
  obtain ⟨winner, best, found, led⟩ :=
    (raised_pass r distinct).leader.resolve_left fun unled => ne unled.1
  have foremost := foremost_pass r distinct led
  have ahead := foremost.greatest place c here
  rw [value here, value found] at ahead
  rw [pick_eq ne led, Option.some.injEq]
  rcases Nat.lt_trichotomy winner place with before | same | after
  · exact absurd (first winner best found before) (not_lt.2 ahead)
  · exact same
  · have behind := foremost.first place c here after
    rw [value here, value found] at behind
    exact absurd (greatest winner best found) (not_le.2 behind)

end

theorem count_rounds {n place : Nat} (inside : place < n) (k : Nat) :
    ((List.range k).map (· % n)).count place = k / n + if place < k % n then 1 else 0 := by
  have positive : 0 < n := place.zero_le.trans_lt inside
  have count := Nat.count_modEq_card k positive place
  rw [Nat.mod_eq_of_lt inside] at count
  rw [← count, Nat.count, List.count, List.countP_map]
  refine List.countP_congr fun i _ => ?_
  simp [Nat.ModEq, Nat.mod_eq_of_lt inside]

theorem total_even {candidates : List (String × Int)} {weight : Int}
    (even : ∀ c ∈ candidates, c.2 = weight) :
    total candidates = candidates.length * weight := by
  rw [total, List.map_congr_left even, List.map_const', List.sum_replicate, nsmul_eq_mul]

theorem total_even_pos {candidates : List (String × Int)} {weight : Int} (ne : candidates ≠ [])
    (even : ∀ c ∈ candidates, c.2 = weight) (pos : 0 < weight) : 0 < total candidates := by
  have several := List.length_pos_iff.2 ne
  rw [total_even even]
  exact mul_pos (by omega) pos

theorem turns_even {candidates : List (String × Int)} {weight : Int} (ne : candidates ≠ [])
    (distinct : (candidates.map Prod.fst).Nodup) (even : ∀ c ∈ candidates, c.2 = weight)
    (pos : 0 < weight) (k : Nat) :
    (empty.turns candidates k).2 = (List.range k).map (· % candidates.length) := by
  have several : 0 < candidates.length := List.length_pos_iff.2 ne
  have positive := total_even_pos ne even pos
  have nonneg : ∀ c ∈ candidates, 0 ≤ c.2 := fun c listed => (even c listed).symm ▸ pos.le
  induction k with
  | zero => rfl
  | succ k ih =>
    have shares := shares_turns distinct nonneg positive k
    -- A candidate has a full round more or less behind it, by its place.
    have claims {i : Nat} {d : String × Int} (listed : candidates[i]? = some d) :
        claim (empty.turns candidates k).1.running candidates d.1 = (k + 1) * weight -
          total candidates * (k / candidates.length) -
            if i < k % candidates.length then total candidates else 0 := by
      have member := List.mem_of_getElem? listed
      have inside := (List.getElem?_eq_some_iff.1 listed).1
      rw [claim_eq _ distinct member, shares.share i d listed, ih, count_rounds inside,
        even d member]
      push_cast
      split <;> ring
    have turn : k % candidates.length < candidates.length := Nat.mod_lt k several
    have here := List.getElem?_eq_getElem turn
    have picked : ((empty.turns candidates k).1.pick candidates).2 =
        some (k % candidates.length) := by
      refine pick_first distinct _ here (fun i d listed => ?_) fun i d listed before => ?_
      · rw [claims here, claims listed, if_neg (lt_irrefl _)]
        split <;> omega
      · rw [claims here, claims listed, if_neg (lt_irrefl _), if_pos before]
        omega
    rw [turns, picked, ih, List.range_succ, List.map_append]
    rfl

end Rotation

namespace Service
open Rotation

/-- Among equal weights the candidates serve in the order of the list, over and over. -/
theorem serve_even {p : Pool} {offers : List (String × Int)} {weight : Int}
    (offered : p.Offers offers) (ne : offers ≠ []) (distinct : (offers.map Prod.fst).Nodup)
    (even : ∀ o ∈ offers, o.2 = weight) (pos : 0 < weight)
    (fits : offers.length * offers.length * weight < 2 ^ 53) (requests : List (Int × Draw)) :
    ∃ after, (begun (.rotation empty) p).serve requests = .ok after ∧
      after.places.length = requests.length ∧
      ∀ k < requests.length, after.places[k]? = some (k % offers.length) := by
  have positive := total_even_pos ne even pos
  have nonneg : ∀ o ∈ offers, 0 ≤ o.2 := fun o listed => (even o listed).symm ▸ pos.le
  rw [mul_assoc, ← total_even even] at fits
  obtain ⟨after, served, _, places⟩ :=
    serve_rotation distinct nonneg positive fits offered requests
  rw [turns_even ne distinct even pos] at places
  refine ⟨after, served, by rw [places, List.length_map, List.length_range], fun k early => ?_⟩
  rw [places, List.getElem?_map, List.getElem?_range early, Option.map_some]

theorem serve_even_three_of_two :
    ∃ after, (begun (.rotation empty) ((Wrapping.fixed 2).pool
        [Node.bare "http" "a", Node.bare "http" "b", Node.bare "http" "c"])).serve
          (List.replicate 7 (1, default)) = .ok after ∧
      after.places.length = 7 ∧ ∀ k < 7, after.places[k]? = some (k % 3) := by
  have even : ∀ o ∈ [("a", (2 : Int)), ("b", 2), ("c", 2)], o.2 = 2 := by decide
  exact serve_even (Wrapping.offers_pool 2
      [Node.bare "http" "a", Node.bare "http" "b", Node.bare "http" "c"])
    (by decide) (by decide) even (by decide) (by decide) (List.replicate 7 (1, default))

end Service
end NodeSelection
