import NodeSelection.Proofs.Rotation.Churn
import NodeSelection.Proofs.Rotation.Distinct

/-! What a rotation remembers. The weights may be any doubles, also such as cannot be ordered, so
nothing here rests on their arithmetic. After a pick all candidates of it have a running weight,
together with at most as many others, and those go with the second pick among the same addresses.
Nobody who is listed twice in a row starts over. -/

namespace NodeSelection
namespace Request

def addresses (r : Request) : List String := r.places.map r.pool.address

structure Distinct (r : Request) : Prop where
  some : r.places ≠ []
  nodup : r.addresses.Nodup

end Request

namespace Rotation

theorem through_append {α : Type} [Add α] [Sub α] [Zero α] [LT α] [DecidableLT α] (r : Rotation α)
    (lists : List (List (String × α))) (last : List (String × α)) :
    r.through (lists ++ [last]) = ((r.through lists).pick last).1 := by
  rw [through, List.foldl_append, through]
  rfl

theorem exists_turned_offers (state : Rotation Float) {r : Request} (distinct : r.Distinct) :
    ∃ place winner, Turned state r.offers place winner := by
  refine exists_turned state (fun none => distinct.some ?_) ?_
  · rw [← List.length_eq_zero_iff, ← r.length_offers, none, List.length_nil]
  · rw [r.fst_offers]
    exact distinct.nodup

section
variable {state : Rotation Float} {r : Request} (distinct : r.Distinct)
include distinct

theorem mem_keys_offers {address : String} (listed : address ∈ r.addresses) :
    address ∈ (state.pick r.offers).1.running.keys := by
  obtain ⟨place, winner, turned⟩ := exists_turned_offers state distinct
  rw [turned.mem_keys, r.fst_offers]
  exact Or.inl listed

theorem size_offers_le : (state.pick r.offers).1.running.size ≤ 2 * r.places.length := by
  obtain ⟨place, winner, turned⟩ := exists_turned_offers state distinct
  rw [← r.length_offers]
  exact turned.size_le

theorem mem_keys_offers_iff (known : ∀ address ∈ r.addresses, address ∈ state.running.keys)
    (address : String) :
    address ∈ (state.pick r.offers).1.running.keys ↔ address ∈ r.addresses := by
  obtain ⟨place, winner, turned⟩ := exists_turned_offers state distinct
  have nodup := distinct.nodup
  rw [Request.addresses, ← r.fst_offers] at known nodup ⊢
  rw [turned.mem_keys, mem_keys_prune_iff nodup known, or_self]

theorem get?_offers {p : Pick}
    (place : ∀ i place, (state.pick r.offers).2 = some i → r.places[i]? = some place →
      p.place = place)
    {address : String} {weight : Float} (offered : (address, weight) ∈ r.offers)
    (known : address ∈ state.running.keys) :
    ∃ before, state.running.get? address = some before ∧
      (state.pick r.offers).1.running.get? address =
        some (if address = r.pool.address p.place then before + weight - summed r.offers
          else before + weight) := by
  obtain ⟨i, winner, turned⟩ := exists_turned_offers state distinct
  obtain ⟨before, found⟩ := Table.mem_keys_iff.1 known
  have address : r.pool.address p.place = winner := by
    obtain ⟨own, candidate⟩ := turned.candidate
    obtain ⟨served, there, same⟩ := Request.exists_place candidate
    rw [place i served turned.chosen there, same]
  refine ⟨before, found, ?_⟩
  rw [address, turned.raised _ _ offered, grown, found]

end
end Rotation

namespace Balancer
open Rotation

theorem answer_offers (state : Rotation Float) {requests : List Request}
    (some : ∀ r ∈ requests, r.places ≠ []) :
    (rotation state).answer requests =
      .ok (.rotation (state.through (requests.map Request.offers))) := by
  induction requests generalizing state with
  | nil => rfl
  | cons r rest ih =>
    obtain ⟨now, later⟩ := List.forall_mem_cons.1 some
    obtain ⟨p, picked, balancer, _⟩ := exists_pick_rotation state now
    have next := ih (state.pick r.offers).1 later
    rw [answer, List.foldlM_cons, picked]
    show p.balancer.answer rest = _
    rw [balancer, next]
    rfl

/-- After every pick all its candidates are remembered, and not more others than there are of them;
after the second pick in a row among the same addresses those alone are. An address that is listed
twice in a row goes on from the running weight which the first pick left it. -/
theorem answer_remembers (state : Rotation Float) {requests : List Request}
    (distinct : ∀ r ∈ requests, r.Distinct) :
    ∃ states : Nat → Rotation Float,
      (∀ k, (rotation state).answer (requests.take k) = .ok (.rotation (states k))) ∧
      ∀ k r, requests[k]? = some r →
        (∀ address ∈ r.addresses, address ∈ (states (k + 1)).running.keys) ∧
        (states (k + 1)).running.size ≤ 2 * r.places.length ∧
        ∀ next, requests[k + 1]? = some next →
          ((∀ address, address ∈ next.addresses ↔ address ∈ r.addresses) →
            ∀ address, address ∈ (states (k + 2)).running.keys ↔ address ∈ next.addresses) ∧
          ∃ p, (rotation (states (k + 1))).pick next.pool next.places next.now next.draw = .ok p ∧
            p.balancer = .rotation (states (k + 2)) ∧
            ∀ address weight, (address, weight) ∈ next.offers → address ∈ r.addresses →
              ∃ before, (states (k + 1)).running.get? address = some before ∧
                (states (k + 2)).running.get? address =
                  some (if address = next.pool.address p.place
                    then before + weight - summed next.offers else before + weight) := by
  let states (k : Nat) : Rotation Float := state.through ((requests.take k).map Request.offers)
  have step {k : Nat} {r : Request} (here : requests[k]? = some r) :
      states (k + 1) = ((states k).pick r.offers).1 := by
    simp only [states]
    rw [List.take_add_one, here, Option.toList_some, List.map_append, List.map_singleton,
      through_append]
  refine ⟨states, fun k => answer_offers state fun r listed =>
    (distinct r (List.mem_of_mem_take listed)).some, fun k r here => ?_⟩
  have first := distinct r (List.mem_of_getElem? here)
  have known : ∀ address ∈ r.addresses, address ∈ (states (k + 1)).running.keys :=
    fun address listed => step here ▸ mem_keys_offers first listed
  refine ⟨known, step here ▸ size_offers_le first, fun next there => ?_⟩
  have second := distinct next (List.mem_of_getElem? there)
  obtain ⟨p, picked, balancer, place⟩ := exists_pick_rotation (states (k + 1)) second.some
  rw [show k + 2 = k + 1 + 1 from rfl, step there]
  refine ⟨fun same address => ?_, p, picked, balancer, fun address weight offered listed => ?_⟩
  · exact mem_keys_offers_iff second (fun other named => known other ((same other).1 named)) address
  · exact get?_offers second place offered (known address listed)

/-- `b` is left out of the second list, and the third one has the addresses of the second. -/
theorem answer_remembers_three_lists :
    let requests : List Request := [.fixed 100 1 default [Node.weighing "a" 3, Node.weighing "b" 1],
      .fixed 100 2 default [Node.weighing "a" 1, Node.weighing "c" 2],
      .fixed 100 3 default [Node.weighing "c" 5, Node.weighing "a" 0]]
    ∃ second third, (rotation Rotation.empty).answer (requests.take 2) = .ok (.rotation second) ∧
      (rotation Rotation.empty).answer requests = .ok (.rotation third) ∧
      second.running.size ≤ 4 ∧ (∀ address ∈ ["a", "c"], address ∈ second.running.keys) ∧
      ∀ address, address ∈ third.running.keys ↔ address ∈ ["c", "a"] := by
  intro requests
  have distinct : ∀ r ∈ requests, r.Distinct := by
    simp only [requests, List.forall_mem_cons, List.not_mem_nil, false_implies, implies_true,
      and_true]
    exact ⟨⟨by decide, by decide⟩, ⟨by decide, by decide⟩, ⟨by decide, by decide⟩⟩
  obtain ⟨states, answered, kept⟩ := answer_remembers Rotation.empty distinct
  obtain ⟨known, few, later⟩ := kept 1 _ rfl
  have same : ∀ address, address ∈ ["c", "a"] ↔ address ∈ ["a", "c"] := by
    simp [or_comm]
  exact ⟨states 2, states 3, answered 2, answered 3, few, known, (later _ rfl).1 same⟩

end Balancer
end NodeSelection
