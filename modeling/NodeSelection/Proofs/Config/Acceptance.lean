import Mathlib
import NodeSelection.Candidate
import NodeSelection.Config.Validation
import NodeSelection.Proofs.Binary64.Exact
import NodeSelection.Proofs.Text.Numeral

/-! What acceptance of a configuration says about its nodes. Their addresses are distinct
and none is blank, and a weight that an entry sets is not negative. A weight that
only the metadata carry is not looked at: it is the one way to a negative one. -/

namespace NodeSelection

theorem Text.trim_ne_empty_iff {s : String} : trim s ≠ "" ↔ isBlankText s = false := by
  rw [isBlankText, ← Bool.not_eq_true, ← trimBlanks_eq_nil_iff, trim, Ne,
    ← String.toList_inj, String.toList_ofList]
  rfl

theorem Node.weight?_ofInt (x : Int) :
    weight? (Numeral.ofInt x) =
      (some x).filter fun y => Word.minSigned ≤ y ∧ y ≤ Word.maxSigned := by
  rw [weight?, Numeral.trim_ofInt, Numeral.signedWord?, Numeral.int?_ofInt]

namespace NodeEntry

def metadataWeight? (e : NodeEntry) : Option Int :=
  (e.metadata.get? Node.weightKey).bind Node.weight?

theorem initialWeight_toNode (e : NodeEntry) :
    e.toNode.initialWeight =
      match e.weight with
      | some w => (some w).filter fun y => Word.minSigned ≤ y ∧ y ≤ Word.maxSigned
      | none => e.metadataWeight? := by
  simp only [toNode, Node.ofInstance, published, fullMetadata]
  cases e.weight with
  | none => rfl
  | some w => rw [Table.get?_insert_self, Option.bind_some, Node.weight?_ofInt]

theorem violations_eq_nil_iff {e : NodeEntry} {seen : List String} :
    e.violations seen = [] ↔ e.address ∉ seen ∧ ∀ w, e.weight = some w → 0 ≤ w := by
  rw [violations, List.append_eq_nil_iff]
  refine and_congr (by simp) ?_
  cases e.weight with
  | none => simp
  | some w => simp

end NodeEntry

theorem nodeViolations_eq_nil_iff {seen : List String} {index : Nat} {entries : List NodeEntry} :
    nodeViolations seen index entries = [] ↔
      (∀ e ∈ entries, Text.isBlankText e.address = false ∧ e.address ∉ seen ∧
        ∀ w, e.weight = some w → 0 ≤ w) ∧ (entries.map NodeEntry.address).Nodup := by
  induction entries generalizing seen index with
  | nil => simp [nodeViolations]
  | cons e rest ih =>
    rw [nodeViolations]
    cases blank : Text.isBlankText e.address with
    | true => simp [blank]
    | false =>
      simp only [Bool.false_eq_true, if_false, List.append_eq_nil_iff, ih,
        NodeEntry.violations_eq_nil_iff, List.mem_cons, forall_eq_or_imp, List.map_cons,
        List.nodup_cons, List.mem_map, blank, true_and]
      grind

namespace Config

theorem validate_eq_ok_iff {c : Config} :
    c.validate = .ok () ↔ c.settingViolations = [] ∧ nodeViolations [] 0 c.nodes = [] := by
  rw [validate, ← List.append_eq_nil_iff, ← violations]
  cases c.violations <;> simp

theorem settingViolations_eq_nil_iff {c : Config} :
    c.settingViolations = [] ↔ c.ewma.tauMs ≠ 0 ∧ c.ewma.penaltyMs ≠ 0 ∧
      c.twoChoices.forcePickMs ≠ 0 ∧ 0 < c.direct.defaultWeight := by
  simp [settingViolations]

theorem defaultWeight_pos {c : Config} (sound : c.settingViolations = []) :
    0 < c.direct.defaultWeight :=
  (settingViolations_eq_nil_iff.1 sound).2.2.2

/-- The nodes of an accepted configuration: a negative weight comes from the metadata or not at
all. -/
theorem nodes_of_accepted {c : Config} (accepted : c.validate = .ok ()) :
    (c.buildNodes.map Node.address).Nodup ∧
      (∀ n ∈ c.buildNodes, Text.trim n.address ≠ "") ∧
      ∀ e ∈ c.nodes, e.toNode.staticWeight c.direct.defaultWeight < 0 ↔
        e.weight = none ∧ ∃ w < 0, e.metadataWeight? = some w := by
  obtain ⟨settings, nodes⟩ := validate_eq_ok_iff.1 accepted
  obtain ⟨entries, distinct⟩ := nodeViolations_eq_nil_iff.1 nodes
  have pos := defaultWeight_pos settings
  refine ⟨?_, fun n member => ?_, fun e member => ?_⟩
  · rw [buildNodes, List.map_map]
    exact distinct
  · obtain ⟨e, listed, rfl⟩ := List.mem_map.1 member
    exact Text.trim_ne_empty_iff.2 (entries e listed).1
  · rw [Node.staticWeight, e.initialWeight_toNode]
    cases set : e.weight with
    | some w =>
      have nonneg := (entries e member).2.2 w set
      have other : 0 ≤ ((some w).filter fun y =>
          Word.minSigned ≤ y ∧ y ≤ Word.maxSigned).getD c.direct.defaultWeight := by
        rw [Option.filter_some]
        split
        · exact nonneg
        · exact pos.le
      simpa using other
    | none =>
      cases e.metadataWeight? with
      | none => simpa using pos.le
      | some w => simp

def ofWeights (weight : Option Int) (text : String) : Config :=
  { standard with
    algorithm := .rotation
    nodes := [⟨NodeEntry.defaultScheme, "a", "", "", weight,
      Table.empty.insert Node.weightKey text⟩] }

theorem nodes_of_accepted_overridden :
    (ofWeights (some 0) "-5").validate = .ok () ∧
      ∀ e ∈ (ofWeights (some 0) "-5").nodes, ¬ e.toNode.staticWeight 100 < 0 := by
  have accepted : (ofWeights (some 0) "-5").validate = .ok () := rfl
  refine ⟨accepted, fun e member negative => ?_⟩
  have weightless := (((nodes_of_accepted accepted).2.2 e member).1 negative).1
  rw [List.mem_singleton.1 member] at weightless
  cases weightless

/-- Without a weight of the entry the one in the metadata counts, and nobody refuses it. -/
theorem negative_weight_accepted :
    (ofWeights none "-5").validate = .ok () ∧
      ∃ n ∈ (ofWeights none "-5").buildNodes, n.staticWeight 100 = -5 ∧
        ∀ now, (((Wrapping.fixed 100).wrap n).weigh now).1 < 0 := by
  have five : Binary64.Exact (-5) := show (5 : Nat) < 2 ^ 53 by decide
  have none : Binary64.Exact 0 := show (0 : Nat) < 2 ^ 53 by decide
  refine ⟨rfl, _, List.mem_singleton.2 rfl, rfl, fun now => ?_⟩
  exact (Binary64.ofInt_lt_ofInt five none).2 (by decide)

end Config
end NodeSelection
