import NodeSelection.Proofs.Config.Acceptance

/-! Weights on their way through the metadata. A configured weight is written there as text and read
back by the node: every word comes through, and no other entry is touched. Without one, the entry
that stands there counts when it holds an integer in the range of the words, and else nothing does. -/

namespace NodeSelection

theorem Node.weight?_eq_some_iff {text : String} {x : Int} :
    weight? text = some x ↔
      Numeral.Holds text x ∧ Word.minSigned ≤ x ∧ x ≤ Word.maxSigned := by
  rw [weight?, Numeral.signedWord?, Option.filter_eq_some_iff, Numeral.int?_trim_eq_some_iff,
    decide_eq_true_eq]

namespace NodeEntry

theorem get?_metadata_of_weight {e : NodeEntry} {w : Int} (set : e.weight = some w) (key : String) :
    e.toNode.metadata.get? key =
      if key = Node.weightKey then some (toString w) else e.metadata.get? key := by
  have written : e.toNode.metadata = e.metadata.insert Node.weightKey (Numeral.ofInt w) := by
    rw [toNode, Node.ofInstance, published, fullMetadata, set]
  rw [written, Table.get?_insert, Numeral.ofInt_eq_toString]

theorem metadata_of_no_weight {e : NodeEntry} (unset : e.weight = none) :
    e.toNode.metadata = e.metadata := by
  rw [toNode, Node.ofInstance, published, fullMetadata, unset]

theorem initialWeight_of_weight {e : NodeEntry} {w : Int} (set : e.weight = some w)
    (lower : Word.minSigned ≤ w) (upper : w ≤ Word.maxSigned) :
    e.toNode.initialWeight = some w := by
  rw [initialWeight_toNode, set]
  exact Option.filter_eq_some_iff.2 ⟨rfl, decide_eq_true ⟨lower, upper⟩⟩

theorem initialWeight_of_no_weight {e : NodeEntry} (unset : e.weight = none) (x : Int) :
    e.toNode.initialWeight = some x ↔
      ∃ text, e.metadata.get? Node.weightKey = some text ∧ Numeral.Holds text x ∧
        Word.minSigned ≤ x ∧ x ≤ Word.maxSigned := by
  rw [initialWeight_toNode, unset, metadataWeight?, Option.bind_eq_some_iff]
  simp only [Node.weight?_eq_some_iff]

/-- What a node has of its entry. A weight of the entry, which is a word, is the node's, and its
decimal text takes the place of what the metadata say of it; without one the metadata stay, and a
weight is what they hold. -/
theorem toNode_carries (e : NodeEntry) :
    (e.toNode.scheme = e.scheme ∧ e.toNode.address = e.address ∧
      e.toNode.serviceName = e.serviceName ∧ e.toNode.version = e.version) ∧
    (∀ w, e.weight = some w →
      (Word.minSigned ≤ w → w ≤ Word.maxSigned → e.toNode.initialWeight = some w) ∧
      ∀ key, e.toNode.metadata.get? key =
        if key = "weight" then some (toString w) else e.metadata.get? key) ∧
    (e.weight = none →
      e.toNode.metadata = e.metadata ∧
      ∀ x, e.toNode.initialWeight = some x ↔
        ∃ text, e.metadata.get? "weight" = some text ∧ Numeral.Holds text x ∧
          Word.minSigned ≤ x ∧ x ≤ Word.maxSigned) := by
  refine ⟨⟨rfl, rfl, rfl, rfl⟩, fun w set => ⟨?_, ?_⟩, fun unset => ⟨?_, ?_⟩⟩
  · exact initialWeight_of_weight set
  · exact get?_metadata_of_weight set
  · exact metadata_of_no_weight unset
  · exact initialWeight_of_no_weight unset

def weighing (weight : Option Int) (text : String) : NodeEntry :=
  ⟨defaultScheme, "a", "", "", weight, Table.empty.insert Node.weightKey text⟩

/-- The least word takes the place of a text; a text counts with its sign, its leading zeros and the
blanks around it. -/
theorem toNode_carries_least :
    (weighing (some Word.minSigned) "7").toNode.initialWeight = some Word.minSigned ∧
      (weighing (some Word.minSigned) "7").toNode.metadata.get? "weight" =
        some "-9223372036854775808" ∧
      (weighing none "\t-007 ").toNode.initialWeight = some (-7) := by
  have set := (toNode_carries (weighing (some Word.minSigned) "7")).2.1 Word.minSigned rfl
  have unset := (toNode_carries (weighing none "\t-007 ")).2.2 rfl
  have shown : toString Word.minSigned = "-9223372036854775808" := by decide +kernel
  have digits : Numeral.WritesNat ['0', '0', '7'] 7 := ⟨List.cons_ne_nil _ _, by simp, rfl⟩
  have held : Numeral.Holds "\t-007 " (-7) :=
    ⟨['\t'], ['-', '0', '0', '7'], [' '], by simp, by simp [Text.isBlank, Text.blankRanges], .minus digits⟩
  refine ⟨set.1 (by decide) (by decide), ?_, (unset.2 (-7)).2 ?_⟩
  · rw [set.2 "weight", if_pos rfl, shown]
  · exact ⟨"\t-007 ", rfl, held, by decide, by decide⟩

end NodeEntry
end NodeSelection
