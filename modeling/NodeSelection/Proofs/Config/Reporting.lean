import NodeSelection.Proofs.Config.Acceptance

/-! What is said of a configuration that is refused. The report is complete, in order and without
repetition: one line for each setting that is not positive, then, node by node, what is wrong with
the node, where a blank address hides everything else and an address counts as a duplicate when
some node before has it. -/

namespace NodeSelection

theorem Text.trim_eq_empty_iff {s : String} : trim s = "" ↔ isBlankText s := by
  rw [← Bool.not_eq_false, ← trim_ne_empty_iff, not_not]

namespace NodeEntry

def faults (e : NodeEntry) (earlier : List NodeEntry) (index : Nat) : List Violation :=
  if Text.trim e.address = "" then [.emptyAddress index]
  else
    (if e.address ∈ earlier.map address then [.duplicateAddress e.address] else []) ++
      ((e.weight.filter (· < 0)).map (.negativeWeight e.address)).toList

variable {e : NodeEntry} {earlier : List NodeEntry}

theorem faults_of_blank (blank : Text.isBlankText e.address) (index : Nat) :
    e.faults earlier index = [.emptyAddress index] := by
  rw [faults, if_pos (Text.trim_eq_empty_iff.2 blank)]

theorem violations_eq (e : NodeEntry) (seen : List String) :
    e.violations seen =
      (if e.address ∈ seen then [.duplicateAddress e.address] else []) ++
        ((e.weight.filter (· < 0)).map (.negativeWeight e.address)).toList := by
  rw [violations]
  congr 1
  · simp only [List.contains_iff_mem]
  · cases e.weight with
    | none => rfl
    | some w =>
      rw [Option.filter_some]
      by_cases negative : w < 0 <;> simp [negative]

theorem faults_of_not_blank {seen : List String} (bare : Text.isBlankText e.address = false)
    (memory : e.address ∈ seen ↔ e.address ∈ earlier.map address) (index : Nat) :
    e.faults earlier index = e.violations seen := by
  rw [faults, if_neg (Text.trim_ne_empty_iff.2 bare), violations_eq]
  simp only [memory]

theorem count_violations (address : String) (seen : List String) :
    (e.violations seen).count (.duplicateAddress address) =
      if e.address = address ∧ address ∈ seen then 1 else 0 := by
  have weightless : (((e.weight.filter (· < 0)).map (.negativeWeight e.address)).toList).count
      (Violation.duplicateAddress address) = 0 :=
    List.count_eq_zero.2 (by simp)
  rw [violations_eq, List.count_append, weightless]
  by_cases same : e.address = address
  · subst same
    by_cases known : e.address ∈ seen <;> simp [known]
  · by_cases known : e.address ∈ seen <;> simp [known, same]

end NodeEntry

/-- The addresses that a list holds are those of the nodes so far, blank ones left aside. -/
def Remembers (seen : List String) (earlier : List NodeEntry) : Prop :=
  ∀ address, Text.isBlankText address = false →
    (address ∈ seen ↔ address ∈ earlier.map NodeEntry.address)

namespace Remembers

variable {seen : List String} {earlier : List NodeEntry} {e : NodeEntry}

theorem blank (memory : Remembers seen earlier) (blank : Text.isBlankText e.address) :
    Remembers seen (earlier ++ [e]) := by
  intro address bare
  have other : address ≠ e.address := by
    rintro rfl
    rw [blank] at bare
    cases bare
  rw [memory address bare, List.map_append, List.mem_append, List.map_singleton, List.mem_singleton,
    or_iff_left other]

theorem cons (memory : Remembers seen earlier) : Remembers (e.address :: seen) (earlier ++ [e]) := by
  intro address bare
  rw [List.mem_cons, memory address bare, List.map_append, List.mem_append, List.map_singleton,
    List.mem_singleton, or_comm]

end Remembers

theorem nodeViolations_eq_faults {seen : List String} {earlier entries : List NodeEntry}
    (memory : Remembers seen earlier) :
    nodeViolations seen earlier.length entries =
      (entries.zipIdx earlier.length).flatMap fun (e, index) =>
        e.faults ((earlier ++ entries).take index) index := by
  induction entries generalizing seen earlier with
  | nil => rfl
  | cons e rest ih =>
    have whole : earlier ++ e :: rest = (earlier ++ [e]) ++ rest := List.append_cons earlier e rest
    have next : earlier.length + 1 = (earlier ++ [e]).length := by simp
    rw [nodeViolations, List.zipIdx_cons, List.flatMap_cons]
    dsimp only
    rw [List.take_left, whole, next]
    cases blank : Text.isBlankText e.address with
    | true =>
      rw [if_pos rfl, ih (memory.blank blank), NodeEntry.faults_of_blank blank, List.singleton_append]
    | false =>
      rw [if_neg Bool.false_ne_true, ih memory.cons,
        NodeEntry.faults_of_not_blank blank (memory _ blank)]

theorem count_nodeViolations (address : String) (seen : List String) (index : Nat)
    (entries : List NodeEntry) :
    (nodeViolations seen index entries).count (.duplicateAddress address) =
      if Text.isBlankText address then 0
      else (entries.map NodeEntry.address).count address - if address ∈ seen then 0 else 1 := by
  induction entries generalizing seen index with
  | nil => simp [nodeViolations]
  | cons e rest ih =>
    rw [nodeViolations, List.map_cons]
    cases blank : Text.isBlankText e.address with
    | true =>
      rw [if_pos rfl, List.count_cons_of_ne (by simp), ih]
      by_cases same : e.address = address
      · rw [if_pos (same ▸ blank), if_pos (same ▸ blank)]
      · rw [List.count_cons_of_ne same]
    | false =>
      rw [if_neg Bool.false_ne_true, List.count_append, NodeEntry.count_violations, ih]
      by_cases same : e.address = address
      · subst same
        rw [blank, if_neg Bool.false_ne_true, if_neg Bool.false_ne_true, List.count_cons_self,
          if_pos List.mem_cons_self]
        by_cases known : e.address ∈ seen <;> simp [known]
        omega
      · have elsewhere : address ∈ e.address :: seen ↔ address ∈ seen := by
          rw [List.mem_cons, or_iff_right (Ne.symm same)]
        simp [same, elsewhere]

namespace Config

def positives (c : Config) : List (String × Int) :=
  [("ewma.tau_ms", c.ewma.tauMs), ("ewma.penalty_ms", c.ewma.penaltyMs),
    ("p2c.force_pick_ms", c.twoChoices.forcePickMs),
    ("direct.default_weight", c.direct.defaultWeight)]

def report (c : Config) : List Violation :=
  (c.positives.filter (·.2 ≤ 0)).map (.notPositive ·.1) ++
    c.nodes.zipIdx.flatMap fun (e, index) => e.faults (c.nodes.take index) index

structure Sound (c : Config) : Prop where
  tau : c.ewma.tauMs ≠ 0
  penalty : c.ewma.penaltyMs ≠ 0
  forcePick : c.twoChoices.forcePickMs ≠ 0
  defaultWeight : 0 < c.direct.defaultWeight
  addressed : ∀ e ∈ c.nodes, Text.trim e.address ≠ ""
  distinct : (c.nodes.map NodeEntry.address).Nodup
  weighted : ∀ e ∈ c.nodes, ∀ w, e.weight = some w → 0 ≤ w

theorem settingViolations_eq (c : Config) :
    c.settingViolations = (c.positives.filter (·.2 ≤ 0)).map (.notPositive ·.1) := by
  have front (field : String) (value : Int) (rest : List (String × Int)) :
      (((field, value) :: rest).filter (·.2 ≤ 0)).map (Violation.notPositive ·.1) =
        (if value ≤ 0 then [.notPositive field] else []) ++
          (rest.filter (·.2 ≤ 0)).map (.notPositive ·.1) := by
    by_cases low : value ≤ 0 <;> simp [low]
  rw [positives, front, front, front, front]
  simp [settingViolations]

theorem violations_eq_report (c : Config) : c.violations = c.report := by
  have nothing : Remembers [] [] := fun _ _ => Iff.rfl
  rw [violations, report, settingViolations_eq]
  exact congrArg _ (nodeViolations_eq_faults nothing)

theorem count_report (c : Config) (address : String) :
    c.report.count (.duplicateAddress address) =
      if Text.trim address = "" then 0 else (c.nodes.map NodeEntry.address).count address - 1 := by
  have settings : c.settingViolations.count (.duplicateAddress address) = 0 := by
    rw [settingViolations_eq]
    exact List.count_eq_zero.2 (by simp)
  rw [← violations_eq_report, violations, List.count_append, settings, count_nodeViolations]
  simp [Text.trim_eq_empty_iff]

theorem sound_iff {c : Config} :
    c.Sound ↔ c.settingViolations = [] ∧ nodeViolations [] 0 c.nodes = [] := by
  rw [settingViolations_eq_nil_iff, nodeViolations_eq_nil_iff]
  constructor
  · intro s
    refine ⟨⟨s.tau, s.penalty, s.forcePick, s.defaultWeight⟩, fun e member => ?_, s.distinct⟩
    exact ⟨Text.trim_ne_empty_iff.1 (s.addressed e member), List.not_mem_nil, s.weighted e member⟩
  · rintro ⟨⟨tau, penalty, forcing, weight⟩, entries, distinct⟩
    exact ⟨tau, penalty, forcing, weight,
      fun e member => Text.trim_ne_empty_iff.2 (entries e member).1, distinct,
      fun e member => (entries e member).2.2⟩

/-- Accepted is what is sound, and of anything else the report says what is wrong; of nodes with
one address it names every one but the first. -/
theorem validate_reports (c : Config) :
    (c.validate = .ok () ↔ c.Sound) ∧ (¬ c.Sound → c.validate = .error c.report) ∧
      ∀ address, c.report.count (.duplicateAddress address) =
        if Text.trim address = "" then 0
        else (c.nodes.map NodeEntry.address).count address - 1 := by
  have accepts : c.validate = .ok () ↔ c.Sound := validate_eq_ok_iff.trans sound_iff.symm
  refine ⟨accepts, fun unsound => ?_, c.count_report⟩
  rw [← accepts] at unsound
  rw [← violations_eq_report]
  rw [validate] at unsound ⊢
  split
  · rename_i none
    exact absurd (if_pos none) unsound
  · rfl

def faulty : Config :=
  { standard with
    ewma := ⟨0, 10000⟩
    nodes := [("a", none), (" ", some (-2)), ("a", some (-1)), ("a", none)].map
      fun (address, weight) =>
        ⟨NodeEntry.defaultScheme, address, "", "", weight, Table.empty⟩ }

/-- Each fault is told once; the negative weight of the blank node is not. -/
theorem validate_reports_mixture :
    ¬ faulty.Sound ∧
      faulty.validate = .error [.notPositive "ewma.tau_ms", .emptyAddress 1,
        .duplicateAddress "a", .negativeWeight "a" (-1), .duplicateAddress "a"] ∧
      faulty.report.count (.duplicateAddress "a") = 2 := by
  have unsound : ¬ faulty.Sound := fun sound => sound.tau rfl
  have named : Text.trim "a" ≠ "" := by decide
  refine ⟨unsound, (validate_reports faulty).2.1 unsound, ?_⟩
  rw [(validate_reports faulty).2.2 "a", if_neg named]
  rfl

end Config
end NodeSelection
