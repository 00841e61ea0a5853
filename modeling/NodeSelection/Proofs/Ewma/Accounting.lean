import Mathlib
import NodeSelection.Ewma.Stats
import NodeSelection.Proofs.Lists

/-! The accounts of one node. A run starts calls, ends each at most once, in any order,
and asks for load and weight in between. Beside the statistics it keeps every call
with its number, its own start and, once it has ended, the latency it was told.
The open calls, their count and the number of requests always agree with that record. -/

namespace NodeSelection.Ewma

namespace OpenCalls

theorem file_of_above {number : Nat} {start : Int} {l : List (Nat × Int)}
    (above : ∀ e ∈ l, e.1 < number) : file number start l = l ++ [(number, start)] := by
  induction l with
  | nil => rfl
  | cons e rest ih =>
    have first := above e List.mem_cons_self
    rw [file, if_neg (by omega), if_neg (by omega),
      ih fun d later => above d (List.mem_cons_of_mem e later), List.cons_append]

theorem around_entry {c : OpenCalls} {number : Nat} {start : Int} {before after : List (Nat × Int)}
    (entries : c.entries = before ++ (number, start) :: after) :
    (∀ e ∈ before, e.1 < number) ∧ ∀ e ∈ after, number < e.1 := by
  have sorted := c.sorted
  rw [entries, List.pairwise_append] at sorted
  exact ⟨fun e mem => sorted.2.2 e mem _ List.mem_cons_self, (List.pairwise_cons.1 sorted.2.1).1⟩

theorem start?_entry {c : OpenCalls} {number : Nat} {start : Int} {before after : List (Nat × Int)}
    (entries : c.entries = before ++ (number, start) :: after) :
    c.start? number = some start := by
  have others : before.find? (fun e => e.1 == number) = none := by
    refine List.find?_eq_none.2 fun e mem => ?_
    have below := (around_entry entries).1 e mem
    simpa using Nat.ne_of_lt below
  rw [start?, entries, List.find?_append, others]
  simp

theorem erase_entry {c : OpenCalls} {number : Nat} {start : Int} {before after : List (Nat × Int)}
    (entries : c.entries = before ++ (number, start) :: after) :
    (c.erase number).entries = before ++ after := by
  obtain ⟨below, above⟩ := around_entry entries
  have first : before.filter (fun e => e.1 != number) = before := by
    refine List.filter_eq_self.2 fun e mem => ?_
    simpa using Nat.ne_of_lt (below e mem)
  have last : after.filter (fun e => e.1 != number) = after := by
    refine List.filter_eq_self.2 fun e mem => ?_
    simpa using Nat.ne_of_gt (above e mem)
  simp [erase, entries, first, last]

end OpenCalls

/-- What may happen to a node. A call is named by its place among all calls started. -/
inductive Act where
  | start (now : Int)
  | finish (call : Nat) (now : Int) (failed : Bool)
  | load (now : Int)
  | weigh (now : Int)

def Act.startTime? : Act → Option Int
  | start now => some now
  | _ => none

def startTimes (acts : List Act) : List Int := acts.filterMap Act.startTime?

/-- A call: the number handed out for it, its start, and when it has ended the time at which it
did and the latency that it was told. -/
structure Call where
  number : Nat
  start : Int
  ended : Option (Int × Int)

def unended (calls : List Call) : List (Nat × Int) :=
  (calls.filter fun c => c.ended.isNone).map fun c => (c.number, c.start)

structure Ledger (α : Type) where
  stats : Stats α
  calls : List Call

namespace Ledger
variable {α : Type} [Add α] [Sub α] [Mul α] [Div α] [Neg α] [Scalar α]

def fresh : Ledger α := ⟨Stats.fresh, []⟩

/-- One act. Nothing happens when a call is to be ended that was never started or has ended. -/
def step (t : Tuning α) (l : Ledger α) : Act → Ledger α
  | .start now =>
    let r := l.stats.start now
    ⟨r.1, l.calls ++ [⟨r.2, now, none⟩]⟩
  | .finish call now failed =>
    match l.calls[call]? with
    | some ⟨number, start, none⟩ =>
      let r := l.stats.finish t number now failed
      ⟨r.1, l.calls.set call ⟨number, start, some (now, r.2)⟩⟩
    | _ => l
  | .load now => ⟨(l.stats.load t now).2, l.calls⟩
  | .weigh now => ⟨(l.stats.weight t now).2, l.calls⟩

def run (t : Tuning α) (l : Ledger α) (acts : List Act) : Ledger α := acts.foldl (step t) l

end Ledger

theorem unended_append (first second : List Call) :
    unended (first ++ second) = unended first ++ unended second := by
  simp [unended]

theorem mem_numbers_of_mem_unended {calls : List Call} {e : Nat × Int}
    (mem : e ∈ unended calls) : e.1 ∈ calls.map Call.number := by
  simp only [unended, List.mem_map, List.mem_filter] at mem
  obtain ⟨c, ⟨listed, _⟩, rfl⟩ := mem
  exact List.mem_map_of_mem listed

theorem unended_set {calls : List Call} {call number : Nat} {start : Int}
    (found : calls[call]? = some ⟨number, start, none⟩) (last : Int × Int) :
    ∃ before after, unended calls = before ++ (number, start) :: after ∧
      unended (calls.set call ⟨number, start, some last⟩) = before ++ after := by
  obtain ⟨inside, own⟩ := List.getElem?_eq_some_iff.1 found
  have split : calls = calls.take call ++ ⟨number, start, none⟩ :: calls.drop (call + 1) := by
    rw [← own, List.getElem_cons_drop, List.take_append_drop]
  refine ⟨unended (calls.take call), unended (calls.drop (call + 1)), ?_, ?_⟩
  · conv_lhs => rw [split, unended_append]
    rfl
  · rw [List.set_eq_take_append_cons_drop, if_pos inside, unended_append]
    rfl

-- The count of open calls needs no numbers: it moves with every call that begins or ends.
/-- The count agrees with the record of calls as far as a word can tell. -/
def Counted {α : Type} (l : Ledger α) : Prop :=
  l.stats.inflight = Word.wrapSigned (1 + (unended l.calls).length)

theorem counted_fresh {α : Type} [Scalar α] : Counted (Ledger.fresh : Ledger α) :=
  show (1 : Int) = Word.wrapSigned (1 + 0) by decide

theorem Stats.inflight_refresh {α : Type} (s : Stats α) (now : Int) :
    (s.refresh now).inflight = s.inflight := by
  rw [refresh]
  split <;> rfl

section
variable {α : Type} [Add α] [Sub α] [Mul α] [Div α] [Neg α] [Scalar α]

theorem Counted.step {l : Ledger α} (counted : Counted l) (t : Tuning α) (act : Act) :
    Counted (l.step t act) := by
  rw [Counted] at counted
  cases act with
  | start now =>
    simp only [Counted, Ledger.step, Stats.start, counted, unended_append, List.length_append,
      Word.wrapSigned, Int.bmod_add_bmod]
    simp [unended, Int.add_assoc]
  | finish call now failed =>
    rw [Ledger.step]
    split
    case h_2 => exact counted
    case h_1 number start found =>
      obtain ⟨before, after, open_, left⟩ := unended_set found (now, l.stats.latency number now)
      simp only [Counted, Stats.finish, Stats.close, Stats.absorb, left]
      rw [counted, open_, Word.wrapSigned, Word.wrapSigned, Int.bmod_sub_bmod]
      congr 1
      simp only [List.length_append, List.length_cons]
      omega
  | load now => exact (l.stats.inflight_refresh now).trans counted
  | weigh now => exact (l.stats.inflight_refresh now).trans counted

theorem Counted.run {l : Ledger α} (counted : Counted l) (t : Tuning α) (acts : List Act) :
    Counted (l.run t acts) := by
  induction acts generalizing l with
  | nil => exact counted
  | cons act rest ih => exact ih (counted.step t act)

end

theorem Counted.inflight_eq {α : Type} {l : Ledger α} (counted : Counted l)
    (room : (unended l.calls).length + 1 < 2 ^ 63) :
    l.stats.inflight = 1 + (unended l.calls).length := by
  rw [counted, Word.wrapSigned, Word.count]
  exact Int.bmod_eq_of_le (by omega) (by omega)

structure Accounted {α : Type} (l : Ledger α) : Prop where
  numbers : l.calls.map Call.number = List.range l.calls.length
  requests : l.stats.requests = l.calls.length
  entries : l.stats.openCalls.entries = unended l.calls
  inflight : l.stats.inflight = Word.wrapSigned (1 + (unended l.calls).length)
  latency : ∀ c ∈ l.calls, ∀ time latency, c.ended = some (time, latency) →
    latency = Stamp.since time c.start

theorem accounted_fresh {α : Type} [Scalar α] : Accounted (Ledger.fresh : Ledger α) where
  numbers := rfl
  requests := rfl
  entries := rfl
  inflight := counted_fresh
  latency c member := by cases member

theorem Accounted.refresh {α : Type} {l : Ledger α} (accounted : Accounted l) (now : Int) :
    Accounted ⟨l.stats.refresh now, l.calls⟩ := by
  -- Only the prediction is renewed.
  obtain ⟨numbers, requests, entries, inflight, latency⟩ := accounted
  rw [Stats.refresh]
  split
  · exact ⟨numbers, requests, entries, inflight, latency⟩
  · exact ⟨numbers, requests, entries, inflight, latency⟩

section
variable {α : Type} [Add α] [Sub α] [Mul α] [Div α] [Neg α] [Scalar α]

theorem Accounted.start {l : Ledger α} (accounted : Accounted l)
    (room : l.calls.length < Word.maxUnsigned) (t : Tuning α) (now : Int) :
    Accounted (l.step t (.start now)) := by
  have number : l.stats.requests = l.calls.length := accounted.requests
  have above : ∀ e ∈ l.stats.openCalls.entries, e.1 < l.stats.requests := by
    intro e filed
    rw [accounted.entries] at filed
    have member := mem_numbers_of_mem_unended filed
    rwa [accounted.numbers, List.mem_range, ← number] at member
  refine ⟨?_, ?_, ?_, ?_, fun c member time latency ended => ?_⟩
  · simp only [Ledger.step, Stats.start, List.map_append, List.map_singleton, accounted.numbers,
      List.length_append, List.length_singleton, List.range_succ, number]
  · simp only [Ledger.step, Stats.start, number, List.length_append, List.length_singleton]
    exact_mod_cast Word.wrapUnsigned_natCast room
  · simp only [Ledger.step, Stats.start, OpenCalls.insert, OpenCalls.file_of_above above,
      unended_append]
    rw [accounted.entries]
    rfl
  · exact Counted.step accounted.inflight t (.start now)
  · simp only [Ledger.step, List.mem_append, List.mem_singleton] at member
    cases member with
    | inl earlier => exact accounted.latency c earlier time latency ended
    | inr last =>
      subst last
      cases ended

theorem Accounted.finish {l : Ledger α} (accounted : Accounted l) (t : Tuning α) (call : Nat)
    (now : Int) (failed : Bool) : Accounted (l.step t (.finish call now failed)) := by
  rw [Ledger.step]
  split
  case h_2 => exact accounted
  case h_1 number start found =>
    -- The entry of this call is there, for it has not ended, and it is the one that goes.
    obtain ⟨before, after, open_, left⟩ :=
      unended_set found (now, l.stats.latency number now)
    have entries := accounted.entries.trans open_
    have told : l.stats.latency number now = Stamp.since now start := by
      rw [Stats.latency, OpenCalls.start?_entry entries, Option.getD_some]
    refine ⟨?_, ?_, ?_, ?_, fun c member time latency ended => ?_⟩
    · dsimp only
      rw [map_set_of_eq found, List.length_set, accounted.numbers]
      rfl
    · simpa [Stats.finish, Stats.close, Stats.absorb] using accounted.requests
    · simp only [Stats.finish, Stats.close, Stats.absorb]
      rw [OpenCalls.erase_entry entries, left]
    · have counted := Counted.step accounted.inflight t (.finish call now failed)
      rw [Ledger.step, found] at counted
      exact counted
    · cases List.mem_or_eq_of_mem_set member with
      | inl earlier => exact accounted.latency c earlier time latency ended
      | inr same =>
        subst same
        cases ended
        exact told

theorem starts_step (t : Tuning α) (l : Ledger α) (act : Act) :
    (l.step t act).calls.map Call.start = l.calls.map Call.start ++ act.startTime?.toList := by
  cases act with
  | start now => simp [Ledger.step, Act.startTime?]
  | finish call now failed =>
    rw [Ledger.step]
    split
    case h_2 => simp [Act.startTime?]
    case h_1 number start found =>
      dsimp only
      rw [map_set_of_eq found]
      · simp [Act.startTime?]
      · rfl
  | load now => simp [Ledger.step, Act.startTime?]
  | weigh now => simp [Ledger.step, Act.startTime?]

theorem starts_run (t : Tuning α) (l : Ledger α) (acts : List Act) :
    (l.run t acts).calls.map Call.start = l.calls.map Call.start ++ startTimes acts := by
  induction acts generalizing l with
  | nil => simp [Ledger.run, startTimes]
  | cons act rest ih =>
    rw [Ledger.run, List.foldl_cons, ← Ledger.run, ih, starts_step, startTimes, startTimes,
      List.filterMap_cons, List.append_assoc]
    cases act.startTime? <;> rfl

theorem Accounted.step {l : Ledger α} (accounted : Accounted l) (t : Tuning α) {act : Act}
    (room : (l.step t act).calls.length ≤ Word.maxUnsigned) : Accounted (l.step t act) := by
  cases act with
  | start now =>
    rw [Ledger.step, List.length_append] at room
    exact accounted.start room t now
  | finish call now failed => exact accounted.finish t call now failed
  | load now => exact accounted.refresh now
  | weigh now => exact accounted.refresh now

theorem Accounted.run {l : Ledger α} (accounted : Accounted l) (t : Tuning α) {acts : List Act}
    (room : (l.run t acts).calls.length ≤ Word.maxUnsigned) : Accounted (l.run t acts) := by
  induction acts generalizing l with
  | nil => exact accounted
  | cons act rest ih =>
    rw [Ledger.run, List.foldl_cons, ← Ledger.run] at room ⊢
    have lengths := congrArg List.length (starts_run t (l.step t act) rest)
    simp only [List.length_map, List.length_append] at lengths
    exact ih (accounted.step t (by omega)) room

theorem accounted_run (t : Tuning α) {acts : List Act}
    (few : (startTimes acts).length < 2 ^ 64) : Accounted (Ledger.fresh.run t acts) := by
  have lengths := congrArg List.length (starts_run t Ledger.fresh acts)
  rw [List.length_map, List.length_append] at lengths
  refine accounted_fresh.run t ?_
  rw [lengths, Word.maxUnsigned]
  simp only [Ledger.fresh, List.map_nil, List.length_nil]
  omega

/-- What the statistics of a node say after any run from the start. -/
theorem run_accounts (t : Tuning α) {acts : List Act} (few : (startTimes acts).length < 2 ^ 64) :
    let l := Ledger.fresh.run t acts
    l.calls.map Call.start = startTimes acts ∧ l.stats.requests = (startTimes acts).length ∧
      (l.calls.map Call.number).Nodup ∧ l.stats.openCalls.entries = unended l.calls ∧
      l.stats.inflight = Word.wrapSigned (1 + (unended l.calls).length) ∧
      ((unended l.calls).length + 1 < 2 ^ 63 →
        l.stats.inflight = 1 + (unended l.calls).length) ∧
      ∀ c ∈ l.calls, ∀ time latency, c.ended = some (time, latency) →
        latency = max (Word.clampSigned (time - c.start)) 0 := by
  intro l
  have accounted : Accounted l := accounted_run t few
  have started : l.calls.map Call.start = startTimes acts := starts_run t Ledger.fresh acts
  refine ⟨started, ?_, ?_, accounted.entries, accounted.inflight, fun room => ?_,
    accounted.latency⟩
  · rw [accounted.requests, ← started, List.length_map]
  · rw [accounted.numbers]
    exact List.nodup_range
  · exact Counted.inflight_eq accounted.inflight room

theorem length_unended_starts (t : Tuning α) (now : Int) (n : Nat) :
    (unended (Ledger.fresh.run t (List.replicate n (.start now))).calls).length = n := by
  induction n with
  | zero => rfl
  | succ n ih =>
    rw [Ledger.run] at ih ⊢
    rw [List.replicate_succ', List.foldl_append, List.foldl_cons, List.foldl_nil, Ledger.step,
      unended_append, List.length_append, ih]
    rfl

end

theorem run_accounts_overlapping :
    let l := Ledger.fresh.run (Tuning.ofNanos defaultTau defaultPenalty none : Tuning Float)
      [.start 5, .weigh 6, .start 7, .finish 0 9 false, .load 9, .finish 0 10 true, .start 11]
    l.stats.inflight = 3 ∧ l.stats.openCalls.entries = [(1, 7), (2, 11)] := by
  intro l
  have few : (startTimes [.start 5, .weigh 6, .start 7, .finish 0 9 false, .load 9,
      .finish 0 10 true, .start 11]).length < 2 ^ 64 := by decide
  obtain ⟨_, _, _, entries, _, exact, _⟩ :=
    run_accounts (Tuning.ofNanos defaultTau defaultPenalty none : Tuning Float) few
  exact ⟨exact (by decide), entries⟩

/-- The count of open calls overflows when half of all words are open calls. -/
theorem inflight_overflows :
    ¬ ∀ acts : List Act, (startTimes acts).length < 2 ^ 64 →
      (Ledger.fresh.run (Tuning.ofNanos defaultTau defaultPenalty none : Tuning Float)
        acts).stats.inflight =
      1 + (unended (Ledger.fresh.run
        (Tuning.ofNanos defaultTau defaultPenalty none : Tuning Float) acts).calls).length := by
  intro counted
  obtain ⟨n, half⟩ : ∃ n : Nat, n = 2 ^ 63 - 1 := ⟨_, rfl⟩
  have times : (startTimes (List.replicate n (.start 1))).length = n := by
    have time : (Act.start 1).startTime? = some 1 := rfl
    rw [startTimes, List.filterMap_replicate_of_some time, List.length_replicate]
  have few : (startTimes (List.replicate n (.start 1))).length < 2 ^ 64 := by
    rw [times, half]
    decide
  have claimed := counted _ few
  rw [(accounted_run _ few).inflight, length_unended_starts, half] at claimed
  exact absurd claimed (by decide)

end NodeSelection.Ewma
