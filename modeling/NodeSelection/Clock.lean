import NodeSelection.Word

/-!
Time. A stamp is a count of nanoseconds that starts at one, so that zero is free
to mean "never": `Clock.stamp_pos` says no clock value produces it. Differences of
stamps clamp at the ends of the signed words and time that runs backwards counts
as no time at all.
-/

namespace NodeSelection

def nanosPerMilli : Nat := 1000000

namespace Stamp

/-- How long before `now` the stamp `start` lies; negative where it lies ahead. -/
def age (now start : Int) : Int := Word.clampSigned (now - start)

def since (now start : Int) : Int := max (age now start) 0

theorem since_nonneg (now start : Int) : 0 ≤ since now start := by
  simp only [since]
  omega

theorem since_eq {now start : Int} (upper : now - start ≤ Word.maxSigned) :
    since now start = max (now - start) 0 := by
  simp only [since, age, Word.clampSigned, Word.minSigned, Word.maxSigned] at *
  omega

end Stamp

/-- The clock shared by everything in a process, in nanoseconds since its start. Any integer is a
value: stamps are taken from the nearest one that a process can reach. -/
structure Clock where
  value : Int
deriving DecidableEq, Repr

namespace Clock

def start : Clock := ⟨0⟩

instance : Inhabited Clock := ⟨start⟩

def set (_ : Clock) (value : Int) : Clock := ⟨value⟩

def advance (c : Clock) (offset : Int) : Clock := ⟨c.value + offset⟩

def stamp (c : Clock) : Int :=
  Word.clampSigned (min (max c.value 0) Word.maxSigned + 1)

theorem stamp_pos (c : Clock) : 0 < c.stamp := by
  simp only [stamp, Word.clampSigned, Word.minSigned, Word.maxSigned]
  omega

theorem stamp_le_maxSigned (c : Clock) : c.stamp ≤ Word.maxSigned :=
  Word.clampSigned_le_maxSigned _

end Clock

inductive Idle where
  | never
  | nanos (count : Nat)
deriving DecidableEq, Repr

namespace Idle

/-- Idle time at `now` of what was last used at `stamp`, where stamp zero means never. -/
def since (now stamp : Int) : Idle :=
  if stamp = 0 then never else nanos (Stamp.since now stamp).toNat

/-- The longest duration that can be told, in nanoseconds. -/
def longest : Nat := 18446744073709551615999999999

/-- Whether an idle time is strictly longer than a limit. What was never used has been idle for the
longest duration there is. -/
def exceeds (limit : Nat) : Idle → Bool
  | never => limit < longest
  | nanos count => limit < count

def millis : Idle → Nat
  | never => Word.maxUnsigned
  | nanos count => count / nanosPerMilli

end Idle

end NodeSelection
