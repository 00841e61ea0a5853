import NodeSelection.Clock

/-!
Foreseeing a slow node. The age of a call that is still open is a lower bound of
its latency. When more than half of the open calls, and one more, are older than
the average latency, their mean age is what the next call has to expect;
otherwise the prediction is zero.
-/

namespace NodeSelection.Ewma

def minScanInterval : Int := 5000000

def maxScanInterval : Int := 200000000

def scanInterval (lag : Int) : Int :=
  max minScanInterval (min (Int.tdiv lag 5) maxScanInterval)

def slowAges (now lag : Int) (starts : List Int) : List Int :=
  (starts.map (Stamp.age now)).filter (lag < ·)

def clampedSum (ages : List Int) : Int :=
  ages.foldl (fun total age => Word.clampSigned (total + age)) 0

/-- The mean age of the slow calls, toward zero, where there are enough of them. -/
def predictedLag (now lag : Int) (starts : List Int) : Int :=
  let slow := slowAges now lag starts
  if starts.length / 2 + 1 < slow.length then Int.tdiv (clampedSum slow) slow.length else 0

theorem minScanInterval_le_scanInterval (lag : Int) : minScanInterval ≤ scanInterval lag := by
  simp only [scanInterval]
  omega

theorem scanInterval_le_maxScanInterval (lag : Int) : scanInterval lag ≤ maxScanInterval := by
  simp only [scanInterval, minScanInterval, maxScanInterval]
  omega

theorem mem_slowAges {now lag age : Int} {starts : List Int} :
    age ∈ slowAges now lag starts ↔ (∃ s ∈ starts, Stamp.age now s = age) ∧ lag < age := by
  simp [slowAges]

end NodeSelection.Ewma
