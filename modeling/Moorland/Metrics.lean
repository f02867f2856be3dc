import Moorland.Grid.Statistics
import Moorland.Journal
/-!
# Metrics

Metrics count the steps of a simulation and any other happenings by name. Every so many steps, the
**interval**, a summary of the grid goes to the journal; statistics are only taken then, or at every
step if the journal listens to details.
-/

namespace Moorland

/-- **The metrics of a run.** -/
structure Metrics where
  /-- The number of steps since the last reset. -/
  steps : UInt64
  /-- How long the last step took, in microseconds. -/
  lastMicros : UInt64
  /-- The number of cells with population when statistics were last taken. -/
  live : UInt64
  /-- The number of steps between summaries. -/
  interval : UInt64
  /-- The counters, by name. -/
  counters : List (String × UInt64)
deriving DecidableEq, Repr

namespace Metrics

/-- Metrics that have seen nothing. An interval of zero counts as one. -/
def ofInterval (interval : UInt64) : Metrics := ⟨0, 0, 0, if interval = 0 then 1 else interval, []⟩

theorem interval_ofInterval_ne (interval : UInt64) : (ofInterval interval).interval ≠ 0 := by
  rw [ofInterval]
  split
  · decide
  · assumption

/-- Metrics with a summary every thousand steps. -/
def standard : Metrics := ofInterval 1000

/-- The value of a counter, zero if it never counted. -/
def counter (m : Metrics) (name : String) : UInt64 := (m.counters.lookup name).getD 0

/-- Add one to a counter among others, which is put last if it is new. -/
def bump (name : String) : List (String × UInt64) → List (String × UInt64)
  | [] => [(name, 1)]
  | (other, n) :: rest =>
    if other = name then (other, n + 1) :: rest else (other, n) :: bump name rest

/-- **Count a happening.** -/
def increment (m : Metrics) (name : String) : Metrics := { m with counters := bump name m.counters }

/-- Among bumped counters one is greater by one, or new. -/
theorem lookup_bump (name other : String) (cs : List (String × UInt64)) :
    (bump name cs).lookup other =
      if other = name then some ((cs.lookup name).getD 0 + 1) else cs.lookup other := by
  induction cs with
  | nil => grind [bump]
  | cons c cs ih =>
    obtain ⟨key, n⟩ := c
    grind [bump]

/-- **Counting a happening changes its counter only.** -/
theorem counter_increment (m : Metrics) (name other : String) :
    (m.increment name).counter other =
      if other = name then m.counter name + 1 else m.counter other := by
  rw [counter, increment, lookup_bump]
  split <;> rfl

/-- **Record a step** that took so many nanoseconds and gave a grid. Shorter times are reported in
words, which a very long time does not fit in. -/
def recordStep (m : Metrics) (j : Journal) (nanoseconds : Nat) (g : Grid) : Metrics × Journal :=
  let step := m.steps + 1
  let micros := UInt64.ofNat (nanoseconds / 1000)
  let m := { m with steps := step, lastMicros := micros }
  let due := step % m.interval = 0
  if due ∨ j.hears .debug then
    let stats := g.statistics
    let j := j.add .debug "Simulation step"
      [("step", .count step.toNat), ("live_cells", .count stats.live),
        ("duration_us", .count micros.toNat)]
    let j :=
      if due then
        j.add .info "Simulation summary"
          [("step", .count step.toNat), ("live_cells", .count stats.live),
            ("total_cells", .count stats.total), ("mean_r", .number stats.mean.red),
            ("mean_g", .number stats.mean.green), ("mean_b", .number stats.mean.blue),
            ("duration_ms", .count (UInt64.ofNat (nanoseconds / 1000000)).toNat)]
      else j
    ({ m with live := .ofNat stats.live }, j)
  else (m, j)

/-- Recording a step does not change what the journal listens to. -/
theorem threshold_recordStep (m : Metrics) (j : Journal) (nanoseconds : Nat) (g : Grid) :
    (m.recordStep j nanoseconds g).2.threshold = j.threshold := by
  rw [recordStep]
  dsimp only
  split
  · split <;> simp
  · rfl

/-- Recording a step counts it. -/
theorem steps_recordStep (m : Metrics) (j : Journal) (nanoseconds : Nat) (g : Grid) :
    (m.recordStep j nanoseconds g).1.steps = m.steps + 1 := by
  rw [recordStep]
  dsimp only
  split <;> rfl

/-- The interval of the summaries stays the same. -/
theorem interval_recordStep (m : Metrics) (j : Journal) (nanoseconds : Nat) (g : Grid) :
    (m.recordStep j nanoseconds g).1.interval = m.interval := by
  rw [recordStep]
  dsimp only
  split <;> rfl

/-- **What is counted does not depend on what has been reported**, only on whether details are
listened to. -/
theorem recordStep_congr {j k : Journal} (h : j.threshold = k.threshold) (m : Metrics)
    (nanoseconds : Nat) (g : Grid) :
    (m.recordStep j nanoseconds g).1 = (m.recordStep k nanoseconds g).1 := by
  rw [recordStep, recordStep, Journal.hears_congr h]
  dsimp only
  split <;> rfl

/-- Start over from zero steps. Counters are kept. -/
def resetSteps (m : Metrics) : Metrics := { m with steps := 0 }

/-- The description of metrics. -/
def describe (m : Metrics) : String :=
  "Metrics \x7b step_count: " ++ toString m.steps.toNat ++ ", live_cells: " ++
    toString m.live.toNat ++ ", log_interval: " ++ toString m.interval.toNat ++ " \x7d"

end Metrics

end Moorland
