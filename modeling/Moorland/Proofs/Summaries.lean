import Mathlib.Algebra.Order.Group.Nat
import Mathlib.Data.Nat.Init
import Moorland.Metrics
/-!
# Summaries

Metrics are told of every step, and take the statistics of the grid at every so many of them only.
This file says at which ones, for any list of calls (`Moorland.Metrics.Call`): steps that are
recorded, resets, and happenings that are counted by name.

What is recorded is told by its **records** (`Moorland.Metrics.recordsAfter`), which number the
steps since the last reset. A record is **due** if the interval divides its ordinal, as the word in
which the metrics count shows it (`Moorland.Metrics.Record.isDue`). The main statement is
`Moorland.Metrics.summaries_follow_interval`: the number of cells with population is that of the
latest record that is due, or of the latest one if the journal listens to details; and the summaries
in the journal are those of the records that are due.

The metrics and the records agree on the ordinal of the next record and on the interval
(`Moorland.Metrics.Numbered`), whatever is called; all else is an induction on the calls.
-/

namespace Moorland

/-! ### Summaries in a journal -/

/-- **The event is a summary.** -/
def Event.isSummary (e : Event) : Bool := e.message = "Simulation summary"

/-- **The summaries in a journal**, in order. -/
def Journal.summaries (j : Journal) : List Event := j.events.toList.filter Event.isSummary

theorem Journal.summaries_add (j : Journal) (level : Level) (message : String)
    (fields : List (String × FieldValue)) :
    (j.add level message fields).summaries =
      j.summaries ++ if j.hears level ∧ message = "Simulation summary" then
        [⟨level, message, fields⟩] else [] := by
  rw [summaries, add]
  by_cases h : j.hears level = true
  · by_cases hm : message = "Simulation summary" <;>
      simp [h, hm, summaries, List.filter_append, Event.isSummary]
  · simp [h, summaries]

namespace Metrics

variable {m : Metrics} {j : Journal} {every before : Nat}

/-! ### Calls and records -/

/-- **A call**: what metrics are told. -/
inductive Call
  /-- A step took so many nanoseconds and gave a grid. -/
  | record (nanoseconds : Nat) (g : Grid)
  /-- The steps are counted anew. -/
  | reset
  /-- Something has happened. -/
  | increment (name : String)

/-- The call records a step. -/
def Call.isRecord : Call → Bool
  | .record _ _ => true
  | .reset | .increment _ => false

/-- The metrics and the journal after a call. -/
def perform (state : Metrics × Journal) : Call → Metrics × Journal
  | .record nanoseconds g => state.1.recordStep state.2 nanoseconds g
  | .reset => (state.1.resetSteps, state.2)
  | .increment name => (state.1.increment name, state.2)

/-- The metrics and the journal after a list of calls. -/
def run (state : Metrics × Journal) (calls : List Call) : Metrics × Journal :=
  calls.foldl perform state

/-- **A record**: a step with its ordinal, how long it took, and the grid that it gave. -/
structure Record where
  /-- The number of the step since the last reset. -/
  ordinal : Nat
  /-- How long it took. -/
  nanoseconds : Nat
  /-- The grid that it gave. -/
  grid : Grid

/-- **The records of a list of calls**, the first of which comes so many records after the last
reset. -/
def recordsAfter (before : Nat) : List Call → List Record
  | [] => []
  | .record nanoseconds g :: calls =>
    ⟨before + 1, nanoseconds, g⟩ :: recordsAfter (before + 1) calls
  | .reset :: calls => recordsAfter 0 calls
  | .increment _ :: calls => recordsAfter before calls

namespace Record

/-- The ordinal of a record in a word. -/
def shown (r : Record) : Nat := r.ordinal % UInt64.size

/-- **A record is due** if the interval divides its ordinal. -/
def isDue (every : Nat) (r : Record) : Bool := every ∣ r.shown

/-- The number of cells with population in the grid of a record. -/
def live (r : Record) : UInt64 := .ofNat r.grid.statistics.live

/-- **The summary of a record.** -/
def summary (r : Record) : Event where
  level := .info
  message := "Simulation summary"
  fields := [("step", .count r.shown), ("live_cells", .count r.grid.statistics.live),
    ("total_cells", .count r.grid.statistics.total), ("mean_r", .number r.grid.statistics.mean.red),
    ("mean_g", .number r.grid.statistics.mean.green),
    ("mean_b", .number r.grid.statistics.mean.blue),
    ("duration_ms", .count (UInt64.ofNat (r.nanoseconds / 1000000)).toNat)]

/-- Below the range of a word, a record is due if the interval divides its number. -/
theorem isDue_iff_dvd {r : Record} (h : r.ordinal < UInt64.size) :
    r.isDue every = true ↔ every ∣ r.ordinal := by
  rw [isDue, shown, Nat.mod_eq_of_lt h, decide_eq_true_iff]

end Record

/-! ### One call -/

/-- **The metrics have counted so many steps**, and have the interval. -/
structure Numbered (every before : Nat) (m : Metrics) : Prop where
  /-- The steps since the last reset, in a word. -/
  steps_eq : m.steps = .ofNat before
  /-- The interval. -/
  interval_eq : m.interval.toNat = every

/-- The number of records since the last reset, after one more call. -/
def ordinalAfter (before : Nat) : Call → Nat
  | .record _ _ => before + 1
  | .reset => 0
  | .increment _ => before

theorem Numbered.next (h : Numbered every before m) (j : Journal) (call : Call) :
    Numbered every (ordinalAfter before call) (perform (m, j) call).1 := by
  cases call with
  | record nanoseconds g =>
    refine ⟨?_, ?_⟩
    · exact (steps_recordStep m j nanoseconds g).trans (h.steps_eq ▸ (UInt64.ofNat_add _ _).symm)
    · exact (congrArg UInt64.toNat (interval_recordStep m j nanoseconds g)).trans h.interval_eq
  | reset => exact ⟨rfl, h.interval_eq⟩
  | increment name => exact ⟨h.steps_eq, h.interval_eq⟩

/-- **The metrics find a record due** if it is. -/
theorem Numbered.mod_eq_zero_iff (h : Numbered every before m) (nanoseconds : Nat) (g : Grid) :
    (m.steps + 1) % m.interval = 0 ↔ (Record.mk (before + 1) nanoseconds g).isDue every = true := by
  have hnext : m.steps + 1 = .ofNat (before + 1) := h.steps_eq ▸ (UInt64.ofNat_add _ _).symm
  rw [hnext, ← UInt64.toNat_inj, UInt64.toNat_mod, h.interval_eq, Record.isDue,
    decide_eq_true_iff, Nat.dvd_iff_mod_eq_zero]
  rfl

/-- **Statistics are taken** where a record is due, and of every record where details are listened
to. -/
theorem Numbered.live_recordStep (h : Numbered every before m) (j : Journal) (nanoseconds : Nat)
    (g : Grid) :
    let r : Record := ⟨before + 1, nanoseconds, g⟩
    (m.recordStep j nanoseconds g).1.live =
      if r.isDue every ∨ j.hears .debug then r.live else m.live := by
  intro r
  have hdue := h.mod_eq_zero_iff nanoseconds g
  rw [recordStep]
  dsimp only
  by_cases hr : r.isDue every = true ∨ j.hears .debug = true
  · rw [if_pos (hr.imp_left hdue.mpr), if_pos hr]
    rfl
  · rw [if_neg (mt (Or.imp_left hdue.mp) hr), if_neg hr]

/-- **A summary is reported** where a record is due, if news are listened to. -/
theorem Numbered.summaries_recordStep (h : Numbered every before m) (j : Journal)
    (nanoseconds : Nat) (g : Grid) :
    let r : Record := ⟨before + 1, nanoseconds, g⟩
    (m.recordStep j nanoseconds g).2.summaries =
      j.summaries ++ if r.isDue every ∧ j.hears .info then [r.summary] else [] := by
  intro r
  have hshown : (m.steps + 1).toNat = r.shown := by
    rw [h.steps_eq]
    exact congrArg UInt64.toNat (UInt64.ofNat_add before 1).symm
  have hdue := h.mod_eq_zero_iff nanoseconds g
  rw [recordStep, hshown]
  dsimp only
  by_cases hr : r.isDue every = true
  · rw [if_pos (.inl (hdue.mpr hr)), if_pos (hdue.mpr hr)]
    simp [Journal.summaries_add, Journal.hears_congr (Journal.threshold_add _ _ _ _), hr,
      Record.summary, r]
  · split
    · simp [mt hdue.mp hr, Journal.summaries_add, hr]
    · simp [hr]

/-! ### Lists of calls -/

theorem threshold_perform (state : Metrics × Journal) (call : Call) :
    (perform state call).2.threshold = state.2.threshold := by
  cases call with
  | record nanoseconds g => exact threshold_recordStep state.1 state.2 nanoseconds g
  | reset => rfl
  | increment name => rfl

/-- **The latest record of some** tells the number of cells with population, and none leaves it as
it was. -/
def latestLive (otherwise : UInt64) (records : List Record) : UInt64 :=
  records.getLast?.elim otherwise Record.live

theorem latestLive_cons (otherwise : UInt64) (r : Record) (records : List Record) :
    latestLive otherwise (r :: records) = latestLive r.live records := by
  rw [latestLive, latestLive, List.getLast?_cons]
  cases records.getLast? <;> rfl

/-- **What a list of calls leaves behind**: the live count of the latest record of which statistics
are taken, and the summaries of the records that are due, after those that were there. -/
theorem Numbered.after (h : Numbered every before m) (j : Journal) (calls : List Call) :
    Numbered every (calls.foldl ordinalAfter before) (run (m, j) calls).1 ∧
      (run (m, j) calls).2.threshold = j.threshold ∧
      (run (m, j) calls).1.live = latestLive m.live
        ((recordsAfter before calls).filter fun r => r.isDue every || j.hears .debug) ∧
      (run (m, j) calls).2.summaries = j.summaries ++
        (((recordsAfter before calls).filter fun r => r.isDue every && j.hears .info).map
          Record.summary) := by
  induction calls generalizing before m j with
  | nil => exact ⟨h, rfl, rfl, (List.append_nil _).symm⟩
  | cons call calls ih =>
    have hthreshold := threshold_perform (m, j) call
    obtain ⟨hnumbered, hkept, hlive, hsummaries⟩ := ih (h.next j call) (perform (m, j) call).2
    rw [Journal.hears_congr hthreshold] at hlive hsummaries
    refine ⟨hnumbered, hkept.trans hthreshold, hlive.trans ?_, hsummaries.trans ?_⟩
    · cases call with
      | record nanoseconds g =>
        change latestLive (m.recordStep j nanoseconds g).1.live _ = _
        rw [h.live_recordStep, recordsAfter, List.filter_cons]
        simp only [ordinalAfter, Bool.or_eq_true]
        split
        · rw [latestLive_cons]
        · rfl
      | reset => rfl
      | increment name => rfl
    · cases call with
      | record nanoseconds g =>
        change (m.recordStep j nanoseconds g).2.summaries ++ _ = _
        rw [h.summaries_recordStep, recordsAfter, List.filter_cons, List.append_assoc]
        simp only [ordinalAfter, Bool.and_eq_true]
        split
        · rfl
        · rfl
      | reset => rfl
      | increment name => rfl

/-- **How many records are due** among those that follow one another without a reset. -/
theorem countP_isDue {calls : List Call} (hcalls : ∀ c ∈ calls, c ≠ .reset)
    (hfew : before + calls.countP Call.isRecord < UInt64.size) :
    before / every + (recordsAfter before calls).countP (Record.isDue every) =
      (before + calls.countP Call.isRecord) / every := by
  induction calls generalizing before with
  | nil => rfl
  | cons call calls ih =>
    have hrest : ∀ c ∈ calls, c ≠ .reset := fun c hc => hcalls c (List.mem_cons_of_mem _ hc)
    cases call with
    | record nanoseconds g =>
      rw [List.countP_cons_of_pos rfl] at hfew ⊢
      have hnext : (before + 1) / every +
          (recordsAfter (before + 1) calls).countP (Record.isDue every) =
            (before + 1 + calls.countP Call.isRecord) / every := ih hrest (by omega)
      have hdue : Record.isDue every ⟨before + 1, nanoseconds, g⟩ = true ↔ every ∣ before + 1 :=
        Record.isDue_iff_dvd (show before + 1 < UInt64.size by omega)
      have hcount : before + 1 + calls.countP Call.isRecord =
        before + (calls.countP Call.isRecord + 1) := by omega
      rw [Nat.succ_div, hcount] at hnext
      simp only [recordsAfter, List.countP_cons, hdue]
      omega
    | reset => exact absurd rfl (hcalls _ List.mem_cons_self)
    | increment name => exact ih hrest hfew

theorem numbered_ofInterval (interval : UInt64) :
    Numbered (max interval.toNat 1) 0 (ofInterval interval) := by
  refine ⟨rfl, ?_⟩
  rw [ofInterval]
  by_cases h : interval = 0
  · rw [if_pos h, h]
    rfl
  · have hne : interval.toNat ≠ 0 := fun h0 => h (UInt64.toNat_inj.mp h0)
    rw [if_neg h, Nat.max_eq_left (Nat.one_le_iff_ne_zero.mpr hne)]

theorem foldl_ordinalAfter_of_reset {calls : List Call} (h : calls.getLast? = some .reset) :
    calls.foldl ordinalAfter before = 0 := by
  obtain ⟨init, rfl⟩ := List.getLast?_eq_some_iff.mp h
  rw [List.foldl_append]
  rfl

/-- **Summaries follow the interval**, which is one if it is given as zero. After any calls on new
metrics, the number of cells with population is that of the latest record that is due, or of the
latest record if the journal listens to details, and zero if there is none; a reset does not change
it. If the journal listens to news, it has got the summaries of the records that are due, and no
others. Of the records that follow the making or a reset, and are fewer than a word can count, one
in every interval is due, since those are due whose ordinal the interval divides. -/
theorem summaries_follow_interval (interval : UInt64) (j : Journal) (calls : List Call) :
    let every := max interval.toNat 1
    let after := run (ofInterval interval, j) calls
    let records := recordsAfter 0 calls
    (j.hears .debug = false → after.1.live = latestLive 0 (records.filter (Record.isDue every))) ∧
      (j.hears .debug = true → after.1.live = latestLive 0 records) ∧
      (j.hears .info = true → after.2.summaries =
        j.summaries ++ (records.filter (Record.isDue every)).map Record.summary) ∧
      (∀ r ∈ records, r.ordinal < UInt64.size → (r.isDue every = true ↔ every ∣ r.ordinal)) ∧
      ∀ first rest, calls = first ++ rest → (first = [] ∨ first.getLast? = some .reset) →
        (∀ c ∈ rest, c ≠ .reset) → rest.countP Call.isRecord < UInt64.size →
        j.hears .info = true → after.2.summaries.length =
          (run (ofInterval interval, j) first).2.summaries.length +
            rest.countP Call.isRecord / every := by
  intro every after records
  obtain ⟨-, -, hlive, hsummaries⟩ := (numbered_ofInterval interval).after j calls
  change after.1.live = latestLive 0 _ at hlive
  refine ⟨fun hdebug => ?_, fun hdebug => ?_, fun hinfo => ?_, fun r _ => Record.isDue_iff_dvd, ?_⟩
  · simpa [hdebug] using hlive
  · rwa [List.filter_eq_self.mpr (by simp [hdebug])] at hlive
  · simpa [hinfo] using hsummaries
  · rintro first rest rfl hfirst hrest hfew hinfo
    -- after the first calls no step has been counted, as in the beginning
    obtain ⟨hnumbered, hthreshold, -, -⟩ := (numbered_ofInterval interval).after j first
    have hzero : first.foldl ordinalAfter 0 = 0 := by
      obtain rfl | hreset := hfirst
      · rfl
      · exact foldl_ordinalAfter_of_reset hreset
    rw [hzero] at hnumbered
    have hrun : after = run (run (ofInterval interval, j) first) rest := List.foldl_append
    have hdue : 0 / every + (recordsAfter 0 rest).countP (Record.isDue every) =
        (0 + rest.countP Call.isRecord) / every := countP_isDue hrest (by rwa [Nat.zero_add])
    rw [Nat.zero_div, Nat.zero_add, Nat.zero_add] at hdue
    obtain ⟨-, -, -, hsummaries⟩ := hnumbered.after (run (ofInterval interval, j) first).2 rest
    rw [Journal.hears_congr hthreshold] at hsummaries
    rw [hrun, ← hdue, List.countP_eq_length_filter]
    simpa [hinfo] using congrArg List.length hsummaries

/-- **A reset and a happening** among steps of which every second one is due. Details are not
listened to, so the last step changes nothing, and the reset neither. -/
theorem summaries_follow_interval_after_reset :
    let g (v : Float32) : Grid := ⟨1, 1, #[.splat v]⟩
    let calls : List Call := [.record 0 (g 1), .increment "stamp", .record 0 (g 1), .record 0 (g 0),
      .reset, .record 0 (g 0)]
    let after := run (ofInterval 2, .listening .info) calls
    (Journal.listening .info).hears .debug = false ∧ after.1.live = 1 ∧
      after.2.summaries = [Record.summary ⟨2, 0, g 1⟩] ∧
      after.2.summaries.length =
        (run (ofInterval 2, .listening .info) (calls.take 5)).2.summaries.length + 1 / 2 := by
  intro g calls after
  have hinfo : (Journal.listening .info).hears .info = true := rfl
  obtain ⟨hlive, -, hsummaries, -, hcount⟩ :=
    summaries_follow_interval 2 (.listening .info) calls
  refine ⟨rfl, (hlive rfl).trans ?_, (hsummaries hinfo).trans ?_, ?_⟩
  · decide
  · decide
  · exact hcount (calls.take 5) (calls.drop 5) rfl (.inr rfl) (by simp [calls]) (by decide) hinfo

end Metrics

end Moorland
