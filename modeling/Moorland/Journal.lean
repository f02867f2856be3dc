/-!
# The journal

What a simulation reports while it runs are **events**: a level, a message, and named fields. A
journal collects the events of the levels that it listens to, in order.
-/

namespace Moorland

/-- **The level of an event**, from the gravest to the most detailed. -/
inductive Level
  /-- A failure. -/
  | error
  /-- Something that is probably not intended. -/
  | warn
  /-- News. -/
  | info
  /-- Details. -/
  | debug
  /-- Every detail. -/
  | trace
deriving DecidableEq, Repr

namespace Level

/-- How detailed a level is. -/
def detail : Level → Nat
  | error => 1
  | warn => 2
  | info => 3
  | debug => 4
  | trace => 5

/-- The name of a level. -/
def name : Level → String
  | error => "ERROR"
  | warn => "WARN"
  | info => "INFO"
  | debug => "DEBUG"
  | trace => "TRACE"

end Level

/-- **The value of a field of an event.** -/
inductive FieldValue
  /-- A number in single precision. -/
  | number (v : Float32)
  /-- A count. -/
  | count (n : Nat)
  /-- A coordinate. -/
  | coordinate (i : Int)
  /-- A yes or no. -/
  | flag (b : Bool)
  /-- A text. -/
  | text (s : String)
deriving DecidableEq

/-- **An event.** -/
structure Event where
  /-- How grave or detailed it is. -/
  level : Level
  /-- What happened. -/
  message : String
  /-- The particulars, by name. -/
  fields : List (String × FieldValue)
deriving DecidableEq

/-- **A journal**: the most detailed level that it listens to, if any, and what it has heard. -/
structure Journal where
  /-- The most detailed level that is kept; no event is kept when absent. -/
  threshold : Option Level
  /-- The events so far. -/
  events : Array Event
deriving DecidableEq

namespace Journal

/-- The journal that listens to nothing. -/
def off : Journal := ⟨none, #[]⟩

/-- A journal that listens to a level and all graver ones, and has heard nothing. -/
def listening (level : Level) : Journal := ⟨some level, #[]⟩

/-- The journal listens to a level. -/
def hears (j : Journal) (level : Level) : Bool :=
  match j.threshold with
  | none => false
  | some most => level.detail ≤ most.detail

/-- **Add an event**, if the journal listens to its level. -/
def add (j : Journal) (level : Level) (message : String) (fields : List (String × FieldValue)) :
    Journal :=
  if j.hears level then { j with events := j.events.push ⟨level, message, fields⟩ } else j

/-- A journal listens to what it listened to before. -/
@[simp] theorem threshold_add (j : Journal) (level : Level) (message : String)
    (fields : List (String × FieldValue)) :
    (j.add level message fields).threshold = j.threshold := by
  rw [add]
  split <;> rfl

/-- What a journal hears depends on what it listens to only. -/
theorem hears_congr {j k : Journal} (h : j.threshold = k.threshold) (level : Level) :
    j.hears level = k.hears level := by
  rw [hears, hears, h]

/-- The journal without its events. -/
def cleared (j : Journal) : Journal := { j with events := #[] }

end Journal

end Moorland
