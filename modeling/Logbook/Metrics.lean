/-! # Counters of a handler

    A handled record is counted once: as written, rejected by a filter, failed
    or dropped.  Counters are 64-bit words.
-/

namespace Logbook

/-- The four counters of a handler. -/
structure Metrics where
  emitted : UInt64 := 0
  filtered : UInt64 := 0
  errors : UInt64 := 0
  dropped : UInt64 := 0
  deriving Repr, DecidableEq, Inhabited

/-- What became of a handled record. -/
inductive Fate where
  | emitted
  | filtered
  | failed
  | dropped
  deriving Repr, DecidableEq

/-- The fate with a name. -/
def Fate.named? : String → Option Fate
  | "emitted" => some .emitted
  | "filtered" => some .filtered
  | "error" => some .failed
  | "dropped" => some .dropped
  | _ => none

namespace Metrics

/-- The counter of a fate. -/
def get (m : Metrics) : Fate → UInt64
  | .emitted => m.emitted
  | .filtered => m.filtered
  | .failed => m.errors
  | .dropped => m.dropped

/-- Counts one record. -/
def count (m : Metrics) : Fate → Metrics
  | .emitted => { m with emitted := m.emitted + 1 }
  | .filtered => { m with filtered := m.filtered + 1 }
  | .failed => { m with errors := m.errors + 1 }
  | .dropped => { m with dropped := m.dropped + 1 }

/-- The share of records lost, in percent; filtered records are not lost. -/
def lossRate (m : Metrics) : Float :=
  let lost := (m.errors + m.dropped).toFloat
  let total := m.emitted.toFloat + lost
  if total == 0.0 then 0.0 else lost / total * 100.0

end Metrics

end Logbook
