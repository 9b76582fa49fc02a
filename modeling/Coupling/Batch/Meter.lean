import Coupling.Number.Fixed

/-!
# Figures of a batch

Files, lines and cache hits are counted while a batch runs; with the time it took they give rates.
-/

namespace Coupling

/-- Counters of a batch. -/
structure Meter where
  files : Nat := 0
  lines : Nat := 0
  hits : Nat := 0
  misses : Nat := 0
deriving DecidableEq, Repr

namespace Meter

/-- Counts a finished file; `hit` tells whether its result came from a cache, if one was asked. -/
def record (m : Meter) (lines : Nat) (hit : Option Bool) : Meter :=
  { files := m.files + 1
    lines := m.lines + lines
    hits := m.hits + if hit = some true then 1 else 0
    misses := m.misses + if hit = some false then 1 else 0 }

/-- The share of hits among the look-ups. -/
def hitRate (m : Meter) : Float := Float.ofNat m.hits / Float.ofNat (max (m.hits + m.misses) 1)

end Meter

/-- A finished batch. Times are in microseconds. -/
structure Metrics where
  start : Int
  stop : Int
  meter : Meter
  workers : Nat
  parallel : Bool

namespace Metrics

/-- Whole milliseconds, never negative. -/
def durationMs (m : Metrics) : Nat := ((m.stop - m.start).tdiv 1000).toNat

/-- A batch takes at least a millisecond. -/
def countedMs (m : Metrics) : Float := Float.ofNat (max m.durationMs 1)

def linesPerSecond (m : Metrics) : Float := Float.ofNat m.meter.lines / (m.countedMs / 1000.0)

/-- How many times faster a batch was than another. -/
def speedupOver (m baseline : Metrics) : Float := baseline.countedMs / m.countedMs

def text (m : Metrics) : String :=
  let rate := Number.fixed 0 m.linesPerSecond
  let share := Number.fixed 1 (m.meter.hitRate * 100.0)
  s!"{m.meter.files} files, {m.meter.lines} lines in {m.durationMs} ms " ++
    s!"({rate} lines/s, {m.workers} workers, {share}% cache hits)"

end Metrics

end Coupling
