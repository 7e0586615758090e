/-
# The surroundings of a run

The files, the clock and the supply of identifiers that a run works with, along
with whatever its databases keep. The clock goes on a little with every reading,
so no two readings agree, and no identifier is given out twice.
-/

import MetricCatalog.Files.Tree
import MetricCatalog.Uuid

namespace MetricCatalog

/-- What a run works with. The databases keep something of type `σ`. -/
structure Environment (σ : Type) where
  files : FileTree
  /-- What the clock shows. -/
  now : Instant
  /-- The number from which the next identifier is made. -/
  seed : Nat
  /-- What the databases keep. -/
  sources : σ
  deriving Repr

namespace Environment

variable {σ : Type}

/-- The nanoseconds that go by with a reading of the clock. -/
def tick : Nat := 1000

/-- Reads the clock. -/
def readClock (environment : Environment σ) : Instant × Environment σ :=
  (environment.now, { environment with now := environment.now.advance tick })

/-- Makes an identifier. -/
def newId (environment : Environment σ) : Uuid × Environment σ :=
  (.ofRandom environment.seed, { environment with seed := environment.seed + 1 })

end Environment

end MetricCatalog
