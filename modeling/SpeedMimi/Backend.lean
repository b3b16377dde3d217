import SpeedMimi.Types
import Mathlib.Algebra.Order.Field.Rat

/-! # Backend methods

The accessors of `types.go` (atomic variant). `IsConnectionLimitReached`,
`ShouldDisconnect` and `MarkForDisconnect` are called by the policies and the
control plane but declared in no file of the source; their bodies are the ones
`CONNECTION_LIMIT_FEATURE.md` and `ASYNC_DISCONNECT_FIX.md` give.

`DecConnections` is a compare-and-swap loop. Its two atomic steps are `decLoad`
(the `LoadInt64` with the floor test) and `compareAndSwap`; the dispatcher's step
relation interleaves them with other goroutines. `decConnections` is what one
uncontended pass of the loop computes.
-/

namespace SpeedMimi.Backend

def getConnections (b : Backend) : Int := b.connections

/-- `atomic.AddInt64(&b.Connections, 1)`. -/
def incConnections (b : Backend) : Backend := { b with connections := int64Succ b.connections }

def decLoad (b : Backend) : Option Int :=
  if b.connections ≤ 0 then none else some b.connections

def compareAndSwap (b : Backend) (old new : Int) : Option Backend :=
  if b.connections = old then some { b with connections := new } else none

def decConnections (b : Backend) : Backend :=
  if b.connections ≤ 0 then b else { b with connections := b.connections - 1 }

def isActive (b : Backend) : Bool := b.activeFlag

def setActive (b : Backend) (active : Bool) : Backend :=
  { b with activeFlag := active, active := active }

/-- Modelled from the spec: `IsConnectionLimitReached` is absent from `types.go`; this is
the body `CONNECTION_LIMIT_FEATURE.md` gives (`MaxConn <= 0` means no limit). -/
def isConnectionLimitReached (b : Backend) : Bool :=
  if b.maxConn ≤ 0 then false else decide (b.maxConn ≤ b.getConnections)

/-- Modelled from the spec: `ShouldDisconnect` is absent from `types.go`; this is the
atomic load of the mark that `ASYNC_DISCONNECT_FIX.md` gives. -/
def shouldDisconnect (b : Backend) : Bool := b.disconnect

/-- Modelled from the spec: `MarkForDisconnect` is absent from `types.go`; this is the
atomic store of the mark that `ASYNC_DISCONNECT_FIX.md` gives. -/
def markForDisconnect (b : Backend) : Backend := { b with disconnect := true }

def calculateUtilization (b : Backend) : ℚ :=
  match b.performance with
  | none => 0
  | some perf =>
    min ((perf.cpuUsage / 100) * (4 / 10) + (perf.memoryUsage / 100) * (4 / 10) +
      (perf.loadAvg1 / 100) * (2 / 10)) 1

/-- The test every v2 policy applies before choosing:
`IsActive() && !ShouldDisconnect() && !IsConnectionLimitReached()`. -/
def available (b : Backend) : Bool :=
  b.isActive && !b.shouldDisconnect && !b.isConnectionLimitReached

theorem available_iff (b : Backend) :
    b.available = true ↔
      b.activeFlag = true ∧ b.disconnect = false ∧ b.isConnectionLimitReached = false := by
  simp [available, isActive, shouldDisconnect, and_assoc]

theorem isConnectionLimitReached_eq_false_iff (b : Backend) :
    b.isConnectionLimitReached = false ↔ b.maxConn ≤ 0 ∨ b.connections < b.maxConn := by
  unfold isConnectionLimitReached getConnections
  split <;> simp_all

@[simp] theorem incConnections_connections (b : Backend) :
    b.incConnections.connections = int64Succ b.connections := rfl

theorem decLoad_eq_some {b : Backend} {v : Int} (h : b.decLoad = some v) :
    v = b.connections ∧ 0 < b.connections := by
  unfold decLoad at h
  split at h
  · cases h
  · cases h; omega

theorem compareAndSwap_eq_some {b b' : Backend} {old new : Int}
    (h : b.compareAndSwap old new = some b') :
    b.connections = old ∧ b' = { b with connections := new } := by
  unfold compareAndSwap at h
  split at h
  · cases h; exact ⟨‹_›, rfl⟩
  · cases h

theorem decLoad_eq_none {b : Backend} (h : b.decLoad = none) : b.connections ≤ 0 := by
  unfold decLoad at h
  split at h
  · assumption
  · cases h

theorem compareAndSwap_eq_none {b : Backend} {old new : Int}
    (h : b.compareAndSwap old new = none) : b.connections ≠ old := by
  unfold compareAndSwap at h
  split at h
  · cases h
  · assumption

theorem decConnections_of_uncontended (b : Backend) :
    b.decConnections = ((b.decLoad.bind fun v => b.compareAndSwap v (v - 1)).getD b) := by
  unfold decConnections decLoad compareAndSwap
  split <;> simp

def sample (id : String) (weight connections : Int) : Backend :=
  { id, name := id, host := "127.0.0.1", port := 8081, weight, scheme := "http",
    active := true, connections, maxConn := 0, healthCheck := none, performance := none,
    activeFlag := true, disconnect := false }

end SpeedMimi.Backend
