import Mathlib.Data.Rat.Defs
import Mathlib.Data.List.Perm.Basic
import Mathlib.Data.List.Nodup

/-! # Data model of `pkg/types`

The records of `types.go` in its atomic variant. A `Backend` is a heap object: the
registry, the current config and every in-flight request hold pointers to it, and the
dispatcher, the control plane and config reloads all write through those pointers.
Go maps are lists of entries with distinct keys; a `range` over a map visits the
entries in an arbitrary order, which the model passes in as a permutation.
Float fields are exact rationals.
-/

namespace SpeedMimi

/-- A Go `map[K]V`: its entries, with no key twice. -/
structure GoMap (K V : Type) where
  entries : List (K × V)
  nodup : (entries.map Prod.fst).Nodup
  deriving DecidableEq

namespace GoMap

variable {K V : Type}

def get? [DecidableEq K] (m : GoMap K V) (k : K) : Option V := m.entries.lookup k

def keys (m : GoMap K V) : List K := m.entries.map Prod.fst

def empty : GoMap K V := ⟨[], List.nodup_nil⟩

/-- A visiting order of `for k, v := range m`: any arrangement of the entries. -/
def IsOrder (m : GoMap K V) (order : List (K × V)) : Prop := order.Perm m.entries

instance [DecidableEq K] [DecidableEq V] (m : GoMap K V) (order : List (K × V)) :
    Decidable (m.IsOrder order) :=
  inferInstanceAs (Decidable (order.Perm m.entries))

theorem isOrder_entries (m : GoMap K V) : m.IsOrder m.entries := List.Perm.refl _

def map {W : Type} (f : K → V → W) (m : GoMap K V) : GoMap K W :=
  ⟨m.entries.map fun e => (e.1, f e.1 e.2), by simpa [List.map_map, Function.comp_def] using m.nodup⟩

@[simp] theorem map_entries {W : Type} (f : K → V → W) (m : GoMap K V) :
    (m.map f).entries = m.entries.map fun e => (e.1, f e.1 e.2) := rfl

theorem ext {m m' : GoMap K V} (h : m.entries = m'.entries) : m = m' := by
  cases m; cases m'; cases h; rfl

theorem map_congr {W : Type} {f g : K → V → W} {m : GoMap K V}
    (h : ∀ e ∈ m.entries, f e.1 e.2 = g e.1 e.2) : m.map f = m.map g :=
  ext (List.map_congr_left fun e he => by rw [h e he])

@[simp] theorem map_map {W X : Type} (f : K → V → W) (g : K → W → X) (m : GoMap K V) :
    (m.map f).map g = m.map fun k v => g k (f k v) :=
  ext (by simp [Function.comp_def])

section Lookup

variable [DecidableEq K]

def erase (m : GoMap K V) (k : K) : GoMap K V :=
  ⟨m.entries.filter (fun e => e.1 ≠ k), m.nodup.sublist ((List.filter_sublist _).map _)⟩

def insert (m : GoMap K V) (k : K) (v : V) : GoMap K V :=
  ⟨(m.erase k).entries ++ [(k, v)], by
    rw [List.map_append, List.nodup_append]
    refine ⟨(m.erase k).nodup, List.nodup_singleton _, ?_⟩
    simp [erase, List.disjoint_singleton]⟩

theorem get?_eq_some_iff {m : GoMap K V} {k : K} {v : V} :
    m.get? k = some v ↔ (k, v) ∈ m.entries := by
  obtain ⟨entries, nodup⟩ := m
  simp only [get?]
  induction entries with
  | nil => simp
  | cons e rest ih =>
    obtain ⟨k', v'⟩ := e
    simp only [List.map_cons, List.nodup_cons] at nodup
    by_cases hk : k = k'
    · subst hk
      have hrest : (k, v) ∉ rest := fun hmem => nodup.1 (List.mem_map_of_mem Prod.fst hmem)
      simp [List.lookup_cons, hrest, eq_comm]
    · have hbeq : (k == k') = false := by simpa using hk
      simp [List.lookup_cons, hbeq, hk, ih nodup.2]

theorem get?_map {W : Type} (f : K → V → W) (m : GoMap K V) (k : K) :
    (m.map f).get? k = (m.get? k).map (f k) := by
  obtain ⟨entries, nodup⟩ := m
  simp only [get?, map]
  clear nodup
  induction entries with
  | nil => rfl
  | cons e rest ih =>
    obtain ⟨k', v'⟩ := e
    by_cases hk : k = k'
    · subst hk; simp [List.lookup_cons]
    · have hbeq : (k == k') = false := by simpa using hk
      simp [List.lookup_cons, hbeq, ih]

theorem get?_eq_none_iff {m : GoMap K V} {k : K} : m.get? k = none ↔ k ∉ m.keys := by
  simp only [get?, keys, List.lookup_eq_none_iff, List.mem_map, not_exists, not_and, bne_iff_ne,
    ne_eq]
  exact forall_congr' fun e => imp_congr_right fun _ => ⟨fun h he => h he.symm, fun h he => h he.symm⟩

@[simp] theorem get?_insert_self (m : GoMap K V) (k : K) (v : V) : (m.insert k v).get? k = some v := by
  rw [get?_eq_some_iff]
  simp [insert]

theorem get?_insert_ne (m : GoMap K V) {k k' : K} (v : V) (hk : k' ≠ k) :
    (m.insert k v).get? k' = m.get? k' := by
  refine Option.ext fun w => ?_
  rw [Option.mem_def, Option.mem_def, get?_eq_some_iff, get?_eq_some_iff]
  simp [insert, erase, hk]

@[simp] theorem get?_erase_self (m : GoMap K V) (k : K) : (m.erase k).get? k = none := by
  rw [get?_eq_none_iff]
  simp [erase, keys]

theorem get?_erase_ne (m : GoMap K V) {k k' : K} (hk : k' ≠ k) :
    (m.erase k).get? k' = m.get? k' := by
  refine Option.ext fun w => ?_
  rw [Option.mem_def, Option.mem_def, get?_eq_some_iff, get?_eq_some_iff]
  simp [erase, hk]

end Lookup

end GoMap

abbrev Ptr := Nat

-- `LoadBalancerType` and `ProtocolType` are Go `string` types; these are their constants.
namespace LoadBalancerType

def ipHash : String := "ip_hash"
def leastConnections : String := "least_connections"
def leastConnectionsWeight : String := "least_connections_weight"
def weight : String := "weight"
def performanceLCW : String := "performance_least_connections_weight"

end LoadBalancerType

namespace ProtocolType

def http : String := "http"
def https : String := "https"
def webSocket : String := "websocket"
def sse : String := "sse"

end ProtocolType

structure HealthCheck where
  path : String
  interval : Int
  timeout : Int
  failures : Int
  deriving DecidableEq, Repr

structure PerformanceInfo where
  cpuUsage : ℚ
  memoryUsage : ℚ
  loadAvg1 : ℚ
  deriving DecidableEq

def maxInt64 : Int := 9223372036854775807

def minInt64 : Int := -9223372036854775808

/-- `x + 1` on an `int64`, as `atomic.AddInt64(&x, 1)` computes it: `MaxInt64` wraps to
`MinInt64` (`LoadBalancer.int64Succ_eq_wrapInt64`). -/
def int64Succ (x : Int) : Int := if x = maxInt64 then minInt64 else x + 1

theorem int64Succ_of_ne {x : Int} (h : x ≠ maxInt64) : int64Succ x = x + 1 := if_neg h

theorem int64Succ_le (x : Int) : int64Succ x ≤ x + 1 := by
  unfold int64Succ
  split_ifs with hx
  · subst hx; decide
  · exact le_rfl

/-- `types.Backend`. `activeFlag` is the atomic `active int32` that `IsActive` reads;
`active` is the serialised `Active` field. `disconnect` is the atomic mark of
`MarkForDisconnect`, whose declaration `types.go` lacks. -/
structure Backend where
  id : String
  name : String
  host : String
  port : Int
  weight : Int
  scheme : String
  active : Bool
  connections : Int
  maxConn : Int
  healthCheck : Option HealthCheck
  performance : Option PerformanceInfo
  activeFlag : Bool
  disconnect : Bool
  deriving DecidableEq

abbrev Heap := Ptr → Backend

namespace Heap

def modify (h : Heap) (p : Ptr) (f : Backend → Backend) : Heap := Function.update h p (f (h p))

@[simp] theorem modify_self (h : Heap) (p : Ptr) (f : Backend → Backend) :
    h.modify p f p = f (h p) := Function.update_same _ _ _

@[simp] theorem modify_ne (h : Heap) {p q : Ptr} (f : Backend → Backend) (hq : q ≠ p) :
    h.modify p f q = h q := Function.update_noteq hq _ _

theorem modify_apply (h : Heap) (p q : Ptr) (f : Backend → Backend) :
    h.modify p f q = if q = p then f (h q) else h q := by
  by_cases hq : q = p
  · subst hq; simp
  · simp [hq]

end Heap

structure ServerConfig where
  host : String
  port : Int
  readTimeout : Int
  writeTimeout : Int
  maxConn : Int
  realIPHeader : String
  trustedProxies : List String
  deriving DecidableEq

structure SSLConfig where
  enabled : Bool
  certFile : String
  keyFile : String
  deriving DecidableEq

structure RoutingRule where
  path : String
  upstream : String
  loadBalancer : String
  protocols : GoMap String String
  deriving DecidableEq

/-- `types.Config`, over the representation `β` of its backend entries: `Ptr` for the
object graph the manager and the proxy share, `Backend` for a decoded or saved
document. -/
structure Config (β : Type) where
  server : ServerConfig
  ssl : SSLConfig
  backends : GoMap String (List β)
  routing : GoMap String RoutingRule
  deriving DecidableEq

/-- The parts of a `fasthttp.RequestCtx` the proxy reads. `uriHost` is
`ctx.URI().Host()`: the `Host` header, or the host of an absolute request-URI. -/
structure Request where
  method : String
  path : String
  uriHost : String
  headers : List (String × String)
  remoteIP : String
  isTLS : Bool
  deriving DecidableEq

namespace Request

def peek (req : Request) (key : String) : String := (req.headers.lookup key).getD ""

end Request

end SpeedMimi
