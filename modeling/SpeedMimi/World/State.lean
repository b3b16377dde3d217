import SpeedMimi.Manager
import SpeedMimi.Proxy.Server
import Mathlib.Logic.Relation

/-! # The running system

The manager, the proxy and its goroutines as one state, and their atomic steps.
Each request goroutine runs `handleRequest` and `proxyRequest`: the routing, the
registry lookup and the policy's choice are one step (`dispatch`), then come
`IncConnections`, the upstream call, and the deferred `DecConnections` as its load and its
compare-and-swap. The management API calls `DisconnectBackend`, `handleUpdateBackend` and
`Manager.UpdateConfig` on a decoded document, whose backends are new objects. The
watcher goroutine subscribes with `WatchConfig`, takes a config from its one-slot channel,
and applies it under the server's lock (`Server.updateConfig`), reading the registry's
upstreams from the manager's config at that moment.

A request arrives only while fewer than `MaxInt64` handler calls run: fasthttp's worker
pool refuses a connection beyond `Concurrency` (a Go `int`, read when `Serve` starts)
before `handleRequest`, and a connection runs one handler call at a time.

Steps interleave arbitrarily. A visiting order of a map range and the outcome of
`sort.Slice` are choices of the step that makes them; `rand.Intn` is the action's `rnd`.
Three fields are ghost state, read by no step: `base p` is the counter the object at `p`
was decoded with, `applied` the config the watcher applied last (at start, the one
`NewServer` registered from), and `lost` records a successful update that found no free
slot in the watcher's channel.
-/

namespace SpeedMimi

open Proxy LoadBalancer

/-- What a request goroutine is doing. -/
inductive Phase
  | start (req : Request)
  | selected (p : Ptr)
  | proxying (p : Ptr)
  | decLoad (p : Ptr)
  | decSwap (p : Ptr) (v : Int)
  | done
  | rejected (status : Nat) (message : String)
  deriving DecidableEq

namespace Phase

/-- The request holds a connection of `p`: it ran `IncConnections` on `p` and its deferred
`DecConnections` has not completed. -/
def holds (p : Ptr) : Phase → Bool
  | proxying q | decLoad q | decSwap q _ => q = p
  | _ => false

def isSelected (p : Ptr) : Phase → Bool
  | selected q => q = p
  | _ => false

def running : Phase → Bool
  | done | rejected _ _ => false
  | _ => true

def ptr? : Phase → Option Ptr
  | selected p | proxying p | decLoad p | decSwap p _ => some p
  | _ => none

theorem ptr?_of_holds {p : Ptr} {ph : Phase} (h : ph.holds p = true) : ph.ptr? = some p := by
  cases ph <;> simp_all [holds, ptr?]

theorem ptr?_of_isSelected {p : Ptr} {ph : Phase} (h : ph.isSelected p = true) :
    ph.ptr? = some p := by
  cases ph <;> simp_all [isSelected, ptr?]

end Phase

def Proxy.Dispatch.phase : Dispatch → Phase
  | .reject status message => .rejected status message
  | .forward p => .selected p

/-- What the watcher goroutine is doing. -/
inductive Loop
  | starting
  | waiting (ch : Nat)
  | received (ch : Nat) (config : Config Ptr)
  deriving DecidableEq

inductive Outcome
  | ok
  | badGateway
  | panic

inductive ReqStep
  | dispatch (routingOrder : List (String × RoutingRule)) (rnd : Nat)
  | inc
  | respond (outcome : Outcome)
  | decLoad
  | decSwap

inductive Action
  | arrive (req : Request)
  | request (i : Nat) (s : ReqStep)
  | disconnect (upstreamID backendID : String)
  | updateBackend (method : String) (body : Body UpdateBackendRequest)
  /-- `UpdateConfig` on the decoded document; `none` is a body without `config`, on which
  `validateConfig` dereferences `nil` and the handler panics. -/
  | updateConfig (doc : Option (Config Backend)) (backendsOrder : List (String × List Ptr))
      (routingOrder : List (String × RoutingRule)) (write : WriteResult)
  | subscribe
  | receive
  | apply (order : List (String × List Ptr))

structure World where
  heap : Heap
  next : Ptr
  mgr : Manager
  um : UpstreamManager
  settings : ServerSettings
  reqs : List Phase
  loop : Loop
  base : Ptr → Int
  applied : Config Ptr
  lost : Bool

/-- The zero `Backend{}`, the contents of every address nothing has been placed at. -/
def Backend.zero : Backend :=
  ⟨"", "", "", 0, 0, "", false, 0, 0, none, none, false, false⟩

/-- A decoded object: the decoders cannot set the unexported atomic fields. -/
def decodeBackend (b : Backend) : Backend := { b with activeFlag := false, disconnect := false }

def placeList (h : Heap) (next : Ptr) : List Backend → Heap × List Ptr
  | [] => (h, [])
  | b :: bs =>
    let r := placeList (Function.update h next (decodeBackend b)) (next + 1) bs
    (r.1, next :: r.2)

def placeEntries (h : Heap) (next : Ptr) :
    List (String × List Backend) → Heap × List (String × List Ptr) × Ptr
  | [] => (h, [], next)
  | (name, bs) :: rest =>
    let r := placeList h next bs
    let r' := placeEntries r.1 (next + bs.length) rest
    (r'.1, (name, r.2) :: r'.2.1, r'.2.2)

theorem placeEntries_keys (h : Heap) (next : Ptr) (es : List (String × List Backend)) :
    (placeEntries h next es).2.1.map Prod.fst = es.map Prod.fst := by
  induction es generalizing h next with
  | nil => rfl
  | cons e rest ih =>
    obtain ⟨name, bs⟩ := e
    simp [placeEntries, ih]

structure Placed where
  heap : Heap
  config : Config Ptr
  next : Ptr

def place (h : Heap) (next : Ptr) (doc : Config Backend) : Placed :=
  let r := placeEntries h next doc.backends.entries
  ⟨r.1, { server := doc.server, ssl := doc.ssl,
          backends := ⟨r.2.1, by rw [placeEntries_keys]; exact doc.backends.nodup⟩,
          routing := doc.routing }, r.2.2⟩

def bootSettings (config : Config Ptr) : ServerSettings :=
  ⟨config.server.readTimeout, config.server.writeTimeout, 10000000⟩

/-- `main`: `NewManager` loads the decoded file, `NewServer` registers its upstreams in
the visiting order `order` and starts the watcher goroutine. -/
def World.boot (doc : Config Backend) (backendsOrder : List (String × List Ptr))
    (routingOrder : List (String × RoutingRule)) (order : List (String × List Ptr)) :
    Option World :=
  let placed := place (fun _ => Backend.zero) 0 doc
  match Manager.loadConfig placed.heap placed.config doc backendsOrder routingOrder with
  | .error _ => none
  | .ok (h, m) =>
    if m.config.backends.IsOrder backendsOrder ∧ m.config.routing.IsOrder routingOrder ∧
        m.config.backends.IsOrder order then
      let r := initUpstreams h UpstreamManager.newUpstreamManager order
      some { heap := r.1, next := placed.next, mgr := m, um := r.2.1,
             settings := bootSettings m.config, reqs := [], loop := .starting,
             base := fun p => (r.1 p).connections, applied := m.config, lost := false }
    else none

namespace World

def running (w : World) : Nat := w.reqs.countP Phase.running

variable (sortSlice : List (Ptr × ℚ) → List (Ptr × ℚ))

/-- One atomic step of a request goroutine in phase `ph`: its next phase and the heap. -/
def requestStep (w : World) : Phase → ReqStep → Option (Phase × Heap)
  | .start req, .dispatch routingOrder rnd =>
    if w.mgr.config.routing.IsOrder routingOrder then
      some ((handleRequest w.heap w.mgr.config w.um routingOrder req ⟨sortSlice, rnd⟩).phase,
        w.heap)
    else none
  | .selected p, .inc => some (.proxying p, w.heap.modify p Backend.incConnections)
  | .proxying p, .respond _ => some (.decLoad p, w.heap)
  | .decLoad p, .decLoad =>
    some ((match (w.heap p).decLoad with
      | none => .done
      | some v => .decSwap p v), w.heap)
  | .decSwap p v, .decSwap =>
    match (w.heap p).compareAndSwap v (v - 1) with
    | some b => some (.done, Function.update w.heap p b)
    | none => some (.decLoad p, w.heap)
  | _, _ => none

def delivers (w : World) : Bool :=
  match w.loop with
  | .starting => false
  | .waiting ch | .received ch _ => w.mgr.watchers[ch]? = some none

def updateConfig (w : World) (doc : Config Backend) (backendsOrder : List (String × List Ptr))
    (routingOrder : List (String × RoutingRule)) (write : WriteResult) : Option World :=
  let placed := place w.heap w.next doc
  if placed.config.backends.IsOrder backendsOrder ∧ placed.config.routing.IsOrder routingOrder then
    let r := w.mgr.updateConfig placed.heap placed.config backendsOrder routingOrder write
    some { w with heap := placed.heap, next := placed.next, mgr := r.1,
                  base := fun p => if w.next ≤ p then (placed.heap p).connections else w.base p,
                  lost := w.lost || (r.2.isOk && !w.delivers) }
  else none

def step (w : World) : Action → Option World
  | .arrive req =>
    if (w.running : Int) < maxInt64 then some { w with reqs := w.reqs ++ [.start req] } else none
  | .request i s =>
    match w.reqs[i]? with
    | some ph => (requestStep sortSlice w ph s).map fun r => { w with reqs := w.reqs.set i r.1, heap := r.2 }
    | none => none
  | .disconnect upstreamID backendID =>
    match disconnectBackend w.heap w.um upstreamID backendID with
    | .ok h => some { w with heap := h }
    | .error _ => some w
  | .updateBackend method body => some { w with heap := (handleUpdateBackend w.heap w.um method body).1 }
  | .updateConfig none _ _ _ => some w
  | .updateConfig (some doc) backendsOrder routingOrder write =>
    w.updateConfig doc backendsOrder routingOrder write
  | .subscribe =>
    match w.loop with
    | .starting => some { w with mgr := w.mgr.watchConfig.1, loop := .waiting w.mgr.watchConfig.2 }
    | _ => none
  | .receive =>
    match w.loop with
    | .waiting ch =>
      match w.mgr.watchers[ch]? with
      | some (some c) =>
        some { w with mgr := { w.mgr with watchers := w.mgr.watchers.set ch none },
                      loop := .received ch c }
      | _ => none
    | _ => none
  | .apply order =>
    match w.loop with
    | .received ch c =>
      if w.mgr.config.backends.IsOrder order then
        let r := Server.updateConfig w.heap w.um c order
        some { w with settings := r.1, heap := r.2.1, um := r.2.2, loop := .waiting ch, applied := c }
      else none
    | _ => none

section Inversion

variable {sortSlice} {w w' : World}

theorem requestStep_eq_some {ph ph' : Phase} {st : ReqStep} {h' : Heap}
    (h : w.requestStep sortSlice ph st = some (ph', h')) :
    (∃ req routingOrder rnd, ph = .start req ∧ w.mgr.config.routing.IsOrder routingOrder ∧
      ph' = (handleRequest w.heap w.mgr.config w.um routingOrder req ⟨sortSlice, rnd⟩).phase ∧
      h' = w.heap) ∨
    (∃ p, ph = .selected p ∧ ph' = .proxying p ∧ h' = w.heap.modify p Backend.incConnections) ∨
    (∃ p, ph = .proxying p ∧ ph' = .decLoad p ∧ h' = w.heap) ∨
    (∃ p, ph = .decLoad p ∧ h' = w.heap ∧
      ((w.heap p).connections ≤ 0 ∧ ph' = .done ∨
        0 < (w.heap p).connections ∧ ph' = .decSwap p (w.heap p).connections)) ∨
    (∃ p v, ph = .decSwap p v ∧
      ((w.heap p).connections = v ∧ ph' = .done ∧
          h' = w.heap.modify p (fun b => { b with connections := v - 1 }) ∨
        (w.heap p).connections ≠ v ∧ ph' = .decLoad p ∧ h' = w.heap)) := by
  cases ph <;> cases st <;> simp only [requestStep, reduceCtorEq] at h
  case start.dispatch req routingOrder rnd =>
    split_ifs at h with horder
    cases h
    exact .inl ⟨req, routingOrder, rnd, rfl, horder, rfl, rfl⟩
  case selected.inc p =>
    cases h
    exact .inr (.inl ⟨p, rfl, rfl, rfl⟩)
  case proxying.respond p _ =>
    cases h
    exact .inr (.inr (.inl ⟨p, rfl, rfl, rfl⟩))
  case decLoad.decLoad p =>
    cases h
    refine .inr (.inr (.inr (.inl ⟨p, rfl, rfl, ?_⟩)))
    unfold Backend.decLoad
    split_ifs with hfloor
    · exact .inl ⟨hfloor, rfl⟩
    · exact .inr ⟨by omega, rfl⟩
  case decSwap.decSwap p v =>
    refine .inr (.inr (.inr (.inr ⟨p, v, rfl, ?_⟩)))
    unfold Backend.compareAndSwap at h
    split_ifs at h with hcas
    · cases h
      exact .inl ⟨hcas, rfl, rfl⟩
    · cases h
      exact .inr ⟨hcas, rfl, rfl⟩

theorem step_arrive_eq_some {req : Request} (h : w.step sortSlice (.arrive req) = some w') :
    (w.running : Int) < maxInt64 ∧ w' = { w with reqs := w.reqs ++ [.start req] } := by
  simp only [step] at h
  split_ifs at h with hrun
  cases h
  exact ⟨hrun, rfl⟩

theorem step_request_eq_some {i : Nat} {st : ReqStep}
    (h : w.step sortSlice (.request i st) = some w') :
    ∃ ph ph' h', w.reqs[i]? = some ph ∧ w.requestStep sortSlice ph st = some (ph', h') ∧
      w' = { w with reqs := w.reqs.set i ph', heap := h' } := by
  simp only [step] at h
  split at h
  · rename_i ph hph
    obtain ⟨⟨ph', h'⟩, hr, rfl⟩ := Option.map_eq_some'.mp h
    exact ⟨ph, ph', h', hph, hr, rfl⟩
  · cases h

theorem step_disconnect_eq_some {upstreamID backendID : String}
    (h : w.step sortSlice (.disconnect upstreamID backendID) = some w') :
    w' = w ∨ ∃ h', disconnectBackend w.heap w.um upstreamID backendID = .ok h' ∧
      w' = { w with heap := h' } := by
  simp only [step] at h
  split at h
  · cases h
    exact .inr ⟨_, ‹_›, rfl⟩
  · cases h
    exact .inl rfl

theorem updateConfig_eq_some {doc : Config Backend} {backendsOrder : List (String × List Ptr)}
    {routingOrder : List (String × RoutingRule)} {write : WriteResult}
    (h : w.updateConfig doc backendsOrder routingOrder write = some w') :
    let placed := place w.heap w.next doc
    let r := w.mgr.updateConfig placed.heap placed.config backendsOrder routingOrder write
    placed.config.backends.IsOrder backendsOrder ∧ placed.config.routing.IsOrder routingOrder ∧
      w' = { w with heap := placed.heap, next := placed.next, mgr := r.1,
                    base := fun p => if w.next ≤ p then (placed.heap p).connections else w.base p,
                    lost := w.lost || (r.2.isOk && !w.delivers) } := by
  dsimp only [updateConfig] at h
  split_ifs at h with horder
  cases h
  exact ⟨horder.1, horder.2, rfl⟩

theorem step_updateConfig_eq_some {doc : Option (Config Backend)}
    {backendsOrder : List (String × List Ptr)} {routingOrder : List (String × RoutingRule)}
    {write : WriteResult} (h : w.step sortSlice (.updateConfig doc backendsOrder routingOrder write) = some w') :
    w' = w ∨ ∃ d, doc = some d ∧ w.updateConfig d backendsOrder routingOrder write = some w' := by
  cases doc with
  | none => cases h; exact .inl rfl
  | some d => exact .inr ⟨d, rfl, h⟩

theorem step_subscribe_eq_some (h : w.step sortSlice .subscribe = some w') :
    w.loop = .starting ∧
      w' = { w with mgr := w.mgr.watchConfig.1, loop := .waiting w.mgr.watchConfig.2 } := by
  simp only [step] at h
  split at h
  · cases h; exact ⟨‹_›, rfl⟩
  · cases h

theorem step_receive_eq_some (h : w.step sortSlice .receive = some w') :
    ∃ ch c, w.loop = .waiting ch ∧ w.mgr.watchers[ch]? = some (some c) ∧
      w' = { w with mgr := { w.mgr with watchers := w.mgr.watchers.set ch none },
                    loop := .received ch c } := by
  simp only [step] at h
  split at h
  · rename_i ch hloop
    split at h
    · cases h; exact ⟨ch, _, hloop, ‹_›, rfl⟩
    · cases h
  · cases h

theorem step_apply_eq_some {order : List (String × List Ptr)}
    (h : w.step sortSlice (.apply order) = some w') :
    ∃ ch c, w.loop = .received ch c ∧ w.mgr.config.backends.IsOrder order ∧
      let r := Server.updateConfig w.heap w.um c order
      w' = { w with settings := r.1, heap := r.2.1, um := r.2.2, loop := .waiting ch,
                    applied := c } := by
  simp only [step] at h
  split at h
  · rename_i ch c hloop
    split_ifs at h with horder
    cases h
    exact ⟨ch, c, hloop, horder, rfl⟩
  · cases h

end Inversion

end World

inductive Reachable (sortSlice : List (Ptr × ℚ) → List (Ptr × ℚ)) : World → Prop
  | boot {doc backendsOrder routingOrder order w} :
      World.boot doc backendsOrder routingOrder order = some w → Reachable sortSlice w
  | step {w w' a} : Reachable sortSlice w → w.step sortSlice a = some w' → Reachable sortSlice w'

inductive ReachableWithin (sortSlice : List (Ptr × ℚ) → List (Ptr × ℚ)) (Q : World → Prop) :
    World → Prop
  | boot {doc backendsOrder routingOrder order w} :
      World.boot doc backendsOrder routingOrder order = some w → Q w → ReachableWithin sortSlice Q w
  | step {w w' a} : ReachableWithin sortSlice Q w → w.step sortSlice a = some w' → Q w' →
      ReachableWithin sortSlice Q w'

theorem ReachableWithin.reachable {sortSlice : List (Ptr × ℚ) → List (Ptr × ℚ)}
    {Q : World → Prop} {w : World} (h : ReachableWithin sortSlice Q w) : Reachable sortSlice w := by
  induction h with
  | boot hb => exact .boot hb
  | step _ hs _ ih => exact .step ih hs

theorem ReachableWithin.holds {sortSlice : List (Ptr × ℚ) → List (Ptr × ℚ)} {Q : World → Prop}
    {w : World} (hr : ReachableWithin sortSlice Q w) : Q w := by
  cases hr <;> assumption

theorem ReachableWithin.mono {sortSlice : List (Ptr × ℚ) → List (Ptr × ℚ)} {Q Q' : World → Prop}
    (hQ : ∀ w, Q w → Q' w) {w : World} (hr : ReachableWithin sortSlice Q w) :
    ReachableWithin sortSlice Q' w := by
  induction hr with
  | boot hb hq => exact .boot hb (hQ _ hq)
  | step _ hs hq ih => exact .step ih hs (hQ _ hq)

def Steps (sortSlice : List (Ptr × ℚ) → List (Ptr × ℚ)) : World → World → Prop :=
  Relation.ReflTransGen fun w w' => ∃ a, w.step sortSlice a = some w'

instance : Inhabited World where
  default :=
    let c : Config Ptr := ⟨⟨"", 0, 0, 0, 0, "", []⟩, ⟨false, "", ""⟩, GoMap.empty, GoMap.empty⟩
    { heap := fun _ => Backend.zero, next := 0, mgr := ⟨c, none, []⟩,
      um := UpstreamManager.newUpstreamManager, settings := bootSettings c, reqs := [],
      loop := .starting, base := fun _ => 0, applied := c, lost := false }

theorem World.step_eq_getD {sortSlice : List (Ptr × ℚ) → List (Ptr × ℚ)} {w : World} {a : Action}
    (h : (w.step sortSlice a).isSome = true) :
    w.step sortSlice a = some ((w.step sortSlice a).getD default) := by
  obtain ⟨w', hw'⟩ := Option.isSome_iff_exists.mp h
  rw [hw']
  rfl

def World.runWithin (sortSlice : List (Ptr × ℚ) → List (Ptr × ℚ)) (q : World → Bool)
    (w : World) : List Action → Option World
  | [] => some w
  | a :: actions =>
    match w.step sortSlice a with
    | some w' => if q w' then w'.runWithin sortSlice q actions else none
    | none => none

def bootRun (sortSlice : List (Ptr × ℚ) → List (Ptr × ℚ)) (q : World → Bool) (doc : Config Backend)
    (backendsOrder : List (String × List Ptr)) (routingOrder : List (String × RoutingRule))
    (order : List (String × List Ptr)) (actions : List Action) : Option World :=
  (World.boot doc backendsOrder routingOrder order).bind fun w =>
    if q w then w.runWithin sortSlice q actions else none

theorem ReachableWithin.of_runWithin {sortSlice : List (Ptr × ℚ) → List (Ptr × ℚ)}
    {q : World → Bool} {actions : List Action} {w w' : World}
    (hw : ReachableWithin sortSlice (fun w => q w = true) w)
    (hrun : w.runWithin sortSlice q actions = some w') :
    ReachableWithin sortSlice (fun w => q w = true) w' := by
  induction actions generalizing w with
  | nil => cases hrun; exact hw
  | cons a actions ih =>
    simp only [World.runWithin] at hrun
    split at hrun
    · rename_i w₁ hstep
      split_ifs at hrun with hq
      exact ih (.step hw hstep hq) hrun
    · cases hrun

theorem ReachableWithin.of_bootRun {sortSlice : List (Ptr × ℚ) → List (Ptr × ℚ)}
    {q : World → Bool} {doc : Config Backend} {backendsOrder : List (String × List Ptr)}
    {routingOrder : List (String × RoutingRule)} {order : List (String × List Ptr)}
    {actions : List Action}
    (h : (bootRun sortSlice q doc backendsOrder routingOrder order actions).isSome = true) :
    ReachableWithin sortSlice (fun w => q w = true)
      ((bootRun sortSlice q doc backendsOrder routingOrder order actions).getD default) := by
  unfold bootRun at h ⊢
  cases hb : World.boot doc backendsOrder routingOrder order with
  | none => simp [hb] at h
  | some w =>
    simp only [hb, Option.some_bind] at h ⊢
    split_ifs at h ⊢ with hq
    · obtain ⟨w', hw'⟩ := Option.isSome_iff_exists.mp h
      rw [hw']
      exact .of_runWithin (.boot hb hq) hw'
    · simp at h

def sampleDoc : Config Backend :=
  { server := ⟨"0.0.0.0", 8080, 0, 0, 0, "", []⟩, ssl := ⟨false, "", ""⟩,
    backends := ⟨[("default", [Backend.sample "a" 100 0])], by decide⟩,
    routing := ⟨[("default", sampleRule "/" "default")], by decide⟩ }

def sampleOrder : List (String × List Ptr) := [("default", [0])]

def sampleRouting : List (String × RoutingRule) := [("default", sampleRule "/" "default")]

theorem Reachable.of_steps {sortSlice : List (Ptr × ℚ) → List (Ptr × ℚ)} {w w' : World}
    (hw : Reachable sortSlice w) (hs : Steps sortSlice w w') : Reachable sortSlice w' := by
  induction hs with
  | refl => exact hw
  | tail _ hstep ih => exact .step ih hstep.choose_spec

end SpeedMimi
