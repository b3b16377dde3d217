import SpeedMimi.Proxy.Routing
import SpeedMimi.Proxy.Upstream
import SpeedMimi.Proxy.Forward

/-! # The request handler and the control plane

`Server.handleRequest` up to the call of `proxyRequest`, `Server.DisconnectBackend`, and
`handleUpdateBackend` of the management API (`internal/grpcservice/service.go`).
`handleRequest` reads the current config's routing table, the registry, and the backends'
state, and ends in an error response or in the backend the policy chose. The two control
calls act on the first backend of the upstream's `GetBackends()` whose ID matches.

The monitor's counters that `handleRequest` updates are left out: nothing here reads them.
-/

namespace SpeedMimi.Proxy

open LoadBalancer

/-- How `handleRequest` ends before `proxyRequest`: an error response, or the backend the
policy chose. -/
inductive Dispatch
  | reject (status : Nat) (message : String)
  | forward (backend : Ptr)
  deriving DecidableEq

def handleRequest (h : Heap) (config : Config Ptr) (um : UpstreamManager)
    (routingOrder : List (String × RoutingRule)) (req : Request) (env : SelectEnv) : Dispatch :=
  match findRoutingRule config.routing routingOrder req.path with
  | none => .reject 404 "Not Found"
  | some rule =>
    match um.getUpstream rule.upstream with
    | none => .reject 503 "Service Unavailable"
    | some upstream =>
      let backends := upstream.getBackends h
      if backends = [] then .reject 503 "Service Unavailable"
      else
        let balancer := getBalancer (determineLBType rule req)
        match balancer.selectBackend h backends req env with
        | none => .reject 503 "Service Unavailable (All backends at connection limit)"
        | some backend => .forward backend

theorem handleRequest_eq_forward {h : Heap} {config : Config Ptr} {um : UpstreamManager}
    {routingOrder : List (String × RoutingRule)} {req : Request} {env : SelectEnv}
    (hsort : env.Sorts) {p : Ptr} (hp : handleRequest h config um routingOrder req env = .forward p) :
    ∃ rule upstream, findRoutingRule config.routing routingOrder req.path = some rule ∧
      um.getUpstream rule.upstream = some upstream ∧ p ∈ upstream.backends ∧
      (h p).available = true := by
  unfold handleRequest at hp
  split at hp
  · cases hp
  rename_i rule hrule
  split at hp
  · cases hp
  rename_i upstream hup
  dsimp only at hp
  split_ifs at hp
  split at hp
  · cases hp
  rename_i hsel
  cases hp
  obtain ⟨hmem, havail⟩ := Balancer.selectBackend_mem hsort _ hsel
  exact ⟨rule, upstream, hrule, hup, (List.mem_filter.mp hmem).1, havail⟩

/-- The loop both control calls share: the first backend of `GetBackends()` with the ID. -/
def findBackend (h : Heap) (upstream : Upstream) (backendID : String) : Option Ptr :=
  (upstream.getBackends h).find? fun p => (h p).id = backendID

theorem findBackend_eq_some {h : Heap} {upstream : Upstream} {backendID : String} {p : Ptr}
    (hp : findBackend h upstream backendID = some p) :
    p ∈ upstream.getBackends h ∧ (h p).id = backendID := by
  unfold findBackend at hp
  exact ⟨List.mem_of_find?_eq_some hp, by simpa using List.find?_some hp⟩

theorem findBackend_eq_none_iff {h : Heap} {upstream : Upstream} {backendID : String} :
    findBackend h upstream backendID = none ↔
      ∀ p ∈ upstream.backends, (h p).id = backendID → ¬((h p).isActive = true ∧ (h p).active = true) := by
  simp only [findBackend, Upstream.getBackends, List.find?_eq_none, List.mem_filter,
    Bool.and_eq_true, decide_eq_true_eq, and_imp]
  exact forall₂_congr fun p _ => by tauto

def disconnectBackend (h : Heap) (um : UpstreamManager) (upstreamID backendID : String) :
    Except String Heap :=
  match um.getUpstream upstreamID with
  | none => .error ("upstream " ++ upstreamID ++ " not found")
  | some upstream =>
    match findBackend h upstream backendID with
    | some p => .ok (h.modify p Backend.markForDisconnect)
    | none => .error ("backend " ++ backendID ++ " not found in upstream " ++ upstreamID)

theorem disconnectBackend_eq_ok {h h' : Heap} {um : UpstreamManager}
    {upstreamID backendID : String} (hok : disconnectBackend h um upstreamID backendID = .ok h') :
    ∃ upstream p, um.getUpstream upstreamID = some upstream ∧ p ∈ upstream.getBackends h ∧
      (h p).id = backendID ∧ h' = h.modify p Backend.markForDisconnect := by
  unfold disconnectBackend at hok
  split at hok
  · cases hok
  rename_i upstream hup
  split at hok
  · rename_i p hp
    cases hok
    exact ⟨upstream, p, hup, (findBackend_eq_some hp).1, (findBackend_eq_some hp).2, rfl⟩
  · cases hok

inductive Body (α : Type)
  | readError
  | invalid
  | ok (value : α)

structure UpdateBackendRequest where
  upstreamID : String
  backendID : String
  maxConn : Int

def setMaxConn (maxConn : Int) (b : Backend) : Backend := { b with maxConn }

def handleUpdateBackend (h : Heap) (um : UpstreamManager) (method : String)
    (body : Body UpdateBackendRequest) : Heap × Nat × String :=
  if method ≠ "PUT" then (h, 405, "Method not allowed")
  else match body with
    | .readError => (h, 400, "Failed to read request body")
    | .invalid => (h, 400, "Invalid JSON")
    | .ok req =>
      if req.upstreamID = "" ∨ req.backendID = "" then
        (h, 400, "upstream_id and backend_id are required")
      else match um.getUpstream req.upstreamID with
        | none => (h, 404, "upstream not found")
        | some upstream =>
          match findBackend h upstream req.backendID with
          | none => (h, 404, "backend not found")
          | some p => (h.modify p (setMaxConn req.maxConn), 200, "Backend updated successfully")

theorem handleUpdateBackend_heap (h : Heap) (um : UpstreamManager) (method : String)
    (body : Body UpdateBackendRequest) :
    (handleUpdateBackend h um method body).1 = h ∨
      ∃ name upstream p m, um.getUpstream name = some upstream ∧ p ∈ upstream.backends ∧
        (handleUpdateBackend h um method body).1 = h.modify p (setMaxConn m) := by
  unfold handleUpdateBackend
  split_ifs
  · exact .inl rfl
  rcases body with _ | _ | req
  · exact .inl rfl
  · exact .inl rfl
  dsimp only
  split_ifs
  · exact .inl rfl
  split
  · exact .inl rfl
  rename_i upstream hup
  split
  · exact .inl rfl
  rename_i p hp
  exact .inr ⟨_, upstream, p, req.maxConn, hup, (List.mem_filter.mp (findBackend_eq_some hp).1).1, rfl⟩

/-- The two control calls agree on what they find. For a `PUT` naming both IDs,
`handleUpdateBackend` answers 404 and `DisconnectBackend` fails exactly when the upstream
is unknown or none of its backends with the ID is active (`IsActive()` and `Active`);
otherwise both act on the first active backend with the ID, writing its `MaxConn` or its
mark and no other object. -/
theorem control_calls_find_active_backend (h : Heap) (um : UpstreamManager)
    {upstreamID backendID : String} (maxConn : Int) (hu : upstreamID ≠ "") (hb : backendID ≠ "") :
    let r := handleUpdateBackend h um "PUT" (.ok ⟨upstreamID, backendID, maxConn⟩)
    let missing := ∀ u, um.getUpstream upstreamID = some u →
      ∀ p ∈ u.backends, (h p).id = backendID → ¬((h p).isActive = true ∧ (h p).active = true)
    (r.2.1 = 404 ↔ missing) ∧
      ((∃ e, disconnectBackend h um upstreamID backendID = .error e) ↔ missing) ∧
      (¬missing → ∃ u p, um.getUpstream upstreamID = some u ∧ p ∈ u.backends ∧
        (h p).id = backendID ∧ r.2.1 = 200 ∧ r.1 p = setMaxConn maxConn (h p) ∧
        (∀ q ≠ p, r.1 q = h q) ∧
        ∃ h', disconnectBackend h um upstreamID backendID = .ok h' ∧
          h' p = (h p).markForDisconnect ∧ ∀ q ≠ p, h' q = h q) := by
  intro r missing
  cases hup : um.getUpstream upstreamID with
  | none =>
    have hmissing : missing := fun u hu' => by simp [hup] at hu'
    have hr : r = (h, 404, "upstream not found") := by simp [r, handleUpdateBackend, hu, hb, hup]
    rw [hr]
    exact ⟨iff_of_true rfl hmissing, iff_of_true (by simp [disconnectBackend, hup]) hmissing,
      fun h => absurd hmissing h⟩
  | some u =>
    have hmissing : missing ↔ findBackend h u backendID = none := by
      rw [findBackend_eq_none_iff]
      simp [missing, hup]
    cases hf : findBackend h u backendID with
    | none =>
      have hr : r = (h, 404, "backend not found") := by
        simp [r, handleUpdateBackend, hu, hb, hup, hf]
      rw [hr, hmissing, hf]
      exact ⟨iff_of_true rfl rfl, iff_of_true (by simp [disconnectBackend, hup, hf]) rfl,
        fun h => absurd rfl h⟩
    | some p =>
      obtain ⟨hp, hid⟩ := findBackend_eq_some hf
      have hr : r = (h.modify p (setMaxConn maxConn), 200, "Backend updated successfully") := by
        simp [r, handleUpdateBackend, hu, hb, hup, hf]
      have hd : disconnectBackend h um upstreamID backendID =
          .ok (h.modify p Backend.markForDisconnect) := by
        simp [disconnectBackend, hup, hf]
      rw [hr, hd, hmissing, hf]
      refine ⟨by simp, by simp, fun _ => ⟨u, p, rfl, (List.mem_filter.mp hp).1, hid, rfl,
        Heap.modify_self .., fun q hq => Heap.modify_ne _ _ hq, _, rfl, Heap.modify_self ..,
        fun q hq => Heap.modify_ne _ _ hq⟩⟩

/-- The backend `a` of upstream `default` is configured with `active: false` and registered
as `initUpstreams` leaves it, its atomic flag synced to `false`: both control calls report
it missing. -/
theorem control_calls_miss_inactive_backend :
    let h : Heap := fun _ => { Backend.sample "a" 100 0 with active := false, activeFlag := false }
    let r := handleUpdateBackend h sampleUpstreams "PUT" (.ok ⟨"default", "a", 5⟩)
    let missing := ∀ u, sampleUpstreams.getUpstream "default" = some u →
      ∀ p ∈ u.backends, (h p).id = "a" → ¬((h p).isActive = true ∧ (h p).active = true)
    sampleUpstreams.getUpstream "default" = some ⟨"default", [0]⟩ ∧ (h 0).id = "a" ∧
      r.2 = (404, "backend not found") ∧ "default" ≠ "" ∧ "a" ≠ "" ∧
      (r.2.1 = 404 ↔ missing) ∧
      ((∃ e, disconnectBackend h sampleUpstreams "default" "a" = .error e) ↔ missing) ∧
      (¬missing → ∃ u p, sampleUpstreams.getUpstream "default" = some u ∧ p ∈ u.backends ∧
        (h p).id = "a" ∧ r.2.1 = 200 ∧ r.1 p = setMaxConn 5 (h p) ∧ (∀ q ≠ p, r.1 q = h q) ∧
        ∃ h', disconnectBackend h sampleUpstreams "default" "a" = .ok h' ∧
          h' p = (h p).markForDisconnect ∧ ∀ q ≠ p, h' q = h q) := by
  intro h r missing
  exact ⟨by decide, rfl, by decide, by decide, by decide,
    control_calls_find_active_backend h sampleUpstreams 5 (by decide) (by decide)⟩

def sampleRoutedConfig : Config Ptr :=
  { sampleConfig ⟨[("default", [0])], by decide⟩ with
    routing := ⟨[("default", sampleRule "/" "default")], by decide⟩ }

/-- `handleRequest` picks the backend at `127.0.0.1:8081` for a request whose `Host` is
`proxy.local:8080`, and `proxyRequest` sends it back to `http://proxy.local:8080`. -/
theorem handleRequest_sends_to_request_host :
    handleRequest (twoBackends 0 0 100 100) sampleRoutedConfig sampleUpstreams
        sampleRoutedConfig.routing.entries sampleRequest (mergeSortEnv 0) = .forward 0 ∧
      (proxyRequest (fun _ _ => false) sampleRoutedConfig.server sampleRequest
        (twoBackends 0 0 100 100 0)).destination = "http://proxy.local:8080" ∧
      backendURL (twoBackends 0 0 100 100 0) = "http://127.0.0.1:8081" := by
  decide

end SpeedMimi.Proxy
