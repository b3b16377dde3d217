import SpeedMimi.Backend

/-! # The configuration manager

`config.Manager` of `internal/config/config.go`. The config it holds is an object
graph: its backend entries are pointers into the heap the proxy shares, so
`setDefaults` writes through them. A decoded document arrives already placed in the
heap; the decoding itself (viper, YAML, JSON) is outside the model. `validateConfig`
and the loops of `setDefaults` range over Go maps, so the visiting orders are
parameters; only the text of a rejection depends on them.

`UpdateConfig` runs under the manager's lock, so it is one atomic step here. Each
watcher channel has one buffer slot, and `notifyWatchers` drops the notification for a
watcher whose slot is full.

No default of `setDefaults` writes a field `validateConfig` reads (the server port, the SSL
fields, each backend's host and port, each rule's upstream), so the defaults never decide
whether a document loads.
-/

namespace SpeedMimi.Manager

def serverDefaults (server : ServerConfig) : ServerConfig :=
  { server with
    readTimeout := if server.readTimeout = 0 then 30000000000 else server.readTimeout
    writeTimeout := if server.writeTimeout = 0 then 30000000000 else server.writeTimeout
    maxConn := if server.maxConn = 0 then 10000 else server.maxConn
    realIPHeader := if server.realIPHeader = "" then "X-Real-IP" else server.realIPHeader }

def healthCheckDefaults (hc : HealthCheck) : HealthCheck :=
  { hc with
    interval := if hc.interval = 0 then 30000000000 else hc.interval
    timeout := if hc.timeout = 0 then 5000000000 else hc.timeout
    failures := if hc.failures = 0 then 3 else hc.failures }

def backendDefaults (upstream : String) (b : Backend) : Backend :=
  { b with
    id := if b.id = "" then upstream ++ "-" ++ b.host ++ "-" ++ toString b.port else b.id
    weight := if b.weight = 0 then 100 else b.weight
    scheme := if b.scheme = "" then "http" else b.scheme
    maxConn := if b.maxConn = 0 then 1000 else b.maxConn
    healthCheck := b.healthCheck.map healthCheckDefaults }

def ruleDefaults (rule : RoutingRule) : RoutingRule :=
  { rule with
    path := if rule.path = "" then "/" else rule.path
    loadBalancer :=
      if rule.loadBalancer = "" then LoadBalancerType.leastConnectionsWeight else rule.loadBalancer }

def setDefaults (h : Heap) (config : Config Ptr) : Heap × Config Ptr :=
  (config.backends.entries.foldl
      (fun h e => e.2.foldl (fun h p => h.modify p (backendDefaults e.1)) h) h,
    { config with
      server := serverDefaults config.server
      routing := config.routing.map fun _ rule => ruleDefaults rule })

def validPort (port : Int) : Bool := decide (0 < port ∧ port ≤ 65535)

def validateBackendList (h : Heap) (upstream : String) : List Ptr → Except String Unit
  | [] => .ok ()
  | p :: ps =>
    if (h p).host = "" then .error ("backend host is required for upstream " ++ upstream)
    else if !validPort (h p).port then
      .error ("invalid backend port " ++ toString (h p).port ++ " for upstream " ++ upstream)
    else validateBackendList h upstream ps

def validateBackends (h : Heap) : List (String × List Ptr) → Except String Unit
  | [] => .ok ()
  | (upstream, backends) :: rest =>
    if backends = [] then .error ("upstream " ++ upstream ++ " has no backends")
    else match validateBackendList h upstream backends with
      | .error e => .error e
      | .ok () => validateBackends h rest

def validateRouting (backends : GoMap String (List Ptr)) :
    List (String × RoutingRule) → Except String Unit
  | [] => .ok ()
  | (name, rule) :: rest =>
    if rule.upstream = "" then .error ("upstream is required for routing rule " ++ name)
    else if (backends.get? rule.upstream).isNone then
      .error ("upstream " ++ rule.upstream ++ " not found for routing rule " ++ name)
    else validateRouting backends rest

def validateConfig (h : Heap) (config : Config Ptr) (backendsOrder : List (String × List Ptr))
    (routingOrder : List (String × RoutingRule)) : Except String Unit :=
  if !validPort config.server.port then
    .error ("invalid server port: " ++ toString config.server.port)
  else if config.ssl.enabled ∧ config.ssl.certFile = "" then
    .error "SSL cert file is required when SSL is enabled"
  else if config.ssl.enabled ∧ config.ssl.keyFile = "" then
    .error "SSL key file is required when SSL is enabled"
  else match validateBackends h backendsOrder with
    | .error e => .error e
    | .ok () => validateRouting config.backends routingOrder

/-- What `validateConfig` accepts, whatever order the map ranges visit. -/
structure ConfigValid (h : Heap) (config : Config Ptr) : Prop where
  port : 0 < config.server.port ∧ config.server.port ≤ 65535
  ssl : config.ssl.enabled = true → config.ssl.certFile ≠ "" ∧ config.ssl.keyFile ≠ ""
  backends : ∀ e ∈ config.backends.entries, e.2 ≠ [] ∧
    ∀ p ∈ e.2, (h p).host ≠ "" ∧ 0 < (h p).port ∧ (h p).port ≤ 65535
  routing : ∀ e ∈ config.routing.entries,
    e.2.upstream ≠ "" ∧ (config.backends.get? e.2.upstream).isSome

theorem validateBackendList_eq_ok {h : Heap} {upstream : String} {ps : List Ptr} :
    validateBackendList h upstream ps = .ok () ↔
      ∀ p ∈ ps, (h p).host ≠ "" ∧ 0 < (h p).port ∧ (h p).port ≤ 65535 := by
  induction ps with
  | nil => simp [validateBackendList]
  | cons p ps ih =>
    unfold validateBackendList
    rw [List.forall_mem_cons, ← ih]
    by_cases hhost : (h p).host = ""
    · simp [hhost]
    · by_cases hport : 0 < (h p).port ∧ (h p).port ≤ 65535 <;> simp [hhost, hport, validPort]

theorem validateBackends_eq_ok {h : Heap} {order : List (String × List Ptr)} :
    validateBackends h order = .ok () ↔
      ∀ e ∈ order, e.2 ≠ [] ∧ ∀ p ∈ e.2, (h p).host ≠ "" ∧ 0 < (h p).port ∧ (h p).port ≤ 65535 := by
  induction order with
  | nil => simp [validateBackends]
  | cons e rest ih =>
    obtain ⟨upstream, backends⟩ := e
    unfold validateBackends
    rw [List.forall_mem_cons, ← ih, ← validateBackendList_eq_ok]
    by_cases hnil : backends = []
    · simp [hnil]
    · cases validateBackendList h upstream backends <;> simp [hnil]

theorem validateRouting_eq_ok {backends : GoMap String (List Ptr)}
    {order : List (String × RoutingRule)} :
    validateRouting backends order = .ok () ↔
      ∀ e ∈ order, e.2.upstream ≠ "" ∧ (backends.get? e.2.upstream).isSome := by
  induction order with
  | nil => simp [validateRouting]
  | cons e rest ih =>
    obtain ⟨name, rule⟩ := e
    unfold validateRouting
    rw [List.forall_mem_cons, ← ih]
    by_cases hup : rule.upstream = ""
    · simp [hup]
    · cases hget : backends.get? rule.upstream <;> simp [hup, hget]

theorem validateConfig_eq_ok {h : Heap} {config : Config Ptr}
    {backendsOrder : List (String × List Ptr)} {routingOrder : List (String × RoutingRule)}
    (hb : config.backends.IsOrder backendsOrder) (hr : config.routing.IsOrder routingOrder) :
    validateConfig h config backendsOrder routingOrder = .ok () ↔ ConfigValid h config := by
  have hparts : validateConfig h config backendsOrder routingOrder = .ok () ↔
      validPort config.server.port ∧
      (config.ssl.enabled = true → config.ssl.certFile ≠ "" ∧ config.ssl.keyFile ≠ "") ∧
      validateBackends h backendsOrder = .ok () ∧
      validateRouting config.backends routingOrder = .ok () := by
    unfold validateConfig
    split_ifs <;> cases validateBackends h backendsOrder <;> simp_all
  rw [hparts, validateBackends_eq_ok, validateRouting_eq_ok]
  simp only [validPort, decide_eq_true_eq, List.Perm.mem_iff hb, List.Perm.mem_iff hr]
  exact ⟨fun ⟨a, b, c, d⟩ => ⟨a, b, c, d⟩, fun ⟨a, b, c, d⟩ => ⟨a, b, c, d⟩⟩

end SpeedMimi.Manager

namespace SpeedMimi

/-- `config.Manager`. `file` is the document on disk (`none` once a failed write has left
it unreadable); `watchers` holds the one-slot buffer of each watcher channel. -/
structure Manager where
  config : Config Ptr
  file : Option (Config Backend)
  watchers : List (Option (Config Ptr))

inductive WriteResult
  | ok
  | error (message : String) (truncated : Bool)

namespace Manager

def getConfig (m : Manager) : Config Ptr := m.config

def saveDocument (h : Heap) (config : Config Ptr) : Config Backend :=
  { config with
    backends := config.backends.map fun _ ps => ps.map fun p =>
      { h p with connections := 0, performance := none, activeFlag := false,
                 disconnect := false } }

def notifyWatchers (watchers : List (Option (Config Ptr))) (config : Config Ptr) :
    List (Option (Config Ptr)) :=
  watchers.map fun slot => match slot with
    | none => some config
    | some pending => some pending

def watchConfig (m : Manager) : Manager × Nat :=
  ({ m with watchers := m.watchers ++ [none] }, m.watchers.length)

/-- `UpdateConfig`, with the state it leaves and its error. A rejected config changes
nothing; a failed write that truncated the file leaves it unreadable. -/
def updateConfig (m : Manager) (h : Heap) (config : Config Ptr)
    (backendsOrder : List (String × List Ptr)) (routingOrder : List (String × RoutingRule))
    (write : WriteResult) : Manager × Except String Unit :=
  match validateConfig h config backendsOrder routingOrder with
  | .error e => (m, .error ("invalid config: " ++ e))
  | .ok () =>
    match write with
    | .error e truncated =>
      ({ m with file := if truncated then none else m.file }, .error ("failed to save config: " ++ e))
    | .ok =>
      ({ config := config, file := some (saveDocument h config),
         watchers := notifyWatchers m.watchers config }, .ok ())

theorem updateConfig_cases (m : Manager) (h : Heap) (config : Config Ptr)
    (backendsOrder : List (String × List Ptr)) (routingOrder : List (String × RoutingRule))
    (write : WriteResult) :
    let r := m.updateConfig h config backendsOrder routingOrder write
    (r.2 = .ok () ∧ validateConfig h config backendsOrder routingOrder = .ok () ∧
        r.1 = { config, file := some (saveDocument h config),
                watchers := notifyWatchers m.watchers config }) ∨
      (r.2 ≠ .ok () ∧ r.1.config = m.config ∧ r.1.watchers = m.watchers) := by
  unfold updateConfig
  split
  · exact .inr ⟨by simp, rfl, rfl⟩
  · rename_i hv
    cases write with
    | ok => exact .inl ⟨rfl, hv, rfl⟩
    | error e truncated => exact .inr ⟨by simp, rfl, rfl⟩

theorem getElem?_notifyWatchers (watchers : List (Option (Config Ptr))) (config : Config Ptr)
    (i : Nat) : (notifyWatchers watchers config)[i]? = watchers[i]?.map fun slot => some (slot.getD config) := by
  unfold notifyWatchers
  rw [List.getElem?_map]
  congr 1
  funext slot
  cases slot <;> rfl

/-- `loadConfig` after the decoder has placed `config` in the heap, then `NewManager`. -/
def loadConfig (h : Heap) (config : Config Ptr) (file : Config Backend)
    (backendsOrder : List (String × List Ptr)) (routingOrder : List (String × RoutingRule)) :
    Except String (Heap × Manager) :=
  let (h', config') := setDefaults h config
  match validateConfig h' config' backendsOrder routingOrder with
  | .error e => .error e
  | .ok () => .ok (h', { config := config', file := some file, watchers := [] })

theorem loadConfig_eq_ok {h h' : Heap} {config : Config Ptr} {file : Config Backend}
    {backendsOrder : List (String × List Ptr)} {routingOrder : List (String × RoutingRule)}
    {m : Manager} (hok : loadConfig h config file backendsOrder routingOrder = .ok (h', m)) :
    h' = (setDefaults h config).1 ∧ m.config = (setDefaults h config).2 ∧ m.watchers = [] ∧
      validateConfig h' m.config backendsOrder routingOrder = .ok () := by
  unfold loadConfig at hok
  dsimp only at hok
  split at hok
  · cases hok
  · rename_i hv
    cases hok
    exact ⟨rfl, rfl, rfl, hv⟩

theorem loadConfig_eq (h : Heap) (config : Config Ptr) (file : Config Backend)
    (backendsOrder : List (String × List Ptr)) (routingOrder : List (String × RoutingRule)) :
    loadConfig h config file backendsOrder routingOrder =
      match validateConfig (setDefaults h config).1 (setDefaults h config).2 backendsOrder
          routingOrder with
      | .error e => .error e
      | .ok () => .ok ((setDefaults h config).1,
          { config := (setDefaults h config).2, file := some file, watchers := [] }) := rfl

theorem foldl_modify_address {f : Backend → Backend}
    (hf : ∀ b, ((f b).host, (f b).port) = (b.host, b.port)) (ps : List Ptr) (h : Heap) (p : Ptr) :
    ((ps.foldl (fun h q => h.modify q f) h p).host, (ps.foldl (fun h q => h.modify q f) h p).port) =
      ((h p).host, (h p).port) := by
  induction ps generalizing h with
  | nil => rfl
  | cons q qs ih =>
    rw [List.foldl_cons, ih, Heap.modify_apply]
    split_ifs with hpq
    · exact hf _
    · rfl

theorem setDefaults_address (h : Heap) (config : Config Ptr) (p : Ptr) :
    (((setDefaults h config).1 p).host, ((setDefaults h config).1 p).port) = ((h p).host, (h p).port) := by
  unfold setDefaults
  generalize config.backends.entries = es
  induction es generalizing h with
  | nil => rfl
  | cons e rest ih =>
    rw [List.foldl_cons, ih]
    exact @foldl_modify_address (backendDefaults e.1) (fun _ => rfl) _ _ _

theorem validateBackendList_congr {h h' : Heap}
    (haddr : ∀ p, ((h' p).host, (h' p).port) = ((h p).host, (h p).port)) (upstream : String)
    (ps : List Ptr) : validateBackendList h' upstream ps = validateBackendList h upstream ps := by
  induction ps with
  | nil => rfl
  | cons p ps ih =>
    obtain ⟨hhost, hport⟩ := Prod.mk.inj (haddr p)
    simp only [validateBackendList, hhost, hport, ih]

theorem validateBackends_congr {h h' : Heap}
    (haddr : ∀ p, ((h' p).host, (h' p).port) = ((h p).host, (h p).port))
    (order : List (String × List Ptr)) : validateBackends h' order = validateBackends h order := by
  induction order with
  | nil => rfl
  | cons e rest ih =>
    obtain ⟨upstream, backends⟩ := e
    simp only [validateBackends, validateBackendList_congr haddr, ih]

theorem validateRouting_ruleDefaults (backends : GoMap String (List Ptr))
    (order : List (String × RoutingRule)) :
    validateRouting backends (order.map fun e => (e.1, ruleDefaults e.2)) =
      validateRouting backends order := by
  induction order with
  | nil => rfl
  | cons e rest ih =>
    obtain ⟨name, rule⟩ := e
    simp only [List.map_cons, validateRouting, ih]
    rfl

theorem validateConfig_setDefaults (h : Heap) (config : Config Ptr)
    (backendsOrder : List (String × List Ptr)) (routingOrder : List (String × RoutingRule)) :
    validateConfig (setDefaults h config).1 (setDefaults h config).2 backendsOrder
        (routingOrder.map fun e => (e.1, ruleDefaults e.2)) =
      validateConfig h config backendsOrder routingOrder := by
  simp only [validateConfig, validateBackends_congr (setDefaults_address h config),
    validateRouting_ruleDefaults]
  rfl

theorem configValid_setDefaults (h : Heap) (config : Config Ptr) :
    ConfigValid (setDefaults h config).1 (setDefaults h config).2 ↔ ConfigValid h config := by
  have hr : (setDefaults h config).2.routing.IsOrder
      (config.routing.entries.map fun e => (e.1, ruleDefaults e.2)) := List.Perm.refl _
  rw [← @validateConfig_eq_ok (setDefaults h config).1 (setDefaults h config).2 _ _
    (GoMap.isOrder_entries config.backends) hr, validateConfig_setDefaults,
    validateConfig_eq_ok (GoMap.isOrder_entries _) (GoMap.isOrder_entries _)]

/-- The defaults never decide whether a document loads: in every visiting order `loadConfig`
accepts exactly the documents that are valid as decoded, and rejects a document with the
message `validateConfig` gives for it as decoded. -/
theorem loadConfig_validates_decoded (h : Heap) (config : Config Ptr) (file : Config Backend) :
    (∀ backendsOrder routingOrder, config.backends.IsOrder backendsOrder →
      (config.routing.map fun _ rule => ruleDefaults rule).IsOrder routingOrder →
      ((∃ r, loadConfig h config file backendsOrder routingOrder = .ok r) ↔ ConfigValid h config)) ∧
    ∀ backendsOrder routingOrder e,
      loadConfig h config file backendsOrder (routingOrder.map fun e => (e.1, ruleDefaults e.2)) =
          .error e ↔ validateConfig h config backendsOrder routingOrder = .error e := by
  refine ⟨fun backendsOrder routingOrder hb hr => ?_, fun backendsOrder routingOrder e => ?_⟩
  · rw [← configValid_setDefaults, ← @validateConfig_eq_ok _ (setDefaults h config).2 _ _ hb hr,
      loadConfig_eq]
    cases validateConfig (setDefaults h config).1 (setDefaults h config).2 backendsOrder routingOrder <;>
      simp
  · rw [← validateConfig_setDefaults, loadConfig_eq]
    cases validateConfig (setDefaults h config).1 (setDefaults h config).2 backendsOrder
      (routingOrder.map fun e => (e.1, ruleDefaults e.2)) <;> simp

end Manager

end SpeedMimi
