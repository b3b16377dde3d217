import SpeedMimi.Manager

/-! # Config updates from the admin API

`Server.updateConfig` of `internal/grpcservice/service.go` decodes the body
`{"config": ...}` into a `*types.Config` and hands it to `Manager.UpdateConfig`. A JSON
`null`, or an absent `config`, decodes to `nil`: the config itself (the body `{}`), a
routing rule (`map[string]*RoutingRule`), or a backend entry (`[]*Backend`).
`validateConfig` dereferences each of them, so a `nil` it reaches panics. Nothing has been
written by then: the deferred `Unlock` runs, `net/http` recovers the panic and drops the
connection, and the manager is left as it was.

A `Candidate` is the decoded config with its `nil`s. The manager's own `Config Ptr` is a
candidate without them, and on those the nil-aware `validateConfig` is the one of
`SpeedMimi.Manager`.
-/

namespace SpeedMimi

/-- The `*types.Config` the admin handler decodes; `none` is a `nil` pointer. -/
structure Candidate where
  server : ServerConfig
  ssl : SSLConfig
  backends : GoMap String (List (Option Ptr))
  routing : GoMap String (Option RoutingRule)

namespace Candidate

open Manager (validPort)

def ofConfig (config : Config Ptr) : Candidate :=
  ⟨config.server, config.ssl, config.backends.map fun _ ps => ps.map some,
    config.routing.map fun _ rule => some rule⟩

def toConfig (c : Candidate) : Config Ptr :=
  ⟨c.server, c.ssl, c.backends.map fun _ ps => ps.map fun p => p.getD 0,
    c.routing.map fun _ rule => rule.getD ⟨"", "", "", GoMap.empty⟩⟩

structure NilFree (c : Candidate) : Prop where
  backends : ∀ e ∈ c.backends.entries, none ∉ e.2
  routing : ∀ e ∈ c.routing.entries, e.2 ≠ none

structure ValidApartFromNil (h : Heap) (c : Candidate) : Prop where
  port : 0 < c.server.port ∧ c.server.port ≤ 65535
  ssl : c.ssl.enabled = true → c.ssl.certFile ≠ "" ∧ c.ssl.keyFile ≠ ""
  backends : ∀ e ∈ c.backends.entries, e.2 ≠ [] ∧
    ∀ q, some q ∈ e.2 → (h q).host ≠ "" ∧ 0 < (h q).port ∧ (h q).port ≤ 65535
  routing : ∀ e ∈ c.routing.entries, ∀ rule, e.2 = some rule →
    rule.upstream ≠ "" ∧ (c.backends.get? rule.upstream).isSome

theorem toConfig_ofConfig (config : Config Ptr) : (ofConfig config).toConfig = config := by
  obtain ⟨server, ssl, ⟨be, bn⟩, ⟨re, rn⟩⟩ := config
  simp [ofConfig, toConfig, GoMap.map, Function.comp_def]

theorem nilFree_ofConfig (config : Config Ptr) : (ofConfig config).NilFree := by
  refine ⟨fun e he => ?_, fun e he => ?_⟩ <;>
    obtain ⟨e, -, rfl⟩ := List.mem_map.mp he <;> simp

theorem map_eq_self {α : Type} {f : α → α} {l : List α} (h : ∀ a ∈ l, f a = a) :
    l.map f = l :=
  (List.map_congr_left h).trans (List.map_id l)

theorem ofConfig_toConfig {c : Candidate} (hc : c.NilFree) : ofConfig c.toConfig = c := by
  obtain ⟨server, ssl, ⟨be, bn⟩, ⟨re, rn⟩⟩ := c
  have hsome : ∀ {β : Type} (d : β) (p : Option β), p ≠ none → some (p.getD d) = p := by
    rintro β d (_ | p) hp
    · exact absurd rfl hp
    · rfl
  simp only [ofConfig, toConfig, GoMap.map, List.map_map, Function.comp_def, mk.injEq,
    GoMap.mk.injEq, true_and]
  refine ⟨map_eq_self fun e he => Prod.ext rfl (map_eq_self fun p hp => hsome 0 p ?_),
    map_eq_self fun e he => Prod.ext rfl (hsome _ _ (hc.routing e he))⟩
  exact fun hn => hc.backends e he (hn ▸ hp)

/-- The inner loop of `validateConfig`; `none` is the panic on `backend.Host` of a `nil`. -/
def validateBackendList (h : Heap) (upstream : String) :
    List (Option Ptr) → Option (Except String Unit)
  | [] => some (.ok ())
  | none :: _ => none
  | some p :: ps =>
    if (h p).host = "" then some (.error ("backend host is required for upstream " ++ upstream))
    else if !validPort (h p).port then
      some (.error ("invalid backend port " ++ toString (h p).port ++ " for upstream " ++ upstream))
    else validateBackendList h upstream ps

def validateBackends (h : Heap) : List (String × List (Option Ptr)) → Option (Except String Unit)
  | [] => some (.ok ())
  | (upstream, backends) :: rest =>
    if backends = [] then some (.error ("upstream " ++ upstream ++ " has no backends"))
    else match validateBackendList h upstream backends with
      | some (.ok ()) => validateBackends h rest
      | some (.error e) => some (.error e)
      | none => none

def validateRouting (backends : GoMap String (List (Option Ptr))) :
    List (String × Option RoutingRule) → Option (Except String Unit)
  | [] => some (.ok ())
  | (_, none) :: _ => none
  | (name, some rule) :: rest =>
    if rule.upstream = "" then some (.error ("upstream is required for routing rule " ++ name))
    else if (backends.get? rule.upstream).isNone then
      some (.error ("upstream " ++ rule.upstream ++ " not found for routing rule " ++ name))
    else validateRouting backends rest

def validateConfig (h : Heap) (c : Candidate) (backendsOrder : List (String × List (Option Ptr)))
    (routingOrder : List (String × Option RoutingRule)) : Option (Except String Unit) :=
  if !validPort c.server.port then
    some (.error ("invalid server port: " ++ toString c.server.port))
  else if c.ssl.enabled ∧ c.ssl.certFile = "" then
    some (.error "SSL cert file is required when SSL is enabled")
  else if c.ssl.enabled ∧ c.ssl.keyFile = "" then
    some (.error "SSL key file is required when SSL is enabled")
  else match validateBackends h backendsOrder with
    | some (.ok ()) => validateRouting c.backends routingOrder
    | some (.error e) => some (.error e)
    | none => none

theorem validateBackendList_map_some (h : Heap) (upstream : String) (ps : List Ptr) :
    validateBackendList h upstream (ps.map some) =
      some (Manager.validateBackendList h upstream ps) := by
  induction ps with
  | nil => rfl
  | cons p ps ih =>
    simp only [List.map_cons, validateBackendList, Manager.validateBackendList, ih]
    split_ifs <;> rfl

theorem validateBackends_map_some (h : Heap) (order : List (String × List Ptr)) :
    validateBackends h (order.map fun e => (e.1, e.2.map some)) =
      some (Manager.validateBackends h order) := by
  induction order with
  | nil => rfl
  | cons e rest ih =>
    obtain ⟨upstream, backends⟩ := e
    simp only [List.map_cons, validateBackends, Manager.validateBackends, List.map_eq_nil_iff,
      validateBackendList_map_some, ih]
    split_ifs
    · rfl
    · rcases Manager.validateBackendList h upstream backends with e | ⟨⟩ <;> rfl

theorem validateRouting_map_some (backends : GoMap String (List Ptr))
    (order : List (String × RoutingRule)) :
    validateRouting (backends.map fun _ ps => ps.map some) (order.map fun e => (e.1, some e.2)) =
      some (Manager.validateRouting backends order) := by
  induction order with
  | nil => rfl
  | cons e rest ih =>
    obtain ⟨name, rule⟩ := e
    simp only [List.map_cons, validateRouting, Manager.validateRouting, GoMap.get?_map,
      Option.isNone_map', ih]
    split_ifs <;> rfl

theorem validateConfig_ofConfig (h : Heap) (config : Config Ptr)
    (backendsOrder : List (String × List Ptr)) (routingOrder : List (String × RoutingRule)) :
    (ofConfig config).validateConfig h (backendsOrder.map fun e => (e.1, e.2.map some))
        (routingOrder.map fun e => (e.1, some e.2)) =
      some (Manager.validateConfig h config backendsOrder routingOrder) := by
  simp only [validateConfig, Manager.validateConfig, ofConfig, validateBackends_map_some,
    validateRouting_map_some, apply_ite some]
  rcases Manager.validateBackends h backendsOrder with e | ⟨⟩ <;> rfl

theorem not_mem_of_validateBackendList {h : Heap} {upstream : String} {ps : List (Option Ptr)}
    (hv : validateBackendList h upstream ps = some (.ok ())) : none ∉ ps := by
  induction ps with
  | nil => simp
  | cons p ps ih =>
    cases p with
    | none => simp [validateBackendList] at hv
    | some q =>
      simp only [validateBackendList] at hv
      split_ifs at hv
      · cases hv
      · cases hv
      · simpa using ih hv

theorem validateBackendList_ne_none {h : Heap} {upstream : String} {ps : List (Option Ptr)}
    (hps : none ∉ ps) : validateBackendList h upstream ps ≠ none := by
  induction ps with
  | nil => simp [validateBackendList]
  | cons p ps ih =>
    obtain ⟨q, rfl⟩ := Option.ne_none_iff_exists'.mp fun hp => hps (hp ▸ List.mem_cons_self _ _)
    simp only [validateBackendList]
    split_ifs
    · simp
    · simp
    · exact ih fun hn => hps (List.mem_cons_of_mem _ hn)

theorem validateBackendList_of_valid {h : Heap} {upstream : String} {ps : List (Option Ptr)}
    (hv : ∀ q, some q ∈ ps → (h q).host ≠ "" ∧ 0 < (h q).port ∧ (h q).port ≤ 65535) :
    validateBackendList h upstream ps = if none ∈ ps then none else some (.ok ()) := by
  induction ps with
  | nil => rfl
  | cons p ps ih =>
    have ih := ih fun q hq => hv q (List.mem_cons_of_mem _ hq)
    cases p with
    | none => simp [validateBackendList]
    | some q =>
      obtain ⟨hhost, hport⟩ := hv q (List.mem_cons_self _ _)
      simp [validateBackendList, hhost, validPort, hport, ih]

theorem not_mem_of_validateBackends {h : Heap} {order : List (String × List (Option Ptr))}
    (hv : validateBackends h order = some (.ok ())) : ∀ e ∈ order, none ∉ e.2 := by
  induction order with
  | nil => simp
  | cons e rest ih =>
    obtain ⟨upstream, backends⟩ := e
    simp only [validateBackends] at hv
    split_ifs at hv
    · cases hv
    · rcases hl : validateBackendList h upstream backends with _ | (e | ⟨⟨⟩⟩) <;> rw [hl] at hv
      · cases hv
      · cases hv
      · exact List.forall_mem_cons.mpr ⟨not_mem_of_validateBackendList hl, ih hv⟩

theorem validateBackends_ne_none {h : Heap} {order : List (String × List (Option Ptr))}
    (hps : ∀ e ∈ order, none ∉ e.2) : validateBackends h order ≠ none := by
  induction order with
  | nil => simp [validateBackends]
  | cons e rest ih =>
    obtain ⟨upstream, backends⟩ := e
    obtain ⟨he, hrest⟩ := List.forall_mem_cons.mp hps
    simp only [validateBackends]
    split_ifs
    · simp
    · rcases hl : validateBackendList h upstream backends with _ | (e | ⟨⟨⟩⟩)
      · exact absurd hl (validateBackendList_ne_none he)
      · simp
      · exact ih hrest

theorem validateBackends_of_valid {h : Heap} {order : List (String × List (Option Ptr))}
    (hv : ∀ e ∈ order, e.2 ≠ [] ∧
      ∀ q, some q ∈ e.2 → (h q).host ≠ "" ∧ 0 < (h q).port ∧ (h q).port ≤ 65535) :
    validateBackends h order = if ∃ e ∈ order, none ∈ e.2 then none else some (.ok ()) := by
  induction order with
  | nil => exact (if_neg fun ⟨_, he, _⟩ => List.not_mem_nil _ he).symm
  | cons e rest ih =>
    obtain ⟨upstream, backends⟩ := e
    obtain ⟨⟨hne, hps⟩, hrest⟩ := List.forall_mem_cons.mp hv
    simp only [validateBackends, hne, if_false, validateBackendList_of_valid hps, ih hrest]
    by_cases hn : none ∈ backends
    · have hall : ∃ e ∈ (upstream, backends) :: rest, none ∈ e.2 :=
        ⟨_, List.mem_cons_self _ _, hn⟩
      rw [if_pos hall, if_pos hn]
    · rw [if_neg hn]
      refine if_congr ?_ rfl rfl
      rw [List.exists_mem_cons_iff]
      exact (or_iff_right hn).symm

theorem ne_none_of_validateRouting {backends : GoMap String (List (Option Ptr))}
    {order : List (String × Option RoutingRule)}
    (hv : validateRouting backends order = some (.ok ())) : ∀ e ∈ order, e.2 ≠ none := by
  induction order with
  | nil => simp
  | cons e rest ih =>
    obtain ⟨name, _ | rule⟩ := e
    · cases hv
    · simp only [validateRouting] at hv
      split_ifs at hv
      · cases hv
      · cases hv
      · exact List.forall_mem_cons.mpr ⟨Option.some_ne_none rule, ih hv⟩

theorem validateRouting_ne_none {backends : GoMap String (List (Option Ptr))}
    {order : List (String × Option RoutingRule)} (hrules : ∀ e ∈ order, e.2 ≠ none) :
    validateRouting backends order ≠ none := by
  induction order with
  | nil => simp [validateRouting]
  | cons e rest ih =>
    obtain ⟨he, hrest⟩ := List.forall_mem_cons.mp hrules
    obtain ⟨name, _ | rule⟩ := e
    · exact absurd rfl he
    · simp only [validateRouting]
      split_ifs
      · simp
      · simp
      · exact ih hrest

theorem validateRouting_of_valid {backends : GoMap String (List (Option Ptr))}
    {order : List (String × Option RoutingRule)}
    (hv : ∀ e ∈ order, ∀ rule, e.2 = some rule →
      rule.upstream ≠ "" ∧ (backends.get? rule.upstream).isSome) :
    validateRouting backends order = if ∃ e ∈ order, e.2 = none then none else some (.ok ()) := by
  induction order with
  | nil => exact (if_neg fun ⟨_, he, _⟩ => List.not_mem_nil _ he).symm
  | cons e rest ih =>
    obtain ⟨he, hrest⟩ := List.forall_mem_cons.mp hv
    obtain ⟨name, _ | rule⟩ := e
    · exact (if_pos ⟨_, List.mem_cons_self _ _, rfl⟩).symm
    · obtain ⟨hup, hget⟩ := he rule rfl
      simp only [validateRouting, hup, if_false, Option.isNone_iff_eq_none,
        Option.isSome_iff_ne_none.mp hget, ih hrest]
      refine if_congr ?_ rfl rfl
      rw [List.exists_mem_cons_iff]
      exact (or_iff_right (Option.some_ne_none rule)).symm

theorem validateConfig_cases (h : Heap) (c : Candidate)
    (backendsOrder : List (String × List (Option Ptr)))
    (routingOrder : List (String × Option RoutingRule)) :
    (∃ e, c.validateConfig h backendsOrder routingOrder = some (.error e)) ∨
      c.validateConfig h backendsOrder routingOrder =
        match validateBackends h backendsOrder with
        | some (.ok ()) => validateRouting c.backends routingOrder
        | some (.error e) => some (.error e)
        | none => none := by
  unfold validateConfig
  by_cases hp : (!validPort c.server.port) = true
  · exact .inl ⟨_, if_pos hp⟩
  rw [if_neg hp]
  by_cases hc : c.ssl.enabled = true ∧ c.ssl.certFile = ""
  · exact .inl ⟨_, if_pos hc⟩
  rw [if_neg hc]
  by_cases hk : c.ssl.enabled = true ∧ c.ssl.keyFile = ""
  · exact .inl ⟨_, if_pos hk⟩
  exact .inr (if_neg hk)

theorem nilFree_of_validateConfig {h : Heap} {c : Candidate}
    {backendsOrder : List (String × List (Option Ptr))}
    {routingOrder : List (String × Option RoutingRule)} (hbo : c.backends.IsOrder backendsOrder)
    (hro : c.routing.IsOrder routingOrder)
    (hv : c.validateConfig h backendsOrder routingOrder = some (.ok ())) : c.NilFree := by
  rcases validateConfig_cases h c backendsOrder routingOrder with ⟨e, he⟩ | heq
  · rw [he] at hv
    cases hv
  rw [heq] at hv
  rcases hb : validateBackends h backendsOrder with _ | (e | ⟨⟨⟩⟩) <;> rw [hb] at hv
  · cases hv
  · cases hv
  · exact ⟨fun e he => not_mem_of_validateBackends hb e (hbo.mem_iff.mpr he),
      fun e he => ne_none_of_validateRouting hv e (hro.mem_iff.mpr he)⟩

theorem validateConfig_ne_none {h : Heap} {c : Candidate}
    {backendsOrder : List (String × List (Option Ptr))}
    {routingOrder : List (String × Option RoutingRule)} (hbo : c.backends.IsOrder backendsOrder)
    (hro : c.routing.IsOrder routingOrder) (hc : c.NilFree) :
    c.validateConfig h backendsOrder routingOrder ≠ none := by
  rcases validateConfig_cases h c backendsOrder routingOrder with ⟨e, he⟩ | heq
  · rw [he]
    exact Option.some_ne_none _
  rw [heq]
  rcases hb : validateBackends h backendsOrder with _ | (e | ⟨⟨⟩⟩)
  · exact absurd hb (validateBackends_ne_none fun e he => hc.backends e (hbo.mem_iff.mp he))
  · exact Option.some_ne_none _
  · exact validateRouting_ne_none fun e he => hc.routing e (hro.mem_iff.mp he)

theorem validateConfig_eq_none_iff {h : Heap} {c : Candidate}
    {backendsOrder : List (String × List (Option Ptr))}
    {routingOrder : List (String × Option RoutingRule)} (hbo : c.backends.IsOrder backendsOrder)
    (hro : c.routing.IsOrder routingOrder) (hv : c.ValidApartFromNil h) :
    c.validateConfig h backendsOrder routingOrder = none ↔ ¬c.NilFree := by
  have hport : ¬(!validPort c.server.port) = true := by simp [validPort, hv.port]
  have hcert : ¬(c.ssl.enabled = true ∧ c.ssl.certFile = "") := fun ⟨he, hc⟩ => (hv.ssl he).1 hc
  have hkey : ¬(c.ssl.enabled = true ∧ c.ssl.keyFile = "") := fun ⟨he, hk⟩ => (hv.ssl he).2 hk
  have hnf : c.NilFree ↔
      (¬∃ e ∈ backendsOrder, none ∈ e.2) ∧ ¬∃ e ∈ routingOrder, e.2 = none := by
    simp only [not_exists, not_and, hbo.mem_iff, hro.mem_iff]
    exact ⟨fun h => ⟨h.backends, h.routing⟩, fun ⟨hb, hr⟩ => ⟨hb, hr⟩⟩
  rw [validateConfig, if_neg hport, if_neg hcert, if_neg hkey,
    validateBackends_of_valid fun e he => hv.backends e (hbo.mem_iff.mp he),
    validateRouting_of_valid fun e he => hv.routing e (hro.mem_iff.mp he), hnf]
  by_cases hb : ∃ e ∈ backendsOrder, none ∈ e.2
  · rw [if_pos hb]
    exact iff_of_true rfl fun h => h.1 hb
  · by_cases hr : ∃ e ∈ routingOrder, e.2 = none
    · rw [if_neg hb, if_pos hr]
      exact iff_of_true rfl fun h => h.2 hr
    · rw [if_neg hb, if_neg hr]
      exact iff_of_false (Option.some_ne_none _) fun h => h ⟨hb, hr⟩

end Candidate

namespace Manager

/-- `UpdateConfig(req.Config)` on what the admin handler decoded: the manager it leaves and
its result, `none` for a panic. `UpdateConfig(nil)` panics on `config.Server.Port`. A panic
comes from `validateConfig`, before anything is written, and leaves the manager as it was. -/
def updateCandidate (m : Manager) (h : Heap) (candidate : Option Candidate)
    (backendsOrder : List (String × List (Option Ptr)))
    (routingOrder : List (String × Option RoutingRule)) (write : WriteResult) :
    Manager × Option (Except String Unit) :=
  match candidate with
  | none => (m, none)
  | some c =>
    match c.validateConfig h backendsOrder routingOrder with
    | none => (m, none)
    | some (.error e) => (m, some (.error ("invalid config: " ++ e)))
    | some (.ok ()) =>
      match write with
      | .error e truncated =>
        ({ m with file := if truncated then none else m.file },
          some (.error ("failed to save config: " ++ e)))
      | .ok =>
        ({ config := c.toConfig, file := some (saveDocument h c.toConfig),
           watchers := notifyWatchers m.watchers c.toConfig }, some (.ok ()))

theorem updateCandidate_ofConfig (m : Manager) (h : Heap) (config : Config Ptr)
    (backendsOrder : List (String × List Ptr)) (routingOrder : List (String × RoutingRule))
    (write : WriteResult) :
    m.updateCandidate h (some (.ofConfig config))
        (backendsOrder.map fun e => (e.1, e.2.map some))
        (routingOrder.map fun e => (e.1, some e.2)) write =
      ((m.updateConfig h config backendsOrder routingOrder write).1,
        some (m.updateConfig h config backendsOrder routingOrder write).2) := by
  dsimp only [updateCandidate]
  rw [Candidate.validateConfig_ofConfig, Candidate.toConfig_ofConfig]
  unfold updateConfig
  rcases validateConfig h config backendsOrder routingOrder with e | ⟨⟨⟩⟩
  · rfl
  · cases write <;> rfl

theorem updateCandidate_cases (m : Manager) (h : Heap) (c : Candidate)
    (backendsOrder : List (String × List (Option Ptr)))
    (routingOrder : List (String × Option RoutingRule)) (write : WriteResult) :
    (m.updateCandidate h (some c) backendsOrder routingOrder write = (m, none) ∧
        c.validateConfig h backendsOrder routingOrder = none) ∨
      (∃ e m', m.updateCandidate h (some c) backendsOrder routingOrder write =
          (m', some (.error e)) ∧ m'.config = m.config ∧ m'.watchers = m.watchers ∧
        c.validateConfig h backendsOrder routingOrder ≠ none) ∨
      (c.validateConfig h backendsOrder routingOrder = some (.ok ()) ∧
        m.updateCandidate h (some c) backendsOrder routingOrder write =
          ({ config := c.toConfig, file := some (saveDocument h c.toConfig),
             watchers := notifyWatchers m.watchers c.toConfig }, some (.ok ()))) := by
  dsimp only [updateCandidate]
  rcases hv : c.validateConfig h backendsOrder routingOrder with _ | (e | ⟨⟨⟩⟩)
  · exact .inl ⟨rfl, rfl⟩
  · exact .inr (.inl ⟨_, _, rfl, rfl, rfl, by simp⟩)
  · cases write with
    | error e truncated => exact .inr (.inl ⟨_, _, rfl, rfl, rfl, by simp⟩)
    | ok => exact .inr (.inr ⟨rfl, rfl⟩)

/-- The admin API's config update on every candidate it can decode: the `nil` config
panics; every panic leaves the manager as it was; a candidate without `nil`s never panics,
and one valid apart from its `nil`s panics exactly when it has one, in every visiting order;
a rejection leaves the config and the channels alone; a success installs, saves and
announces the candidate, which then has no `nil`. -/
theorem admin_update_dereferences_nil (m : Manager) (h : Heap) (c : Candidate)
    (backendsOrder : List (String × List (Option Ptr)))
    (routingOrder : List (String × Option RoutingRule)) (write : WriteResult)
    (hbo : c.backends.IsOrder backendsOrder) (hro : c.routing.IsOrder routingOrder) :
    m.updateCandidate h none backendsOrder routingOrder write = (m, none) ∧
      let r := m.updateCandidate h (some c) backendsOrder routingOrder write
      (r.2 = none → r.1 = m) ∧
      (c.NilFree → r.2 ≠ none) ∧
      (c.ValidApartFromNil h → (r.2 = none ↔ ¬c.NilFree)) ∧
      (∀ e, r.2 = some (.error e) → r.1.config = m.config ∧ r.1.watchers = m.watchers) ∧
      (r.2 = some (.ok ()) → c.NilFree ∧
        r.1 = { config := c.toConfig, file := some (saveDocument h c.toConfig),
                watchers := notifyWatchers m.watchers c.toConfig }) := by
  refine ⟨rfl, ?_⟩
  intro r
  have hpanic : c.ValidApartFromNil h →
      (c.validateConfig h backendsOrder routingOrder = none ↔ ¬c.NilFree) :=
    Candidate.validateConfig_eq_none_iff hbo hro
  rcases updateCandidate_cases m h c backendsOrder routingOrder write with
    ⟨hr, hv⟩ | ⟨e, m', hr, hconf, hw, hv⟩ | ⟨hv, hr⟩
  · have hr : r = (m, none) := hr
    rw [hr]
    exact ⟨fun _ => rfl, fun hnf _ => Candidate.validateConfig_ne_none hbo hro hnf hv,
      fun hva => iff_of_true rfl ((hpanic hva).mp hv), fun _ he => (by cases he),
      fun hok => (by cases hok)⟩
  · have hr : r = (m', some (.error e)) := hr
    rw [hr]
    exact ⟨fun he => (by cases he), fun _ => Option.some_ne_none _,
      fun hva => iff_of_false (Option.some_ne_none _) fun hn => hv ((hpanic hva).mpr hn),
      fun _ _ => ⟨hconf, hw⟩, fun hok => (by cases hok)⟩
  · have hr : r = (_, some (.ok ())) := hr
    rw [hr]
    exact ⟨fun he => (by cases he), fun _ => Option.some_ne_none _,
      fun hva => iff_of_false (Option.some_ne_none _) fun hn => (by
        rw [(hpanic hva).mpr hn] at hv; cases hv),
      fun _ he => (by cases he), fun _ => ⟨Candidate.nilFree_of_validateConfig hbo hro hv, rfl⟩⟩

/-- The body `{"config": {"server": {"port": 8080}, "routing": {"/": null}}}` decodes to a
candidate whose one routing rule is `nil` and which is otherwise valid: `validateConfig`
panics on `rule.Upstream`, and the connection is dropped with nothing installed. -/
theorem admin_update_null_rule_panics :
    let server : ServerConfig := ⟨"", 8080, 0, 0, 0, "", []⟩
    let m : Manager := ⟨⟨server, ⟨false, "", ""⟩, GoMap.empty, GoMap.empty⟩, none, [none]⟩
    let h : Heap := fun _ => Backend.sample "a" 100 0
    let c : Candidate := ⟨server, ⟨false, "", ""⟩, GoMap.empty, ⟨[("/", none)], by decide⟩⟩
    c.backends.IsOrder [] ∧ c.routing.IsOrder [("/", none)] ∧ c.ValidApartFromNil h ∧
      ¬c.NilFree ∧ m.updateCandidate h (some c) [] [("/", none)] .ok = (m, none) ∧
      (m.updateCandidate h none [] [("/", none)] .ok = (m, none) ∧
        let r := m.updateCandidate h (some c) [] [("/", none)] .ok
        (r.2 = none → r.1 = m) ∧
        (c.NilFree → r.2 ≠ none) ∧
        (c.ValidApartFromNil h → (r.2 = none ↔ ¬c.NilFree)) ∧
        (∀ e, r.2 = some (.error e) → r.1.config = m.config ∧ r.1.watchers = m.watchers) ∧
        (r.2 = some (.ok ()) → c.NilFree ∧
          r.1 = { config := c.toConfig, file := some (saveDocument h c.toConfig),
                  watchers := notifyWatchers m.watchers c.toConfig })) := by
  intro server m h c
  have hbo : c.backends.IsOrder [] := List.Perm.refl _
  have hro : c.routing.IsOrder [("/", none)] := List.Perm.refl _
  have hvalid : c.ValidApartFromNil h := by
    refine ⟨by decide, fun he => absurd he (by decide), fun e he => absurd he (List.not_mem_nil _),
      fun e he rule hr => ?_⟩
    rw [List.mem_singleton.mp he] at hr
    cases hr
  exact ⟨hbo, hro, hvalid, fun hnf => hnf.routing _ (List.mem_singleton_self _) rfl, rfl,
    admin_update_dereferences_nil m h c [] [("/", none)] .ok hbo hro⟩

end Manager

end SpeedMimi
