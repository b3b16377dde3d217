import SpeedMimi.Backend

/-! # The upstream registry and config reload

`UpstreamManager` of `internal/proxy/proxy.go` (first draft, the lock-free one): a
`names` map into an append-only slice of upstreams. `initUpstreams` ranges over the
backends map of the manager's current config, syncs each backend's atomic active flag
with its `Active` field and registers the upstream; it stops at the first name that is
already registered. `Server.updateConfig`, run by the watcher goroutine, applies the
notified config's server settings and calls `initUpstreams`, ignoring its error.

An upstream's `lbType` and `balancer`, written by `SetLoadBalancer`, are read by no
request path (`handleRequest` asks the factory), so they are left out.
-/

namespace SpeedMimi

structure Upstream where
  name : String
  backends : List Ptr
  deriving DecidableEq

def Upstream.getBackends (h : Heap) (u : Upstream) : List Ptr :=
  u.backends.filter fun p => (h p).isActive && (h p).active

/-- `UpstreamManager`, with its representation invariant: every name maps to a slot of
the slice that holds an upstream of that name. -/
structure UpstreamManager where
  upstreams : List Upstream
  names : GoMap String Nat
  named : ∀ n i, names.get? n = some i → ∃ u ∈ upstreams[i]?, u.name = n

namespace UpstreamManager

def newUpstreamManager : UpstreamManager := ⟨[], GoMap.empty, by simp [GoMap.get?, GoMap.empty]⟩

theorem index_lt (um : UpstreamManager) {n : String} {i : Nat} (hi : um.names.get? n = some i) :
    i < um.upstreams.length := by
  obtain ⟨u, hu, -⟩ := um.named n i hi
  exact (List.getElem?_eq_some_iff.mp hu).1

def createUpstream (um : UpstreamManager) (name : String) (backends : List Ptr) :
    Except String UpstreamManager :=
  if (um.names.get? name).isSome then .error ("upstream " ++ name ++ " already exists")
  else .ok ⟨um.upstreams ++ [⟨name, backends⟩], um.names.insert name um.upstreams.length, by
    intro n i hi
    by_cases hn : n = name
    · subst hn
      rw [GoMap.get?_insert_self] at hi
      cases hi
      simp
    · rw [GoMap.get?_insert_ne _ _ hn] at hi
      obtain ⟨u, hu, hname⟩ := um.named n i hi
      exact ⟨u, by rwa [List.getElem?_append_left (um.index_lt hi)], hname⟩⟩

def getUpstream (um : UpstreamManager) (name : String) : Option Upstream :=
  match um.names.get? name with
  | some index => um.upstreams[index]?
  | none => none

def removeUpstream (um : UpstreamManager) (name : String) : UpstreamManager :=
  match um.names.get? name with
  | some index =>
    if index < um.upstreams.length then
      ⟨um.upstreams, um.names.erase name, fun n i hi => by
        by_cases hn : n = name
        · subst hn; simp at hi
        · rw [GoMap.get?_erase_ne _ hn] at hi; exact um.named n i hi⟩
    else um
  | none => um

theorem getUpstream_of_createUpstream {um um' : UpstreamManager} {name : String}
    {backends : List Ptr} (hc : um.createUpstream name backends = .ok um') (n : String) :
    um'.getUpstream n = if n = name then some ⟨name, backends⟩ else um.getUpstream n := by
  unfold createUpstream at hc
  split_ifs at hc
  cases hc
  unfold getUpstream
  split_ifs with hn
  · subst hn
    simp
  · rw [GoMap.get?_insert_ne _ _ hn]
    cases hi : um.names.get? n with
    | none => rfl
    | some i => exact List.getElem?_append_left (um.index_lt hi)

end UpstreamManager

def syncActive (h : Heap) (backends : List Ptr) : Heap :=
  backends.foldl (fun h p => h.modify p fun b => b.setActive b.active) h

/-- `initUpstreams` over the entries of `cfg.Backends` in the order the range visits them. -/
def initUpstreams (h : Heap) (um : UpstreamManager) :
    List (String × List Ptr) → Heap × UpstreamManager × Except String Unit
  | [] => (h, um, .ok ())
  | (name, backends) :: rest =>
    let h' := syncActive h backends
    match um.createUpstream name backends with
    | .error e => (h', um, .error ("failed to create upstream " ++ name ++ ": " ++ e))
    | .ok um' => initUpstreams h' um' rest

theorem syncActive_apply (h : Heap) (backends : List Ptr) (p : Ptr) :
    syncActive h backends p = if p ∈ backends then (h p).setActive (h p).active else h p := by
  induction backends generalizing h with
  | nil => simp [syncActive]
  | cons q qs ih =>
    simp only [syncActive, List.foldl_cons] at ih ⊢
    rw [ih]
    by_cases hpq : p = q
    · subst hpq
      simp [Backend.setActive]
    · simp [hpq]

section InitUpstreams

variable {h : Heap} {um : UpstreamManager} {order : List (String × List Ptr)}

theorem initUpstreams_keeps {n : String} {u : Upstream} (hu : um.getUpstream n = some u) :
    (initUpstreams h um order).2.1.getUpstream n = some u := by
  induction order generalizing h um with
  | nil => exact hu
  | cons e rest ih =>
    obtain ⟨name, backends⟩ := e
    unfold initUpstreams
    cases hc : um.createUpstream name backends with
    | error err => exact hu
    | ok um' =>
      refine ih ?_
      rw [UpstreamManager.getUpstream_of_createUpstream hc]
      split_ifs with hn
      · subst hn
        unfold UpstreamManager.createUpstream at hc
        split_ifs at hc with hreg
        simp [UpstreamManager.getUpstream, Option.not_isSome_iff_eq_none.mp hreg] at hu
      · exact hu

theorem initUpstreams_heap (p : Ptr) :
    (initUpstreams h um order).1 p = h p ∨
      (initUpstreams h um order).1 p = (h p).setActive (h p).active := by
  induction order generalizing h um with
  | nil => exact .inl rfl
  | cons e rest ih =>
    obtain ⟨name, backends⟩ := e
    unfold initUpstreams
    have hsync := syncActive_apply h backends p
    cases um.createUpstream name backends with
    | error err => split_ifs at hsync <;> simp [hsync]
    | ok um' =>
      rcases @ih (syncActive h backends) um' with hr | hr <;> rw [hr, hsync] <;>
        split_ifs <;> simp [Backend.setActive]

theorem initUpstreams_new {n : String} {u : Upstream} (hn : um.getUpstream n = none)
    (hu : (initUpstreams h um order).2.1.getUpstream n = some u) :
    u.name = n ∧ (n, u.backends) ∈ order ∧
      ∀ p ∈ u.backends, (initUpstreams h um order).1 p = (h p).setActive (h p).active := by
  induction order generalizing h um with
  | nil => simp [initUpstreams, hn] at hu
  | cons e rest ih =>
    obtain ⟨name, backends⟩ := e
    unfold initUpstreams at hu ⊢
    cases hc : um.createUpstream name backends with
    | error err => simp [hc, hn] at hu
    | ok um' =>
      simp only [hc] at hu ⊢
      have hget := UpstreamManager.getUpstream_of_createUpstream hc n
      by_cases hname : n = name
      · subst hname
        simp only [↓reduceIte] at hget
        rw [initUpstreams_keeps hget] at hu
        cases hu
        refine ⟨rfl, List.mem_cons_self _ _, fun p hp => ?_⟩
        rcases @initUpstreams_heap (syncActive h backends) um' rest p with hr | hr <;>
          simp [hr, syncActive_apply, hp, Backend.setActive]
      · simp only [hname, ↓reduceIte, hn] at hget
        obtain ⟨hu1, hu2, hu3⟩ := ih hget hu
        refine ⟨hu1, List.mem_cons_of_mem _ hu2, fun p hp => ?_⟩
        rw [hu3 p hp, syncActive_apply]
        split_ifs <;> simp [Backend.setActive]

end InitUpstreams

theorem List.takeWhile_congr {α : Type} {p q : α → Bool} {l : List α} (h : ∀ a ∈ l, p a = q a) :
    l.takeWhile p = l.takeWhile q := by
  induction l with
  | nil => rfl
  | cons a l ih =>
    rw [List.forall_mem_cons] at h
    simp only [List.takeWhile_cons, h.1, ih h.2]

namespace UpstreamManager

def unregisteredPrefix (um : UpstreamManager) (order : List (String × List Ptr)) :
    List (String × List Ptr) :=
  order.takeWhile fun e => (um.getUpstream e.1).isNone

theorem unregisteredPrefix_cons_of_some (um : UpstreamManager) {name : String} {u : Upstream}
    (backends : List Ptr) (rest : List (String × List Ptr)) (hget : um.getUpstream name = some u) :
    um.unregisteredPrefix ((name, backends) :: rest) = [] :=
  List.takeWhile_cons_of_neg (by simp [hget])

theorem unregisteredPrefix_cons_of_none (um : UpstreamManager) {name : String}
    (backends : List Ptr) (rest : List (String × List Ptr)) (hfree : um.getUpstream name = none) :
    um.unregisteredPrefix ((name, backends) :: rest) = (name, backends) :: um.unregisteredPrefix rest :=
  List.takeWhile_cons_of_pos (by simp [hfree])

theorem unregisteredPrefix_of_createUpstream {um um' : UpstreamManager} {name : String}
    {backends : List Ptr} (hc : um.createUpstream name backends = .ok um')
    {rest : List (String × List Ptr)} (hrest : name ∉ rest.map Prod.fst) :
    um'.unregisteredPrefix rest = um.unregisteredPrefix rest := by
  refine List.takeWhile_congr fun e he => ?_
  have hne : e.1 ≠ name := fun h => hrest (h ▸ List.mem_map_of_mem Prod.fst he)
  rw [getUpstream_of_createUpstream hc, if_neg hne]

theorem createUpstream_of_none {um : UpstreamManager} {name : String} (backends : List Ptr)
    (hfree : um.getUpstream name = none) : ∃ um', um.createUpstream name backends = .ok um' := by
  unfold createUpstream
  rw [if_neg]
  · exact ⟨_, rfl⟩
  · unfold getUpstream at hfree
    cases hi : um.names.get? name with
    | none => simp
    | some i => simp [hi, List.getElem?_eq_getElem (um.index_lt hi)] at hfree

end UpstreamManager

theorem initUpstreams_cons_of_some (h : Heap) (um : UpstreamManager) {name : String}
    {u : Upstream} (backends : List Ptr) (rest : List (String × List Ptr))
    (hget : um.getUpstream name = some u) :
    initUpstreams h um ((name, backends) :: rest) =
      (syncActive h backends, um, .error ("failed to create upstream " ++ name ++ ": " ++
        ("upstream " ++ name ++ " already exists"))) := by
  have hreg : (um.names.get? name).isSome := by
    unfold UpstreamManager.getUpstream at hget
    cases hi : um.names.get? name <;> simp_all
  simp only [initUpstreams, UpstreamManager.createUpstream, hreg, if_true]

section Prefix

variable {h : Heap} {um : UpstreamManager} {order : List (String × List Ptr)}

theorem getUpstream_initUpstreams (hnd : (order.map Prod.fst).Nodup) (n : String) :
    (initUpstreams h um order).2.1.getUpstream n =
      (um.getUpstream n).or (((um.unregisteredPrefix order).lookup n).map (Upstream.mk n)) := by
  induction order generalizing h um with
  | nil => exact Option.or_none.symm
  | cons e rest ih =>
    obtain ⟨name, backends⟩ := e
    rw [List.map_cons, List.nodup_cons] at hnd
    cases hget : um.getUpstream name with
    | none =>
      obtain ⟨um', hc⟩ := UpstreamManager.createUpstream_of_none backends hget
      simp only [initUpstreams, hc]
      rw [ih hnd.2, UpstreamManager.unregisteredPrefix_of_createUpstream hc hnd.1,
        UpstreamManager.unregisteredPrefix_cons_of_none um backends rest hget,
        UpstreamManager.getUpstream_of_createUpstream hc]
      by_cases hn : n = name
      · subst hn
        simp [hget, List.lookup_cons]
      · simp only [hn, if_false, List.lookup_cons, beq_false_of_ne hn]
    | some u =>
      rw [initUpstreams_cons_of_some h um backends rest hget,
        UpstreamManager.unregisteredPrefix_cons_of_some um backends rest hget]
      exact Option.or_none.symm

theorem isSome_lookup_of_mem {l : List (String × List Ptr)} {n : String} {backends : List Ptr}
    (hmem : (n, backends) ∈ l) : (l.lookup n).isSome := by
  cases hl : l.lookup n
  · exact absurd (List.lookup_eq_none_iff.mp hl _ hmem) (by simp)
  · rfl

theorem syncActive_append (h : Heap) (ps qs : List Ptr) :
    syncActive h (ps ++ qs) = syncActive (syncActive h ps) qs :=
  List.foldl_append _ _ _ _

theorem initUpstreams_heap_eq (hnd : (order.map Prod.fst).Nodup) :
    (initUpstreams h um order).1 =
      syncActive h ((order.take ((um.unregisteredPrefix order).length + 1)).flatMap Prod.snd) := by
  induction order generalizing h um with
  | nil => rfl
  | cons e rest ih =>
    obtain ⟨name, backends⟩ := e
    rw [List.map_cons, List.nodup_cons] at hnd
    cases hget : um.getUpstream name with
    | none =>
      obtain ⟨um', hc⟩ := UpstreamManager.createUpstream_of_none backends hget
      simp only [initUpstreams, hc]
      rw [ih hnd.2, UpstreamManager.unregisteredPrefix_of_createUpstream hc hnd.1,
        UpstreamManager.unregisteredPrefix_cons_of_none um backends rest hget,
        List.length_cons, List.take_succ_cons, List.flatMap_cons, syncActive_append]
    | some u =>
      rw [initUpstreams_cons_of_some h um backends rest hget,
        UpstreamManager.unregisteredPrefix_cons_of_some um backends rest hget]
      simp [syncActive_append]

theorem initUpstreams_result_eq (hnd : (order.map Prod.fst).Nodup) :
    (initUpstreams h um order).2.2 =
      match order.drop (um.unregisteredPrefix order).length with
      | [] => .ok ()
      | (name, _) :: _ => .error ("failed to create upstream " ++ name ++ ": " ++
          ("upstream " ++ name ++ " already exists")) := by
  induction order generalizing h um with
  | nil => rfl
  | cons e rest ih =>
    obtain ⟨name, backends⟩ := e
    rw [List.map_cons, List.nodup_cons] at hnd
    cases hget : um.getUpstream name with
    | none =>
      obtain ⟨um', hc⟩ := UpstreamManager.createUpstream_of_none backends hget
      simp only [initUpstreams, hc]
      rw [ih hnd.2, UpstreamManager.unregisteredPrefix_of_createUpstream hc hnd.1,
        UpstreamManager.unregisteredPrefix_cons_of_none um backends rest hget,
        List.length_cons, List.drop_succ_cons]
    | some u =>
      rw [initUpstreams_cons_of_some h um backends rest hget,
        UpstreamManager.unregisteredPrefix_cons_of_some um backends rest hget]
      rfl

/-- A reload over an order with no name twice registers exactly the entries before the
first name already registered, syncs the backends of those entries and of that one, and
fails with that name's error; it succeeds when no name of the order was registered. -/
theorem initUpstreams_registers_prefix (hnd : (order.map Prod.fst).Nodup) :
    (∀ n, (initUpstreams h um order).2.1.getUpstream n =
      (um.getUpstream n).or (((um.unregisteredPrefix order).lookup n).map (Upstream.mk n))) ∧
    (initUpstreams h um order).1 =
      syncActive h ((order.take ((um.unregisteredPrefix order).length + 1)).flatMap Prod.snd) ∧
    (initUpstreams h um order).2.2 =
      match order.drop (um.unregisteredPrefix order).length with
      | [] => .ok ()
      | (name, _) :: _ => .error ("failed to create upstream " ++ name ++ ": " ++
          ("upstream " ++ name ++ " already exists")) :=
  ⟨getUpstream_initUpstreams hnd, initUpstreams_heap_eq hnd, initUpstreams_result_eq hnd⟩

theorem initUpstreams_registers_prefix_sample :
    let h : Heap := fun _ => Backend.sample "a" 100 0
    let um := UpstreamManager.newUpstreamManager
    let order : List (String × List Ptr) := [("default", [0]), ("api", [1])]
    (order.map Prod.fst).Nodup ∧
      (∀ n, (initUpstreams h um order).2.1.getUpstream n =
        (um.getUpstream n).or (((um.unregisteredPrefix order).lookup n).map (Upstream.mk n))) ∧
      (initUpstreams h um order).1 =
        syncActive h ((order.take ((um.unregisteredPrefix order).length + 1)).flatMap Prod.snd) ∧
      (initUpstreams h um order).2.2 =
        match order.drop (um.unregisteredPrefix order).length with
        | [] => .ok ()
        | (name, _) :: _ => .error ("failed to create upstream " ++ name ++ ": " ++
            ("upstream " ++ name ++ " already exists")) :=
  ⟨by decide, initUpstreams_registers_prefix (by decide)⟩

end Prefix

structure ServerSettings where
  readTimeout : Int
  writeTimeout : Int
  concurrency : Int
  deriving DecidableEq

/-- `Server.updateConfig(config)`: the server settings come from the notified `config`,
the upstreams from the manager's config that `initUpstreams` reads through
`GetConfig()`, whose backends map is visited in `order`. -/
def Server.updateConfig (h : Heap) (um : UpstreamManager) (config : Config Ptr)
    (order : List (String × List Ptr)) : ServerSettings × Heap × UpstreamManager :=
  let settings : ServerSettings :=
    ⟨config.server.readTimeout, config.server.writeTimeout, config.server.maxConn⟩
  let (h', um', _) := initUpstreams h um order
  (settings, h', um')

@[simp] theorem Server.updateConfig_heap (h : Heap) (um : UpstreamManager) (config : Config Ptr)
    (order : List (String × List Ptr)) :
    (Server.updateConfig h um config order).2.1 = (initUpstreams h um order).1 := rfl

@[simp] theorem Server.updateConfig_um (h : Heap) (um : UpstreamManager) (config : Config Ptr)
    (order : List (String × List Ptr)) :
    (Server.updateConfig h um config order).2.2 = (initUpstreams h um order).2.1 := rfl

/-- Applying a config never drops or rebuilds a registered upstream: `CreateUpstream`
rejects its name and the error is dropped. An upstream the reload registers under a new
name `n` holds exactly the current config's backend objects for `n`, each changed only by
syncing its atomic active flag to `Active`. -/
theorem updateConfig_registers (h : Heap) (um : UpstreamManager) (config current : Config Ptr)
    (order : List (String × List Ptr)) (horder : current.backends.IsOrder order) :
    (∀ n u, um.getUpstream n = some u →
      (Server.updateConfig h um config order).2.2.getUpstream n = some u) ∧
    (∀ n u, um.getUpstream n = none → (Server.updateConfig h um config order).2.2.getUpstream n = some u →
      u.name = n ∧ current.backends.get? n = some u.backends ∧
        ∀ p ∈ u.backends, (Server.updateConfig h um config order).2.1 p =
          { h p with activeFlag := (h p).active }) := by
  refine ⟨fun n u hu => initUpstreams_keeps hu, fun n u hn hu => ?_⟩
  obtain ⟨hname, hmem, hheap⟩ := initUpstreams_new hn hu
  refine ⟨hname, GoMap.get?_eq_some_iff.mpr (horder.mem_iff.mp hmem), fun p hp => ?_⟩
  simp only [Server.updateConfig, hheap p hp, Backend.setActive]

def sampleConfig (backends : GoMap String (List Ptr)) : Config Ptr :=
  { server := ⟨"0.0.0.0", 8080, 30000000000, 30000000000, 10000, "X-Real-IP", []⟩,
    ssl := ⟨false, "", ""⟩, backends, routing := GoMap.empty }

def sampleUpstreams : UpstreamManager :=
  match UpstreamManager.newUpstreamManager.createUpstream "default" [0] with
  | .ok um => um
  | .error _ => UpstreamManager.newUpstreamManager

/-- The config moves upstream `default` from the backend at `0` to the one at `1`; after
the reload `default` still holds the backend at `0`. -/
theorem updateConfig_keeps_stale_upstream :
    let c := sampleConfig ⟨[("default", [1])], by decide⟩
    let h : Heap := fun _ => Backend.sample "a" 100 0
    c.backends.IsOrder c.backends.entries ∧ c.backends.get? "default" = some [1] ∧
      sampleUpstreams.getUpstream "default" = some ⟨"default", [0]⟩ ∧
      (Server.updateConfig h sampleUpstreams c c.backends.entries).2.2.getUpstream "default" =
        some ⟨"default", [0]⟩ := by
  intro c h
  have hu : sampleUpstreams.getUpstream "default" = some ⟨"default", [0]⟩ := by decide
  exact ⟨GoMap.isOrder_entries _, rfl, hu,
    (updateConfig_registers h sampleUpstreams c c c.backends.entries (GoMap.isOrder_entries _)).1 _ _ hu⟩

end SpeedMimi
