import SpeedMimi.World.Frame

/-! # What a restart reads back

`UpdateConfig` validates the config it is given and writes it with `saveConfig` as it
is; `setDefaults` runs only in `loadConfig`. A restart decodes the written file, places
its backends as new objects, and runs `setDefaults` and `validateConfig` on it. This
module computes what that yields, over the document the file holds: the write and the
read are taken to be lossless on every serialised field, and `saveDocument` is that
field-by-field image of a config.

The restart always succeeds, and the manager it builds saves back to the written
document with the defaults of `setDefaults` applied (`docDefaults`). A config whose
defaulted fields are all set, as one `loadConfig` produced, comes back unchanged; one
with a zero `MaxConn`, `Weight` or timeout, or an empty `ID`, `Scheme`, `Path` or load
balancer, does not.
-/

namespace SpeedMimi

open Manager

/-- The serialised part of a backend: `yaml:"-"` drops `Connections` and `Performance`,
and the unexported atomics are not written. -/
def Backend.stored (b : Backend) : Backend :=
  { b with connections := 0, performance := none, activeFlag := false, disconnect := false }

namespace Backend

@[simp] theorem stored_stored (b : Backend) : b.stored.stored = b.stored := rfl

@[simp] theorem stored_decodeBackend (b : Backend) : (decodeBackend b).stored = b.stored := rfl

theorem stored_backendDefaults (upstream : String) (b : Backend) :
    (backendDefaults upstream b).stored = backendDefaults upstream b.stored := rfl

end Backend

theorem saveDocument_eq (h : Heap) (config : Config Ptr) :
    saveDocument h config =
      { config with backends := config.backends.map fun _ ps => ps.map fun p => (h p).stored } :=
  rfl

/-- What `setDefaults` does to the document a config saves to: the server and routing
defaults, and the backend defaults of each upstream. -/
def docDefaults (doc : Config Backend) : Config Backend :=
  { doc with
    server := serverDefaults doc.server
    backends := doc.backends.map fun upstream bs => bs.map (backendDefaults upstream)
    routing := doc.routing.map fun _ rule => ruleDefaults rule }

theorem append_dash_ne_empty (a b : String) : a ++ "-" ++ b ≠ "" := fun h => by
  have := congrArg String.length h
  have hdash : "-".length = 1 := rfl
  simp only [String.length_append, hdash, String.length_empty] at this
  omega

theorem ite_default_ite_default {α : Type} [DecidableEq α] {zero d : α} (hd : d ≠ zero) (x : α) :
    (if (if x = zero then d else x) = zero then d else if x = zero then d else x) =
      if x = zero then d else x := by
  by_cases hx : x = zero <;> simp [hx, hd]

theorem serverDefaults_serverDefaults (server : ServerConfig) :
    serverDefaults (serverDefaults server) = serverDefaults server := by
  simp (disch := decide) only [serverDefaults, ite_default_ite_default]

theorem healthCheckDefaults_healthCheckDefaults (hc : HealthCheck) :
    healthCheckDefaults (healthCheckDefaults hc) = healthCheckDefaults hc := by
  simp (disch := decide) only [healthCheckDefaults, ite_default_ite_default]

theorem backendDefaults_backendDefaults (upstream : String) (b : Backend) :
    backendDefaults upstream (backendDefaults upstream b) = backendDefaults upstream b := by
  simp (disch := first | decide | exact append_dash_ne_empty _ _) only [backendDefaults,
    ite_default_ite_default, Option.map_map, Function.comp_def,
    healthCheckDefaults_healthCheckDefaults]

theorem ruleDefaults_ruleDefaults (rule : RoutingRule) :
    ruleDefaults (ruleDefaults rule) = ruleDefaults rule := by
  simp (disch := decide) only [ruleDefaults, ite_default_ite_default]

theorem docDefaults_docDefaults (doc : Config Backend) :
    docDefaults (docDefaults doc) = docDefaults doc := by
  simp only [docDefaults, GoMap.map_map, List.map_map, Function.comp_def,
    serverDefaults_serverDefaults, backendDefaults_backendDefaults, ruleDefaults_ruleDefaults]

section Fold

variable {f : Backend → Backend} {p : Ptr}

theorem foldl_modify_of_not_mem {ps : List Ptr} (hp : p ∉ ps) (h : Heap) :
    ps.foldl (fun h q => h.modify q f) h p = h p := by
  induction ps generalizing h with
  | nil => rfl
  | cons q qs ih =>
    rw [List.mem_cons, not_or] at hp
    rw [List.foldl_cons, ih hp.2, Heap.modify_ne _ _ hp.1]

theorem foldl_modify_of_mem {ps : List Ptr} (hnd : ps.Nodup) (hp : p ∈ ps) (h : Heap) :
    ps.foldl (fun h q => h.modify q f) h p = f (h p) := by
  induction ps generalizing h with
  | nil => cases hp
  | cons q qs ih =>
    rw [List.nodup_cons] at hnd
    rw [List.foldl_cons]
    rcases List.mem_cons.mp hp with rfl | hp
    · rw [foldl_modify_of_not_mem hnd.1, Heap.modify_self]
    · rw [ih hnd.2 hp, Heap.modify_ne _ _ (ne_of_mem_of_not_mem hp hnd.1)]

theorem foldl_entries_of_not_mem (g : String → Backend → Backend) {es : List (String × List Ptr)}
    (hp : p ∉ es.flatMap Prod.snd) (h : Heap) :
    es.foldl (fun h e => e.2.foldl (fun h q => h.modify q (g e.1)) h) h p = h p := by
  induction es generalizing h with
  | nil => rfl
  | cons e rest ih =>
    rw [List.flatMap_cons, List.mem_append, not_or] at hp
    rw [List.foldl_cons, ih hp.2, foldl_modify_of_not_mem hp.1]

theorem foldl_entries_of_mem (g : String → Backend → Backend) {es : List (String × List Ptr)}
    (hnd : (es.flatMap Prod.snd).Nodup) {e : String × List Ptr} (he : e ∈ es) (hp : p ∈ e.2)
    (h : Heap) :
    es.foldl (fun h e => e.2.foldl (fun h q => h.modify q (g e.1)) h) h p = g e.1 (h p) := by
  induction es generalizing h with
  | nil => cases he
  | cons e' rest ih =>
    rw [List.flatMap_cons, List.nodup_append] at hnd
    rw [List.foldl_cons]
    rcases List.mem_cons.mp he with rfl | he
    · have hrest : p ∉ rest.flatMap Prod.snd := fun hq => hnd.2.2 hp hq
      rw [foldl_entries_of_not_mem g hrest, foldl_modify_of_mem hnd.1 hp]
    · have hne : p ∉ e'.2 := fun hq => hnd.2.2 hq (List.mem_flatMap.mpr ⟨e, he, hp⟩)
      rw [ih hnd.2.1 he, foldl_modify_of_not_mem hne]

end Fold

theorem setDefaults_heap_of_mem (h : Heap) (config : Config Ptr)
    (hnd : (config.backends.entries.flatMap Prod.snd).Nodup) {e : String × List Ptr}
    (he : e ∈ config.backends.entries) {p : Ptr} (hp : p ∈ e.2) :
    (setDefaults h config).1 p = backendDefaults e.1 (h p) :=
  foldl_entries_of_mem backendDefaults hnd he hp h

theorem setDefaults_config (h : Heap) (config : Config Ptr) :
    (setDefaults h config).2 =
      { config with
        server := serverDefaults config.server
        routing := config.routing.map fun _ rule => ruleDefaults rule } :=
  rfl

theorem saveDocument_setDefaults (h : Heap) (config : Config Ptr)
    (hnd : (config.backends.entries.flatMap Prod.snd).Nodup) :
    saveDocument (setDefaults h config).1 (setDefaults h config).2 =
      docDefaults (saveDocument h config) := by
  have hb : config.backends.map (fun _ ps => ps.map fun p => ((setDefaults h config).1 p).stored) =
      config.backends.map fun upstream ps => ps.map fun p => backendDefaults upstream (h p).stored :=
    GoMap.map_congr fun e he => List.map_congr_left fun p hp => by
      rw [setDefaults_heap_of_mem h config hnd he hp, Backend.stored_backendDefaults]
  rw [saveDocument_eq, saveDocument_eq, setDefaults_config]
  simp only [hb, docDefaults, GoMap.map_map, List.map_map, Function.comp_def]

section Place

variable {h : Heap} {next : Ptr}

theorem placeList_ptrs (bs : List Backend) :
    (placeList h next bs).2 = List.range' next bs.length := by
  induction bs generalizing h next with
  | nil => rfl
  | cons b bs ih => simp only [placeList, ih, List.length_cons, List.range'_succ]

theorem placeList_read (bs : List Backend) :
    (placeList h next bs).2.map (placeList h next bs).1 = bs.map decodeBackend := by
  induction bs generalizing h next with
  | nil => rfl
  | cons b bs ih =>
    simp only [placeList, List.map_cons, ih, placeList_apply_of_lt (Nat.lt_succ_self next),
      Function.update_same]

theorem placeEntries_ptrs (es : List (String × List Backend)) :
    (placeEntries h next es).2.1.flatMap Prod.snd =
      List.range' next (es.flatMap Prod.snd).length := by
  induction es generalizing h next with
  | nil => rfl
  | cons e rest ih =>
    simp only [placeEntries, List.flatMap_cons, ih, placeList_ptrs, List.length_append,
      List.range'_append_1, Nat.add_comm]

theorem placeEntries_read (es : List (String × List Backend)) :
    (placeEntries h next es).2.1.map (fun e => (e.1, e.2.map (placeEntries h next es).1)) =
      es.map fun e => (e.1, e.2.map decodeBackend) := by
  induction es generalizing h next with
  | nil => rfl
  | cons e rest ih =>
    have hhead : (placeList h next e.2).2.map (placeEntries (placeList h next e.2).1
        (next + e.2.length) rest).1 = e.2.map decodeBackend := by
      rw [← placeList_read]
      exact List.map_congr_left fun p hp => placeEntries_apply_of_lt (mem_placeList hp).2 rest
    simp only [placeEntries, List.map_cons, ih, hhead]

end Place

theorem saveDocument_place (h : Heap) (next : Ptr) (doc : Config Backend) :
    saveDocument (place h next doc).heap (place h next doc).config =
      { doc with backends := doc.backends.map fun _ bs => bs.map Backend.stored } := by
  have hread := congrArg (List.map fun e => (e.1, e.2.map Backend.stored))
    (@placeEntries_read h next doc.backends.entries)
  simp only [List.map_map, Function.comp_def, Backend.stored_decodeBackend] at hread
  have hb : (place h next doc).config.backends.map
      (fun _ ps => ps.map fun p => ((place h next doc).heap p).stored) =
      doc.backends.map fun _ bs => bs.map Backend.stored :=
    GoMap.ext hread
  rw [saveDocument_eq, hb]
  rfl

theorem place_nodup (h : Heap) (next : Ptr) (doc : Config Backend) :
    ((place h next doc).config.backends.entries.flatMap Prod.snd).Nodup := by
  show ((placeEntries h next doc.backends.entries).2.1.flatMap Prod.snd).Nodup
  rw [placeEntries_ptrs]
  exact List.nodup_range' _ _

theorem saveDocument_place_saveDocument (h' : Heap) (next : Ptr) (h : Heap) (config : Config Ptr) :
    saveDocument (place h' next (saveDocument h config)).heap
      (place h' next (saveDocument h config)).config = saveDocument h config := by
  rw [saveDocument_place, saveDocument_eq]
  simp only [GoMap.map_map, List.map_map, Function.comp_def, Backend.stored_stored]

structure DocValid (doc : Config Backend) : Prop where
  port : 0 < doc.server.port ∧ doc.server.port ≤ 65535
  ssl : doc.ssl.enabled = true → doc.ssl.certFile ≠ "" ∧ doc.ssl.keyFile ≠ ""
  backends : ∀ e ∈ doc.backends.entries, e.2 ≠ [] ∧
    ∀ b ∈ e.2, b.host ≠ "" ∧ 0 < b.port ∧ b.port ≤ 65535
  routing : ∀ e ∈ doc.routing.entries,
    e.2.upstream ≠ "" ∧ (doc.backends.get? e.2.upstream).isSome

theorem configValid_iff (h : Heap) (config : Config Ptr) :
    ConfigValid h config ↔ DocValid (saveDocument h config) := by
  have hb : (∀ e ∈ (saveDocument h config).backends.entries, e.2 ≠ [] ∧
        ∀ b ∈ e.2, b.host ≠ "" ∧ 0 < b.port ∧ b.port ≤ 65535) ↔
      ∀ e ∈ config.backends.entries, e.2 ≠ [] ∧
        ∀ p ∈ e.2, (h p).host ≠ "" ∧ 0 < (h p).port ∧ (h p).port ≤ 65535 := by
    simp only [saveDocument_eq, GoMap.map_entries, List.forall_mem_map, ne_eq,
      List.map_eq_nil_iff]
    rfl
  have hr : ∀ u, ((saveDocument h config).backends.get? u).isSome =
      (config.backends.get? u).isSome := fun u => by
    simp [saveDocument_eq, GoMap.get?_map]
  exact ⟨fun ⟨hport, hssl, hbs, hrs⟩ => ⟨hport, hssl, hb.mpr hbs, by simpa only [hr] using hrs⟩,
    fun ⟨hport, hssl, hbs, hrs⟩ => ⟨hport, hssl, hb.mp hbs, by simpa only [hr] using hrs⟩⟩

theorem docValid_docDefaults {doc : Config Backend} (hv : DocValid doc) :
    DocValid (docDefaults doc) := by
  obtain ⟨hport, hssl, hb, hr⟩ := hv
  refine ⟨hport, hssl, ?_, ?_⟩
  · simp only [docDefaults, GoMap.map_entries, List.forall_mem_map, ne_eq, List.map_eq_nil_iff]
    exact hb
  · simp only [docDefaults, GoMap.map_entries, List.forall_mem_map, GoMap.get?_map,
      Option.isSome_map']
    exact hr

/-- What a restart after an accepted update reads back. The update wrote the document of
the config as it was given; `loadConfig` decodes that file into new objects, accepts it in
every visiting order of its maps, and holds a config that saves to the written document
with the defaults of `setDefaults` applied, not to the written document itself. Applying
the defaults twice is applying them once, so the restart reproduces a config that
`loadConfig` produced. -/
theorem restart_applies_defaults (m : Manager) (h : Heap) (config : Config Ptr)
    (backendsOrder : List (String × List Ptr)) (routingOrder : List (String × RoutingRule))
    (write : WriteResult) (hbo : config.backends.IsOrder backendsOrder)
    (hro : config.routing.IsOrder routingOrder)
    (hok : (m.updateConfig h config backendsOrder routingOrder write).2 = .ok ()) :
    let file := saveDocument h config
    let placed := place (fun _ => Backend.zero) 0 file
    (m.updateConfig h config backendsOrder routingOrder write).1.file = some file ∧
      (∀ backendsOrder' routingOrder', placed.config.backends.IsOrder backendsOrder' →
        (setDefaults placed.heap placed.config).2.routing.IsOrder routingOrder' →
        ∃ h' m', loadConfig placed.heap placed.config file backendsOrder' routingOrder' =
            .ok (h', m') ∧ saveDocument h' m'.config = docDefaults file) ∧
      docDefaults (docDefaults file) = docDefaults file := by
  intro file placed
  obtain ⟨-, hv, hupd⟩ | ⟨hne, -⟩ := updateConfig_cases m h config backendsOrder routingOrder write
  · refine ⟨by rw [hupd], fun backendsOrder' routingOrder' hbo' hro' => ?_,
      docDefaults_docDefaults file⟩
    have hvalid : DocValid file :=
      (configValid_iff h config).mp ((validateConfig_eq_ok hbo hro).mp hv)
    have hsave : saveDocument (setDefaults placed.heap placed.config).1
        (setDefaults placed.heap placed.config).2 = docDefaults file := by
      rw [saveDocument_setDefaults _ _ (place_nodup _ _ _), saveDocument_place_saveDocument]
    have hload : validateConfig (setDefaults placed.heap placed.config).1
        (setDefaults placed.heap placed.config).2 backendsOrder' routingOrder' = .ok () :=
      (@validateConfig_eq_ok _ (setDefaults placed.heap placed.config).2 _ _ hbo' hro').mpr
        ((configValid_iff _ _).mpr (by rw [hsave]; exact docValid_docDefaults hvalid))
    exact ⟨_, ⟨(setDefaults placed.heap placed.config).2, some file, []⟩,
      by simp only [loadConfig, hload], hsave⟩
  · exact absurd hok hne

theorem restart_applies_defaults_sample :
    let placed := place (fun _ => Backend.zero) 0 sampleDoc
    let m : Manager := ⟨placed.config, some sampleDoc, []⟩
    let file := saveDocument placed.heap placed.config
    let restarted := place (fun _ => Backend.zero) 0 file
    placed.config.backends.IsOrder sampleOrder ∧ placed.config.routing.IsOrder sampleRouting ∧
      (m.updateConfig placed.heap placed.config sampleOrder sampleRouting .ok).2 = .ok () ∧
      ((m.updateConfig placed.heap placed.config sampleOrder sampleRouting .ok).1.file = some file ∧
        (∀ backendsOrder' routingOrder', restarted.config.backends.IsOrder backendsOrder' →
          (setDefaults restarted.heap restarted.config).2.routing.IsOrder routingOrder' →
          ∃ h' m', loadConfig restarted.heap restarted.config file backendsOrder' routingOrder' =
              .ok (h', m') ∧ saveDocument h' m'.config = docDefaults file) ∧
        docDefaults (docDefaults file) = docDefaults file) := by
  intro placed m file restarted
  have hbo : placed.config.backends.IsOrder sampleOrder := by decide
  have hro : placed.config.routing.IsOrder sampleRouting := by decide
  have hok : (m.updateConfig placed.heap placed.config sampleOrder sampleRouting .ok).2 = .ok () :=
    rfl
  exact ⟨hbo, hro, hok,
    restart_applies_defaults m placed.heap placed.config sampleOrder sampleRouting .ok hbo hro hok⟩

/-- `sampleDoc`'s backend has `MaxConn` 0: no limit. An update that installs it is accepted
and written as it is; the restart reads the file back with the backend capped at 1000
connections, so the restarted config is not the one that was live. -/
theorem restart_caps_unlimited_backend :
    let placed := place (fun _ => Backend.zero) 0 sampleDoc
    let m : Manager := ⟨placed.config, some sampleDoc, []⟩
    let r := m.updateConfig placed.heap placed.config sampleOrder sampleRouting .ok
    let file := saveDocument placed.heap placed.config
    let restarted := place (fun _ => Backend.zero) 0 file
    r.2 = .ok () ∧ r.1.file = some file ∧ (placed.heap 0).maxConn = 0 ∧
      (loadConfig restarted.heap restarted.config file sampleOrder sampleRouting).toOption.map
          (fun r => ((r.1 0).maxConn, r.2.config.backends.get? "default",
            decide (saveDocument r.1 r.2.config = file))) =
        some (1000, some [0], false) := by
  intro placed m r file restarted
  exact ⟨rfl, rfl, rfl, by decide⟩

end SpeedMimi
