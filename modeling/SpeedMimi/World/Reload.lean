import SpeedMimi.World.Frame

/-! # Config updates and the watcher

`Manager.UpdateConfig` validates, saves, installs the config and notifies each watcher
through its one-slot channel, dropping the notification when the slot is taken. The
proxy's watcher takes a config from the slot and applies it. While every successful
update finds the slot free after the watcher subscribed (`lost` is unset), the watcher,
once it waits on an empty channel, has applied the manager's current config. An update
made while the slot is full, or before the watcher subscribed, is never delivered.

Every config the manager holds passed `validateConfig`: ports, hosts, non-empty upstreams
and routing targets. Backend IDs are not checked.
-/

namespace SpeedMimi

open Proxy LoadBalancer World Manager

variable {sortSlice : List (Ptr × ℚ) → List (Ptr × ℚ)} {w w' : World} {a : Action}

namespace World

/-- What the watcher has seen, while no update has been lost: a pending notification
carries the current config, and with none pending, the config the watcher took, or last
applied, is the current one. -/
def Synced (w : World) : Prop :=
  w.lost = false →
    match w.loop with
    | .starting => w.applied = w.mgr.config
    | .waiting ch => w.mgr.watchers[ch]? = some (some w.mgr.config) ∨
        w.mgr.watchers[ch]? = some none ∧ w.applied = w.mgr.config
    | .received ch c => w.mgr.watchers[ch]? = some (some w.mgr.config) ∨
        w.mgr.watchers[ch]? = some none ∧ c = w.mgr.config

theorem delivers_eq_true (h : w.delivers = true) :
    ∃ ch, w.mgr.watchers[ch]? = some none ∧ (w.loop = .waiting ch ∨ ∃ c, w.loop = .received ch c) := by
  unfold delivers at h
  split at h
  · cases h
  · exact ⟨_, of_decide_eq_true h, .inl ‹_›⟩
  · exact ⟨_, of_decide_eq_true h, .inr ⟨_, ‹_›⟩⟩

theorem Synced.step (hs : w.Synced) (h : w.step sortSlice a = some w') : w'.Synced := by
  intro hlost
  cases a with
  | arrive req => obtain ⟨-, rfl⟩ := step_arrive_eq_some h; exact hs hlost
  | request i st =>
    obtain ⟨ph, ph', h', -, -, rfl⟩ := step_request_eq_some h
    exact hs hlost
  | disconnect upstreamID backendID =>
    rcases step_disconnect_eq_some h with rfl | ⟨h', -, rfl⟩ <;> exact hs hlost
  | updateBackend method body => cases h; exact hs hlost
  | updateConfig doc backendsOrder routingOrder write =>
    rcases step_updateConfig_eq_some h with rfl | ⟨d, -, hu⟩
    · exact hs hlost
    obtain ⟨-, -, rfl⟩ := updateConfig_eq_some hu
    simp only [Bool.or_eq_false_iff] at hlost
    obtain ⟨hlost₀, hnew⟩ := hlost
    have hold := hs hlost₀
    rcases Manager.updateConfig_cases w.mgr (place w.heap w.next d).heap (place w.heap w.next d).config
      backendsOrder routingOrder write with ⟨hok, -, hm⟩ | ⟨-, hconfig, hwatchers⟩
    · have hdeliv : w.delivers = true := by
        rw [hok] at hnew
        simpa [Except.toBool] using hnew
      obtain ⟨ch, hslot, hloop⟩ := delivers_eq_true hdeliv
      have hnotify : (notifyWatchers w.mgr.watchers (place w.heap w.next d).config)[ch]? =
          some (some (place w.heap w.next d).config) := by
        rw [Manager.getElem?_notifyWatchers, hslot]
        rfl
      dsimp only
      rw [hm]
      rcases hloop with hloop | ⟨c, hloop⟩ <;> rw [hloop] <;> exact .inl hnotify
    · dsimp only
      rw [hconfig, hwatchers]
      exact hold
  | subscribe =>
    obtain ⟨hloop, rfl⟩ := step_subscribe_eq_some h
    have hold := hs hlost
    rw [hloop] at hold
    refine .inr ⟨?_, hold⟩
    simp [Manager.watchConfig]
  | receive =>
    obtain ⟨ch, c, hloop, hslot, rfl⟩ := step_receive_eq_some h
    have hold := hs hlost
    rw [hloop] at hold
    dsimp only
    rcases hold with hold | ⟨hold, -⟩ <;> rw [hslot] at hold <;> cases hold
    exact .inr ⟨List.getElem?_set_self (List.getElem?_eq_some_iff.mp hslot).1, rfl⟩
  | apply order =>
    obtain ⟨ch, c, hloop, -, rfl⟩ := step_apply_eq_some h
    have hold := hs hlost
    rw [hloop] at hold
    exact hold

theorem Synced.boot {doc : Config Backend} {backendsOrder : List (String × List Ptr)}
    {routingOrder : List (String × RoutingRule)} {order : List (String × List Ptr)}
    (h : World.boot doc backendsOrder routingOrder order = some w) : w.Synced := by
  unfold World.boot at h
  dsimp only at h
  split at h
  · cases h
  split_ifs at h
  cases h
  exact fun _ => rfl

end World

theorem Reachable.synced (hr : Reachable sortSlice w) : w.Synced := by
  induction hr with
  | boot hb => exact Synced.boot hb
  | step _ hs ih => exact ih.step hs

/-- While every successful `UpdateConfig` has found the watcher subscribed and its channel
empty, whenever the watcher waits on an empty channel, the config it applied last is the
manager's current one. -/
theorem applied_eq_getConfig (hr : Reachable sortSlice w) (hlost : w.lost = false) {ch : Nat}
    (hloop : w.loop = .waiting ch) (hslot : w.mgr.watchers[ch]? = some none) :
    w.applied = w.mgr.getConfig := by
  have hsync := hr.synced hlost
  rw [hloop] at hsync
  rcases hsync with h | ⟨-, h⟩
  · rw [hslot] at h
    cases h
  · exact h

theorem applied_eq_getConfig_sample :
    let sortSlice := (mergeSortEnv 0).sortSlice
    let w := (bootRun sortSlice (fun _ => true) sampleDoc sampleOrder sampleRouting sampleOrder
      [.subscribe]).getD default
    Reachable sortSlice w ∧ w.lost = false ∧ w.loop = .waiting 0 ∧
      w.mgr.watchers[0]? = some none ∧ w.applied = w.mgr.getConfig := by
  intro sortSlice w
  have hr : Reachable sortSlice w := (ReachableWithin.of_bootRun (by decide)).reachable
  have hlost : w.lost = false := by decide
  have hloop : w.loop = .waiting 0 := by decide
  have hslot : w.mgr.watchers[0]? = some none := by decide
  exact ⟨hr, hlost, hloop, hslot, applied_eq_getConfig hr hlost hloop hslot⟩

def readTimeoutDoc (t : Int) : Config Backend :=
  { sampleDoc with server := { sampleDoc.server with readTimeout := t } }

/-- Two quick updates, to read timeouts of 10s and then 20s: the first fills the watcher's
slot, the second finds it taken and is dropped. The watcher applies the first and waits on
an empty channel, serving with a 10s read timeout while the manager holds 20s. -/
theorem watcher_misses_second_update :
    let sortSlice := (mergeSortEnv 0).sortSlice
    let w := (bootRun sortSlice (fun _ => true) sampleDoc sampleOrder sampleRouting sampleOrder
      [.subscribe, .updateConfig (some (readTimeoutDoc 10000000000)) [("default", [1])] sampleRouting .ok,
       .updateConfig (some (readTimeoutDoc 20000000000)) [("default", [2])] sampleRouting .ok, .receive,
       .apply [("default", [2])]]).getD default
    Reachable sortSlice w ∧ w.loop = .waiting 0 ∧ w.mgr.watchers[0]? = some none ∧
      w.applied ≠ w.mgr.getConfig ∧ w.settings.readTimeout = 10000000000 ∧
      w.mgr.getConfig.server.readTimeout = 20000000000 := by
  intro sortSlice w
  exact ⟨(ReachableWithin.of_bootRun (by decide)).reachable, by decide, by decide, by decide,
    by decide, by decide⟩

theorem configValid_of_evolves {h h' : Heap} {config : Config Ptr} {n : Ptr}
    (hv : ConfigValid h config) (hb : config.Below n) (hev : ∀ p < n, (h p).Evolves (h' p)) :
    ConfigValid h' config :=
  ⟨hv.port, hv.ssl, fun e he => ⟨(hv.backends e he).1, fun p hp => by
    rw [(hev p (hb e he p hp)).host, (hev p (hb e he p hp)).port]
    exact (hv.backends e he).2 p hp⟩, hv.routing⟩

theorem World.configValid_step (hv : ConfigValid w.heap w.mgr.config) (hb : w.mgr.config.Below w.next)
    (h : w.step sortSlice a = some w') : ConfigValid w'.heap w'.mgr.config ∧ w'.mgr.config.Below w'.next := by
  have hev : ∀ p < w.next, (w.heap p).Evolves (w'.heap p) := fun p hp => step_evolves h hp
  have hnext := next_le_step h
  suffices hconfig : w'.mgr.config = w.mgr.config ∨
      ConfigValid w'.heap w'.mgr.config ∧ w'.mgr.config.Below w'.next by
    rcases hconfig with hc | hc
    · rw [hc]
      exact ⟨configValid_of_evolves hv hb hev, hb.mono hnext⟩
    · exact hc
  rcases step_frame h with ⟨-, -, hc⟩ | ⟨doc, backendsOrder, routingOrder, write, rfl⟩ |
    ⟨order, rfl⟩
  · exact .inl hc
  · rcases step_updateConfig_eq_some h with rfl | ⟨d, -, hu⟩
    · exact .inl rfl
    obtain ⟨hbo, hro, rfl⟩ := updateConfig_eq_some hu
    rcases Manager.updateConfig_cases w.mgr (place w.heap w.next d).heap (place w.heap w.next d).config
      backendsOrder routingOrder write with ⟨-, hvalid, hm⟩ | ⟨-, hc, -⟩
    · refine .inr ?_
      dsimp only
      rw [hm]
      exact ⟨(validateConfig_eq_ok hbo hro).mp hvalid, place_config_below d⟩
    · exact .inl hc
  · obtain ⟨-, -, -, -, rfl⟩ := step_apply_eq_some h
    exact .inl rfl

/-- Every config the manager holds, from `NewManager` on through any interleaving of
updates, requests, control calls and reloads, passed `validateConfig`: a valid server port,
SSL files when SSL is on, at least one backend per upstream, each with a host and a valid
port, and routing rules naming existing upstreams. -/
theorem reachable_config_valid (hr : Reachable sortSlice w) : ConfigValid w.heap w.mgr.config := by
  suffices h : ConfigValid w.heap w.mgr.config ∧ w.mgr.config.Below w.next from h.1
  induction hr with
  | @boot doc backendsOrder routingOrder order w hboot =>
    have hb := World.Bounded.boot hboot
    unfold World.boot at hboot
    dsimp only at hboot
    split at hboot
    · cases hboot
    rename_i h₁ m hload
    split_ifs at hboot with horder
    cases hboot
    obtain ⟨-, -, -, hvalid⟩ := Manager.loadConfig_eq_ok hload
    exact ⟨configValid_of_evolves ((validateConfig_eq_ok horder.1 horder.2.1).mp hvalid) hb.config
      fun p _ => initUpstreams_evolves _ _ _ p, hb.config⟩
  | step _ hs ih => exact World.configValid_step ih.1 ih.2 hs

theorem reachable_config_valid_sample :
    let sortSlice := (mergeSortEnv 0).sortSlice
    let w := (bootRun sortSlice (fun _ => true) sampleDoc sampleOrder sampleRouting sampleOrder
      []).getD default
    Reachable sortSlice w ∧ ConfigValid w.heap w.mgr.config := by
  intro sortSlice w
  have hr : Reachable sortSlice w := (ReachableWithin.of_bootRun (by decide)).reachable
  exact ⟨hr, reachable_config_valid hr⟩

def unnamedPairDoc : Config Backend :=
  { sampleDoc with
    backends := ⟨[("default", [Backend.sample "" 100 0, Backend.sample "" 100 0])], by decide⟩ }

/-- `UpdateConfig` accepts two backends with the empty ID in one upstream. -/
theorem reachable_config_repeats_backend_id :
    let sortSlice := (mergeSortEnv 0).sortSlice
    let w := (bootRun sortSlice (fun _ => true) sampleDoc sampleOrder sampleRouting sampleOrder
      [.updateConfig (some unnamedPairDoc) [("default", [1, 2])] sampleRouting .ok]).getD default
    Reachable sortSlice w ∧
      (w.mgr.config.backends.get? "default").map (fun ps => ps.map fun p => (w.heap p).id) =
        some ["", ""] := by
  intro sortSlice w
  exact ⟨(ReachableWithin.of_bootRun (by decide)).reachable, by decide⟩

end SpeedMimi
