import SpeedMimi.World.Progress

/-! # The registry over runs

What the running system writes into a backend object once it is allocated, and what
follows for the upstreams the registry holds. Five writes exist: the request counter,
the disconnect mark, `MaxConn` from `handleUpdateBackend`, and the sync of the atomic
active flag with `Active` that a reload makes; an update's decoded document only writes
fresh addresses. No step writes `Active`, `Weight`, the address or `Performance` of an
allocated object, and every object is synced before `CreateUpstream` registers it, so the
two checks of `GetBackends` agree on a registered upstream and its list of backends is
the same in every later state.

A request only ever points to an object of a registered upstream, so an object no upstream
holds is never dispatched to and its counter never moves: the objects an update decodes
for a name that is already registered are never used.

A reload registers the upstreams of the current config up to the first name already
registered. Once an update has kept a registered name, whether the reload registers the
new names depends on the order in which the range visits the map.
-/

namespace SpeedMimi

open Proxy LoadBalancer World

/-- The writes the running system makes to an object it has allocated. -/
inductive Backend.Write : Backend → Backend → Prop
  | keep (b : Backend) : Backend.Write b b
  | connections (b : Backend) (c : Int) : Backend.Write b { b with connections := c }
  | mark (b : Backend) : Backend.Write b b.markForDisconnect
  | maxConn (b : Backend) (m : Int) : Backend.Write b (setMaxConn m b)
  | sync (b : Backend) : Backend.Write b (b.setActive b.active)

/-- What no step changes in an allocated object: everything the document sets except
`MaxConn`, and the atomic flag up to a sync with `Active`. -/
structure Backend.Settled (b b' : Backend) : Prop where
  id : b'.id = b.id
  name : b'.name = b.name
  host : b'.host = b.host
  port : b'.port = b.port
  weight : b'.weight = b.weight
  scheme : b'.scheme = b.scheme
  active : b'.active = b.active
  healthCheck : b'.healthCheck = b.healthCheck
  performance : b'.performance = b.performance
  flag : b'.activeFlag = b.activeFlag ∨ b'.activeFlag = b.active

namespace Backend

theorem Write.modify {h : Heap} {q : Ptr} {f : Backend → Backend} (hf : ∀ b, Write b (f b))
    (p : Ptr) : Write (h p) (h.modify q f p) := by
  rw [Heap.modify_apply]
  split_ifs
  · exact hf _
  · exact .keep _

theorem Write.settled {b b' : Backend} (hw : Write b b') : b.Settled b' := by
  cases hw <;> exact ⟨rfl, rfl, rfl, rfl, rfl, rfl, rfl, rfl, rfl, by first | exact .inl rfl | exact .inr rfl⟩

theorem Write.synced {b b' : Backend} (hw : Write b b') (hb : b.activeFlag = b.active) :
    b'.activeFlag = b'.active := by
  cases hw <;> first | exact hb | rfl

theorem Settled.refl (b : Backend) : b.Settled b :=
  ⟨rfl, rfl, rfl, rfl, rfl, rfl, rfl, rfl, rfl, .inl rfl⟩

theorem Settled.trans {b b' b'' : Backend} (h : b.Settled b') (h' : b'.Settled b'') :
    b.Settled b'' := by
  refine ⟨h'.id.trans h.id, h'.name.trans h.name, h'.host.trans h.host, h'.port.trans h.port,
    h'.weight.trans h.weight, h'.scheme.trans h.scheme, h'.active.trans h.active,
    h'.healthCheck.trans h.healthCheck, h'.performance.trans h.performance, ?_⟩
  rcases h'.flag with hf | hf <;> rw [hf]
  · exact h.flag
  · exact .inr h.active

end Backend

namespace World

variable {sortSlice : List (Ptr × ℚ) → List (Ptr × ℚ)} {w w' : World} {a : Action}

theorem requestStep_write {ph ph' : Phase} {st : ReqStep} {h' : Heap}
    (h : w.requestStep sortSlice ph st = some (ph', h')) (p : Ptr) :
    Backend.Write (w.heap p) (h' p) := by
  rcases requestStep_eq_some h with ⟨-, -, -, -, -, -, rfl⟩ | ⟨q, -, -, rfl⟩ | ⟨-, -, -, rfl⟩ |
    ⟨-, -, rfl, -⟩ | ⟨q, v, -, ⟨-, -, rfl⟩ | ⟨-, -, rfl⟩⟩
  · exact .keep _
  · exact Backend.Write.modify (fun b => .connections b _) p
  · exact .keep _
  · exact .keep _
  · exact Backend.Write.modify (fun b => .connections b _) p
  · exact .keep _

theorem step_write (h : w.step sortSlice a = some w') {p : Ptr} (hp : p < w.next) :
    Backend.Write (w.heap p) (w'.heap p) := by
  cases a with
  | request i st =>
    obtain ⟨ph, ph', h', -, hr, rfl⟩ := step_request_eq_some h
    exact requestStep_write hr p
  | disconnect upstreamID backendID =>
    rcases step_disconnect_eq_some h with rfl | ⟨h', hok, rfl⟩
    · exact .keep _
    obtain ⟨-, q, -, -, -, rfl⟩ := disconnectBackend_eq_ok hok
    exact Backend.Write.modify .mark p
  | updateBackend method body =>
    cases h
    rcases handleUpdateBackend_heap w.heap w.um method body with hh | ⟨-, -, q, m, -, -, hh⟩ <;>
      simp only [hh]
    · exact .keep _
    · exact Backend.Write.modify (fun b => .maxConn b m) p
  | updateConfig doc backendsOrder routingOrder write =>
    rcases step_updateConfig_eq_some h with rfl | ⟨d, -, hu⟩
    · exact .keep _
    obtain ⟨-, -, rfl⟩ := updateConfig_eq_some hu
    dsimp only
    rw [place_heap_of_lt hp]
    exact .keep _
  | apply order =>
    obtain ⟨ch, c, -, -, rfl⟩ := step_apply_eq_some h
    rcases @initUpstreams_heap w.heap w.um order p with hq | hq <;> simp only [Server.updateConfig_heap, hq]
    · exact .keep _
    · exact .sync _
  | arrive req => obtain ⟨-, rfl⟩ := step_arrive_eq_some h; exact .keep _
  | subscribe =>
    obtain ⟨-, rfl⟩ := step_subscribe_eq_some h
    exact .keep _
  | receive =>
    obtain ⟨ch, c, -, -, rfl⟩ := step_receive_eq_some h
    exact .keep _

end World

/-- Along any run, an object allocated at its start keeps its address, its name, `Weight`,
`Scheme`, `Active`, `HealthCheck` and `Performance`, and its atomic flag is either the one it
had or `Active`. -/
theorem allocated_backend_settled {sortSlice : List (Ptr × ℚ) → List (Ptr × ℚ)} {w₀ w : World}
    (hs : Steps sortSlice w₀ w) {p : Ptr} (hp : p < w₀.next) : (w₀.heap p).Settled (w.heap p) := by
  induction hs with
  | refl => exact .refl _
  | tail hs₀ hstep ih =>
    obtain ⟨a, hstep⟩ := hstep
    exact ih.trans (World.step_write hstep (lt_of_lt_of_le hp (Steps.keeps hs₀).1)).settled

theorem allocated_backend_settled_sample :
    let sortSlice := (mergeSortEnv 0).sortSlice
    let w₀ := (bootRun sortSlice (fun _ => true) sampleDoc sampleOrder sampleRouting sampleOrder
      []).getD default
    let w := (w₀.step sortSlice (.disconnect "default" "a")).getD default
    Steps sortSlice w₀ w ∧ 0 < w₀.next ∧ (w₀.heap 0).Settled (w.heap 0) := by
  intro sortSlice w₀ w
  have hs : Steps sortSlice w₀ w := .single ⟨.disconnect "default" "a", rfl⟩
  exact ⟨hs, by decide, allocated_backend_settled hs (by decide)⟩

namespace World

variable {sortSlice : List (Ptr × ℚ) → List (Ptr × ℚ)} {w w' : World} {a : Action}

def RegistrySynced (w : World) : Prop :=
  ∀ name u, w.um.getUpstream name = some u → ∀ p ∈ u.backends,
    (w.heap p).activeFlag = (w.heap p).active

theorem initUpstreams_synced {h : Heap} {um : UpstreamManager} {order : List (String × List Ptr)}
    {name : String} {u : Upstream} (hn : um.getUpstream name = none)
    (hu : (initUpstreams h um order).2.1.getUpstream name = some u) :
    ∀ p ∈ u.backends, ((initUpstreams h um order).1 p).activeFlag =
      ((initUpstreams h um order).1 p).active := by
  intro p hp
  rw [(initUpstreams_new hn hu).2.2 p hp]
  rfl

theorem RegistrySynced.step (hb : w.Bounded) (hs : w.RegistrySynced)
    (h : w.step sortSlice a = some w') : w'.RegistrySynced := by
  intro name u hu p hp
  cases hold : w.um.getUpstream name with
  | some u' =>
    have hu' := getUpstream_step h hold
    rw [hu] at hu'
    cases hu'
    exact (step_write h (hb.um name u hold p hp)).synced (hs name u hold p hp)
  | none =>
    rcases step_frame h with ⟨-, hum, -⟩ | ⟨doc, backendsOrder, routingOrder, write, rfl⟩ |
      ⟨order, rfl⟩
    · rw [hum, hold] at hu
      cases hu
    · rcases step_updateConfig_eq_some h with rfl | ⟨d, -, hup⟩
      · rw [hold] at hu
        cases hu
      obtain ⟨-, -, rfl⟩ := updateConfig_eq_some hup
      rw [hold] at hu
      cases hu
    · obtain ⟨ch, c, -, -, rfl⟩ := step_apply_eq_some h
      exact initUpstreams_synced hold hu p hp

theorem RegistrySynced.boot {doc : Config Backend} {backendsOrder : List (String × List Ptr)}
    {routingOrder : List (String × RoutingRule)} {order : List (String × List Ptr)}
    (h : World.boot doc backendsOrder routingOrder order = some w) : w.RegistrySynced := by
  unfold World.boot at h
  dsimp only at h
  split at h
  · cases h
  split_ifs at h
  cases h
  intro name u hu
  exact initUpstreams_synced (by simp [UpstreamManager.getUpstream, UpstreamManager.newUpstreamManager,
    GoMap.get?, GoMap.empty]) hu

end World

theorem Reachable.registrySynced {sortSlice : List (Ptr × ℚ) → List (Ptr × ℚ)} {w : World}
    (hsort : ∀ rnd, (SelectEnv.mk sortSlice rnd).Sorts) (hr : Reachable sortSlice w) :
    w.RegistrySynced := by
  induction hr with
  | boot hb => exact World.RegistrySynced.boot hb
  | step hr hs ih => exact ih.step (hr.bounded hsort) hs

/-- In every reachable state, `GetBackends` of a registered upstream returns the backends
whose `Active` is set, and along any later run the upstream stays registered and its
`GetBackends` returns that same list. -/
theorem registered_backends_fixed {sortSlice : List (Ptr × ℚ) → List (Ptr × ℚ)}
    (hsort : ∀ rnd, (SelectEnv.mk sortSlice rnd).Sorts) {w w' : World} {name : String}
    {u : Upstream} (hr : Reachable sortSlice w) (hs : Steps sortSlice w w')
    (hu : w.um.getUpstream name = some u) :
    u.getBackends w.heap = u.backends.filter (fun p => (w.heap p).active) ∧
      w'.um.getUpstream name = some u ∧ u.getBackends w'.heap = u.getBackends w.heap := by
  have hsync := hr.registrySynced hsort name u hu
  have hbelow := (hr.bounded hsort).um name u hu
  refine ⟨List.filter_congr fun p hp => ?_, (Steps.keeps hs).2.1 name u hu,
    List.filter_congr fun p hp => ?_⟩
  · simp only [Backend.isActive, hsync p hp, Bool.and_self]
  · have hset := allocated_backend_settled hs (hbelow p hp)
    have hflag : (w'.heap p).activeFlag = (w.heap p).activeFlag := by
      rcases hset.flag with hf | hf
      · exact hf
      · rw [hf, hsync p hp]
    simp only [Backend.isActive, hflag, hset.active]

theorem registered_backends_fixed_sample :
    let sortSlice := (mergeSortEnv 0).sortSlice
    let w := (bootRun sortSlice (fun _ => true) sampleDoc sampleOrder sampleRouting sampleOrder
      []).getD default
    let w' := (w.step sortSlice (.disconnect "default" "a")).getD default
    let u : Upstream := ⟨"default", [0]⟩
    (∀ rnd, (SelectEnv.mk sortSlice rnd).Sorts) ∧ Reachable sortSlice w ∧ Steps sortSlice w w' ∧
      w.um.getUpstream "default" = some u ∧
      (u.getBackends w.heap = u.backends.filter (fun p => (w.heap p).active) ∧
        w'.um.getUpstream "default" = some u ∧ u.getBackends w'.heap = u.getBackends w.heap) := by
  intro sortSlice w w' u
  have hr : Reachable sortSlice w := (ReachableWithin.of_bootRun (by decide)).reachable
  have hs : Steps sortSlice w w' := .single ⟨.disconnect "default" "a", rfl⟩
  have hu : w.um.getUpstream "default" = some u := by decide
  exact ⟨mergeSortEnv_sorts, hr, hs, hu, registered_backends_fixed mergeSortEnv_sorts hr hs hu⟩

namespace World

variable {sortSlice : List (Ptr × ℚ) → List (Ptr × ℚ)} {w w' : World} {a : Action}

def Registered (w : World) (p : Ptr) : Prop := ∃ name u, w.um.getUpstream name = some u ∧ p ∈ u.backends

def RequestsRegistered (w : World) : Prop :=
  ∀ ph ∈ w.reqs, ∀ p, ph.ptr? = some p → w.Registered p

theorem Registered.step (h : w.step sortSlice a = some w') {p : Ptr} (hp : w.Registered p) :
    w'.Registered p := by
  obtain ⟨name, u, hu, hmem⟩ := hp
  exact ⟨name, u, getUpstream_step h hu, hmem⟩

section Sorted

variable (hsort : ∀ rnd, (SelectEnv.mk sortSlice rnd).Sorts)
include hsort

theorem requestStep_registered {ph ph' : Phase} {st : ReqStep} {h' : Heap}
    (hph : ∀ p, ph.ptr? = some p → w.Registered p)
    (h : w.requestStep sortSlice ph st = some (ph', h')) :
    ∀ p, ph'.ptr? = some p → w.Registered p := by
  rcases requestStep_eq_some h with ⟨req, routingOrder, rnd, -, -, rfl, -⟩ | ⟨q, rfl, rfl, -⟩ |
    ⟨q, rfl, rfl, -⟩ | ⟨q, rfl, -, ⟨-, rfl⟩ | ⟨-, rfl⟩⟩ | ⟨q, v, rfl, ⟨-, rfl, -⟩ | ⟨-, rfl, -⟩⟩
  · cases hd : handleRequest w.heap w.mgr.config w.um routingOrder req ⟨sortSlice, rnd⟩ with
    | reject status message => simp [Dispatch.phase, Phase.ptr?]
    | forward q =>
      obtain ⟨rule, upstream, -, hup, hq, -⟩ := handleRequest_eq_forward (hsort rnd) hd
      simp only [Dispatch.phase, Phase.ptr?, Option.some.injEq]
      rintro p rfl
      exact ⟨_, _, hup, hq⟩
  all_goals first
    | (simp [Phase.ptr?]; done)
    | exact fun p hp => hph p (by simpa [Phase.ptr?] using hp)

theorem RequestsRegistered.step (hreg : w.RequestsRegistered) (h : w.step sortSlice a = some w') :
    w'.RequestsRegistered := by
  rcases step_reqs h with hreqs | ⟨req, -, hreqs⟩ | ⟨i, ph, ph', st, hph, hr, hreqs⟩ <;>
    intro ph'' hmem p hp <;> rw [hreqs] at hmem
  · exact (hreg ph'' hmem p hp).step h
  · rcases List.mem_append.mp hmem with hmem | hmem
    · exact (hreg ph'' hmem p hp).step h
    · rw [List.mem_singleton.mp hmem] at hp
      cases hp
  · rcases List.mem_or_eq_of_mem_set hmem with hmem | rfl
    · exact (hreg ph'' hmem p hp).step h
    · exact (requestStep_registered hsort (hreg ph (List.getElem?_mem hph)) hr p hp).step h

end Sorted

theorem RequestsRegistered.boot {doc : Config Backend} {backendsOrder : List (String × List Ptr)}
    {routingOrder : List (String × RoutingRule)} {order : List (String × List Ptr)}
    (h : World.boot doc backendsOrder routingOrder order = some w) : w.RequestsRegistered := by
  intro ph hph
  rw [(boot_reqs h).1] at hph
  cases hph

theorem requestStep_connections_of_unheld {ph ph' : Phase} {st : ReqStep} {h' : Heap}
    (hr : w.requestStep sortSlice ph st = some (ph', h')) {p : Ptr} (hph : ph.ptr? ≠ some p)
    (hph' : ph'.ptr? ≠ some p) : (h' p).connections = (w.heap p).connections := by
  have hnot : ∀ ph : Phase, ph.ptr? ≠ some p → ph.holds p = false := fun ph hne => by
    cases hh : ph.holds p
    · rfl
    · exact absurd (Phase.ptr?_of_holds hh) hne
  rcases requestStep_connections hr p with hc | ⟨rfl, -, -, -⟩ | ⟨rfl, -, -⟩
  · rw [hnot ph hph, hnot ph' hph'] at hc
    simpa using hc
  all_goals exact absurd rfl hph

end World

theorem Reachable.requestsRegistered {sortSlice : List (Ptr × ℚ) → List (Ptr × ℚ)} {w : World}
    (hsort : ∀ rnd, (SelectEnv.mk sortSlice rnd).Sorts) (hr : Reachable sortSlice w) :
    w.RequestsRegistered := by
  induction hr with
  | boot hb => exact World.RequestsRegistered.boot hb
  | step _ hs ih => exact ih.step hsort hs

/-- An allocated object that no registered upstream holds at the end of a run was never
dispatched to along it: its counter is the one it had at the start, and no request points
to it. This is the fate of every object an update decodes under a name already registered. -/
theorem unregistered_object_idle {sortSlice : List (Ptr × ℚ) → List (Ptr × ℚ)}
    (hsort : ∀ rnd, (SelectEnv.mk sortSlice rnd).Sorts) {w w' : World} (hr : Reachable sortSlice w)
    (hs : Steps sortSlice w w') {p : Ptr} (hp : p < w.next) (hfree : ¬w'.Registered p) :
    (w'.heap p).connections = (w.heap p).connections ∧ ∀ ph ∈ w'.reqs, ph.ptr? ≠ some p := by
  have unheld : ∀ {w₁ : World}, Reachable sortSlice w₁ → ¬w₁.Registered p →
      ∀ ph ∈ w₁.reqs, ph.ptr? ≠ some p :=
    fun hr₁ hfree₁ ph hph hptr => hfree₁ (hr₁.requestsRegistered hsort ph hph p hptr)
  induction hs with
  | refl => exact ⟨rfl, unheld hr hfree⟩
  | tail hs₀ hstep ih =>
    obtain ⟨a, hstep⟩ := hstep
    have hr₁ := hr.of_steps hs₀
    have hfree₁ := fun hreg => hfree (World.Registered.step hstep hreg)
    obtain ⟨ihc, ihreqs⟩ := ih hfree₁
    refine ⟨?_, unheld (.step hr₁ hstep) hfree⟩
    rw [← ihc]
    rcases step_counters hstep with ⟨hconn, -⟩ | ⟨i, ph, ph', st, hph, hreq, hreqs, -⟩ | ⟨-, hheap, -⟩
    · exact hconn p
    · refine World.requestStep_connections_of_unheld hreq (ihreqs ph (List.getElem?_mem hph)) ?_
      refine unheld (.step hr₁ hstep) hfree ph' ?_
      rw [hreqs]
      exact List.mem_set _ _ (List.getElem?_eq_some_iff.mp hph).1 _
    · rw [hheap p (lt_of_lt_of_le hp (Steps.keeps hs₀).1)]

theorem UpstreamManager.mem_of_getUpstream {um : UpstreamManager} {name : String} {u : Upstream}
    (hu : um.getUpstream name = some u) : u ∈ um.upstreams := by
  unfold UpstreamManager.getUpstream at hu
  split at hu
  · exact List.getElem?_mem hu
  · cases hu

theorem unregistered_object_idle_sample :
    let sortSlice := (mergeSortEnv 0).sortSlice
    let w := (bootRun sortSlice (fun _ => true) sampleDoc sampleOrder sampleRouting sampleOrder
      [.updateConfig (some sampleDoc) [("default", [1])] sampleRouting .ok]).getD default
    let w' := (w.step sortSlice (.arrive sampleRequest)).getD default
    (∀ rnd, (SelectEnv.mk sortSlice rnd).Sorts) ∧ Reachable sortSlice w ∧ Steps sortSlice w w' ∧
      1 < w.next ∧ ¬w'.Registered 1 ∧
      ((w'.heap 1).connections = (w.heap 1).connections ∧ ∀ ph ∈ w'.reqs, ph.ptr? ≠ some 1) := by
  intro sortSlice w w'
  have hr : Reachable sortSlice w := (ReachableWithin.of_bootRun (by decide)).reachable
  have hstep : w.step sortSlice (.arrive sampleRequest) = some w' := World.step_eq_getD (by decide)
  have hs : Steps sortSlice w w' := .single ⟨_, hstep⟩
  have hum : w'.um = w.um := by rw [(World.step_arrive_eq_some hstep).2]
  have hfree : ¬w'.Registered 1 := by
    rintro ⟨name, u, hu, hmem⟩
    have hall : ∀ u ∈ w.um.upstreams, 1 ∉ u.backends := by decide
    exact hall u (UpstreamManager.mem_of_getUpstream (hum ▸ hu)) hmem
  exact ⟨mergeSortEnv_sorts, hr, hs, by decide, hfree,
    unregistered_object_idle mergeSortEnv_sorts hr hs (by decide) hfree⟩

namespace World

variable {sortSlice : List (Ptr × ℚ) → List (Ptr × ℚ)} {w : World}

theorem apply_eq_some {ch : Nat} {c : Config Ptr} (hloop : w.loop = .received ch c)
    {order : List (String × List Ptr)} (horder : w.mgr.config.backends.IsOrder order) :
    w.step sortSlice (.apply order) =
      some { w with settings := (Server.updateConfig w.heap w.um c order).1,
                    heap := (initUpstreams w.heap w.um order).1,
                    um := (initUpstreams w.heap w.um order).2.1, loop := .waiting ch,
                    applied := c } := by
  simp only [step, hloop, horder, if_true]
  rfl

end World

theorem nodup_keys_of_isOrder {V : Type} {m : GoMap String V} {order : List (String × V)}
    (horder : m.IsOrder order) : (order.map Prod.fst).Nodup :=
  (horder.map Prod.fst).nodup_iff.mpr m.nodup

/-- When the watcher applies a config while the manager's config still holds a registered
upstream name, a visiting order that starts at that name registers nothing, and an order
that visits the unregistered names first registers every name of the config. -/
theorem reload_registration_depends_on_order {sortSlice : List (Ptr × ℚ) → List (Ptr × ℚ)}
    {w : World} {ch : Nat} {c : Config Ptr} {n : String} (hloop : w.loop = .received ch c)
    (hn : n ∈ w.mgr.config.backends.keys) (hreg : (w.um.getUpstream n).isSome) :
    (∃ order w', w.step sortSlice (.apply order) = some w' ∧ w'.um = w.um) ∧
      ∃ order w', w.step sortSlice (.apply order) = some w' ∧
        ∀ m ∈ w.mgr.config.backends.keys, (w'.um.getUpstream m).isSome := by
  refine ⟨?_, ?_⟩
  · obtain ⟨⟨n', bs⟩, he, rfl⟩ := List.mem_map.mp hn
    obtain ⟨u, hu⟩ := Option.isSome_iff_exists.mp hreg
    have horder := (List.perm_cons_erase he).symm
    refine ⟨_, _, World.apply_eq_some hloop horder, ?_⟩
    simp only [initUpstreams_cons_of_some w.heap w.um bs _ hu]
  · let free : String × List Ptr → Bool := fun e => (w.um.getUpstream e.1).isNone
    let entries := w.mgr.config.backends.entries
    have horder : w.mgr.config.backends.IsOrder
        (entries.filter free ++ entries.filter fun e => !free e) :=
      List.filter_append_perm free entries
    refine ⟨_, _, World.apply_eq_some hloop horder, fun m hm => ?_⟩
    obtain ⟨⟨m', bs⟩, he, rfl⟩ := List.mem_map.mp hm
    dsimp only
    rw [getUpstream_initUpstreams (nodup_keys_of_isOrder horder)]
    cases hget : w.um.getUpstream m' with
    | some u => rfl
    | none =>
      rw [Option.none_or, Option.isSome_map', UpstreamManager.unregisteredPrefix,
        List.takeWhile_append_of_pos fun e he => (List.mem_filter.mp he).2]
      exact isSome_lookup_of_mem (List.mem_append_left _ (List.mem_filter.mpr ⟨he, by simp [free, hget]⟩))

def sampleReloadWorld : World :=
  let c := sampleConfig ⟨[("default", [0]), ("api", [1])], by decide⟩
  { (default : World) with mgr := ⟨c, none, []⟩, um := sampleUpstreams, loop := .received 0 c }

theorem reload_registration_depends_on_order_sample :
    sampleReloadWorld.loop = .received 0 sampleReloadWorld.mgr.config ∧
      "default" ∈ sampleReloadWorld.mgr.config.backends.keys ∧
      (sampleReloadWorld.um.getUpstream "default").isSome ∧
      ((∃ order w', sampleReloadWorld.step id (.apply order) = some w' ∧
          w'.um = sampleReloadWorld.um) ∧
        ∃ order w', sampleReloadWorld.step id (.apply order) = some w' ∧
          ∀ m ∈ sampleReloadWorld.mgr.config.backends.keys, (w'.um.getUpstream m).isSome) :=
  ⟨rfl, by decide, by decide,
    @reload_registration_depends_on_order id sampleReloadWorld 0 _ "default" rfl (by decide) (by decide)⟩

end SpeedMimi
