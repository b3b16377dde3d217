import SpeedMimi.World.State

/-! # What every step keeps

A decoded document is placed at and above `next`, and every address the config, the
registry and the requests hold lies below it (`Bounded`). No step writes an object's
`ID`, `Host` or `Port`, and none clears a disconnect mark (`Backend.Evolves`). The
registry only grows: `CreateUpstream` rejects a registered name and nothing removes one.
-/

namespace SpeedMimi

open Proxy LoadBalancer

def Config.Below (config : Config Ptr) (n : Ptr) : Prop :=
  ∀ e ∈ config.backends.entries, ∀ p ∈ e.2, p < n

def UpstreamManager.Below (um : UpstreamManager) (n : Ptr) : Prop :=
  ∀ name u, um.getUpstream name = some u → ∀ p ∈ u.backends, p < n

theorem Config.Below.mono {config : Config Ptr} {n n' : Ptr} (h : config.Below n) (hn : n ≤ n') :
    config.Below n' :=
  fun e he p hp => lt_of_lt_of_le (h e he p hp) hn

theorem UpstreamManager.Below.mono {um : UpstreamManager} {n n' : Ptr} (h : um.Below n)
    (hn : n ≤ n') : um.Below n' :=
  fun name u hu p hp => lt_of_lt_of_le (h name u hu p hp) hn

section Place

variable {h : Heap} {next p : Ptr}

theorem placeList_apply_of_lt (hp : p < next) (bs : List Backend) :
    (placeList h next bs).1 p = h p := by
  induction bs generalizing h next with
  | nil => rfl
  | cons b bs ih =>
    simp only [placeList]
    rw [ih (Nat.lt_succ_of_lt hp), Function.update_noteq (Nat.ne_of_lt hp)]

theorem mem_placeList {bs : List Backend} (hp : p ∈ (placeList h next bs).2) :
    next ≤ p ∧ p < next + bs.length := by
  induction bs generalizing h next with
  | nil => simp [placeList] at hp
  | cons b bs ih =>
    simp only [placeList, List.mem_cons] at hp
    rcases hp with rfl | hp
    · simp
    · have := ih hp
      simp only [List.length_cons]
      unfold Ptr at *
      omega

theorem placeEntries_apply_of_lt (hp : p < next) (es : List (String × List Backend)) :
    (placeEntries h next es).1 p = h p := by
  induction es generalizing h next with
  | nil => rfl
  | cons e rest ih =>
    simp only [placeEntries]
    rw [ih (Nat.lt_of_lt_of_le hp (Nat.le_add_right _ _)), placeList_apply_of_lt hp]

theorem le_placeEntries_next (es : List (String × List Backend)) :
    next ≤ (placeEntries h next es).2.2 := by
  induction es generalizing h next with
  | nil => exact le_refl _
  | cons e rest ih =>
    simp only [placeEntries]
    exact le_trans (Nat.le_add_right _ _) ih

theorem mem_placeEntries {es : List (String × List Backend)} {e : String × List Ptr}
    (he : e ∈ (placeEntries h next es).2.1) (hp : p ∈ e.2) :
    next ≤ p ∧ p < (placeEntries h next es).2.2 := by
  induction es generalizing h next with
  | nil => simp [placeEntries] at he
  | cons e' rest ih =>
    simp only [placeEntries, List.mem_cons] at he ⊢
    have hle := @le_placeEntries_next (placeList h next e'.2).1 (next + e'.2.length) rest
    rcases he with rfl | he
    · have := mem_placeList hp
      unfold Ptr at *
      omega
    · have := ih he
      unfold Ptr at *
      omega

theorem place_heap_of_lt (hp : p < next) (doc : Config Backend) :
    (place h next doc).heap p = h p :=
  placeEntries_apply_of_lt hp _

theorem le_place_next (doc : Config Backend) : next ≤ (place h next doc).next :=
  le_placeEntries_next _

theorem place_config_below (doc : Config Backend) :
    (place h next doc).config.Below (place h next doc).next :=
  fun _ he _ hp => (mem_placeEntries he hp).2

end Place

/-- An object before and after steps that did not create it. -/
structure Backend.Evolves (b b' : Backend) : Prop where
  id : b'.id = b.id
  host : b'.host = b.host
  port : b'.port = b.port
  mark : b.disconnect = true → b'.disconnect = true

namespace Backend.Evolves

theorem refl (b : Backend) : b.Evolves b := ⟨rfl, rfl, rfl, fun h => h⟩

theorem trans {b b' b'' : Backend} (h : b.Evolves b') (h' : b'.Evolves b'') : b.Evolves b'' :=
  ⟨h'.id.trans h.id, h'.host.trans h.host, h'.port.trans h.port, h'.mark ∘ h.mark⟩

theorem modify {h : Heap} {q : Ptr} {f : Backend → Backend} (hf : ∀ b : Backend, b.Evolves (f b))
    (p : Ptr) :
    (h p).Evolves (h.modify q f p) := by
  rw [Heap.modify_apply]
  split_ifs with hpq
  · exact hf _
  · exact refl _

end Backend.Evolves

theorem initUpstreams_evolves (h : Heap) (um : UpstreamManager) (order : List (String × List Ptr))
    (p : Ptr) : (h p).Evolves ((initUpstreams h um order).1 p) := by
  rcases @initUpstreams_heap h um order p with hp | hp <;> rw [hp]
  · exact .refl _
  · exact ⟨rfl, rfl, rfl, fun h => h⟩

namespace World

variable {sortSlice : List (Ptr × ℚ) → List (Ptr × ℚ)} {w w' : World} {a : Action}

/-- Every address the config, the registry and the requests hold is allocated. -/
structure Bounded (w : World) : Prop where
  config : w.mgr.config.Below w.next
  um : w.um.Below w.next
  reqs : ∀ ph ∈ w.reqs, ∀ p, ph.ptr? = some p → p < w.next

theorem requestStep_heap_evolves {ph ph' : Phase} {st : ReqStep} {h' : Heap}
    (h : w.requestStep sortSlice ph st = some (ph', h')) (p : Ptr) : (w.heap p).Evolves (h' p) := by
  rcases requestStep_eq_some h with ⟨-, -, -, -, -, -, rfl⟩ | ⟨q, -, -, rfl⟩ | ⟨-, -, -, rfl⟩ |
    ⟨-, -, rfl, -⟩ | ⟨q, v, -, ⟨-, -, rfl⟩ | ⟨-, -, rfl⟩⟩
  · exact .refl _
  · apply Backend.Evolves.modify
    exact fun _ => ⟨rfl, rfl, rfl, fun h => h⟩
  · exact .refl _
  · exact .refl _
  · apply Backend.Evolves.modify
    exact fun _ => ⟨rfl, rfl, rfl, fun h => h⟩
  · exact .refl _

theorem step_evolves (h : w.step sortSlice a = some w') {p : Ptr} (hp : p < w.next) :
    (w.heap p).Evolves (w'.heap p) := by
  cases a with
  | arrive req => obtain ⟨-, rfl⟩ := step_arrive_eq_some h; exact .refl _
  | request i st =>
    obtain ⟨ph, ph', h', -, hr, rfl⟩ := step_request_eq_some h
    exact requestStep_heap_evolves hr p
  | disconnect upstreamID backendID =>
    rcases step_disconnect_eq_some h with rfl | ⟨h', hok, rfl⟩
    · exact .refl _
    obtain ⟨-, q, -, -, -, rfl⟩ := disconnectBackend_eq_ok hok
    apply Backend.Evolves.modify
    exact fun _ => ⟨rfl, rfl, rfl, fun _ => rfl⟩
  | updateBackend method body =>
    cases h
    rcases handleUpdateBackend_heap w.heap w.um method body with hh | ⟨-, -, q, m, -, -, hh⟩ <;>
      simp only [hh]
    · exact .refl _
    · apply Backend.Evolves.modify
      exact fun _ => ⟨rfl, rfl, rfl, fun h => h⟩
  | updateConfig doc backendsOrder routingOrder write =>
    rcases step_updateConfig_eq_some h with rfl | ⟨d, -, hu⟩
    · exact .refl _
    obtain ⟨-, -, rfl⟩ := updateConfig_eq_some hu
    dsimp only
    rw [place_heap_of_lt hp]
    exact .refl _
  | subscribe =>
    obtain ⟨-, rfl⟩ := step_subscribe_eq_some h
    exact .refl _
  | receive =>
    obtain ⟨ch, c, -, -, rfl⟩ := step_receive_eq_some h
    exact .refl _
  | apply order =>
    obtain ⟨ch, c, -, -, rfl⟩ := step_apply_eq_some h
    exact initUpstreams_evolves _ _ _ p

/-- Only an update and a reload allocate, register or install a config. -/
theorem step_frame (h : w.step sortSlice a = some w') :
    (w'.next = w.next ∧ w'.um = w.um ∧ w'.mgr.config = w.mgr.config) ∨
      (∃ doc backendsOrder routingOrder write,
        a = .updateConfig doc backendsOrder routingOrder write) ∨ ∃ order, a = .apply order := by
  cases a with
  | updateConfig doc backendsOrder routingOrder write => exact .inr (.inl ⟨_, _, _, _, rfl⟩)
  | apply order => exact .inr (.inr ⟨_, rfl⟩)
  | request i st =>
    obtain ⟨-, -, -, -, -, rfl⟩ := step_request_eq_some h
    exact .inl ⟨rfl, rfl, rfl⟩
  | disconnect upstreamID backendID =>
    rcases step_disconnect_eq_some h with rfl | ⟨-, -, rfl⟩ <;> exact .inl ⟨rfl, rfl, rfl⟩
  | subscribe =>
    obtain ⟨-, rfl⟩ := step_subscribe_eq_some h
    exact .inl ⟨rfl, rfl, rfl⟩
  | receive =>
    obtain ⟨-, -, -, -, rfl⟩ := step_receive_eq_some h
    exact .inl ⟨rfl, rfl, rfl⟩
  | arrive req => obtain ⟨-, rfl⟩ := step_arrive_eq_some h; exact .inl ⟨rfl, rfl, rfl⟩
  | updateBackend method body => cases h; exact .inl ⟨rfl, rfl, rfl⟩

theorem next_le_step (h : w.step sortSlice a = some w') : w.next ≤ w'.next := by
  rcases step_frame h with ⟨hn, -⟩ | ⟨doc, backendsOrder, routingOrder, write, rfl⟩ | ⟨order, rfl⟩
  · exact hn.ge
  · rcases step_updateConfig_eq_some h with rfl | ⟨d, -, hu⟩
    · exact le_refl _
    obtain ⟨-, -, rfl⟩ := updateConfig_eq_some hu
    exact le_place_next _
  · obtain ⟨-, -, -, -, rfl⟩ := step_apply_eq_some h
    exact le_refl _

theorem getUpstream_step (h : w.step sortSlice a = some w') {name : String} {u : Upstream}
    (hu : w.um.getUpstream name = some u) : w'.um.getUpstream name = some u := by
  rcases step_frame h with ⟨-, hum, -⟩ | ⟨doc, backendsOrder, routingOrder, write, rfl⟩ |
    ⟨order, rfl⟩
  · rwa [hum]
  · rcases step_updateConfig_eq_some h with rfl | ⟨d, -, hu'⟩
    · exact hu
    obtain ⟨-, -, rfl⟩ := updateConfig_eq_some hu'
    exact hu
  · obtain ⟨-, -, -, -, rfl⟩ := step_apply_eq_some h
    exact initUpstreams_keeps hu

theorem initUpstreams_below {h : Heap} {um : UpstreamManager} {config : Config Ptr}
    {order : List (String × List Ptr)} {n : Ptr} (hum : um.Below n) (hc : config.Below n)
    (horder : config.backends.IsOrder order) : (initUpstreams h um order).2.1.Below n := by
  intro name u hu p hp
  cases hold : um.getUpstream name with
  | some u' =>
    rw [initUpstreams_keeps hold] at hu
    cases hu
    exact hum name u hold p hp
  | none =>
    obtain ⟨-, hmem, -⟩ := initUpstreams_new hold hu
    exact hc _ (horder.mem_iff.mp hmem) p hp

section Sorted

variable (hsort : ∀ rnd, (SelectEnv.mk sortSlice rnd).Sorts)
include hsort

theorem requestStep_below {ph ph' : Phase} {st : ReqStep} {h' : Heap} (hb : w.Bounded)
    (hph : ∀ p, ph.ptr? = some p → p < w.next)
    (h : w.requestStep sortSlice ph st = some (ph', h')) :
    ∀ p, ph'.ptr? = some p → p < w.next := by
  rcases requestStep_eq_some h with ⟨req, routingOrder, rnd, -, -, rfl, -⟩ | ⟨q, rfl, rfl, -⟩ |
    ⟨q, rfl, rfl, -⟩ | ⟨q, rfl, -, ⟨-, rfl⟩ | ⟨-, rfl⟩⟩ | ⟨q, v, rfl, ⟨-, rfl, -⟩ | ⟨-, rfl, -⟩⟩
  · cases hd : handleRequest w.heap w.mgr.config w.um routingOrder req ⟨sortSlice, rnd⟩ with
    | reject status message => simp [Dispatch.phase, Phase.ptr?]
    | forward q =>
      obtain ⟨rule, upstream, -, hup, hq, -⟩ := handleRequest_eq_forward (hsort rnd) hd
      simp only [Dispatch.phase, Phase.ptr?, Option.some.injEq]
      rintro p rfl
      exact hb.um _ _ hup _ hq
  all_goals first
    | (simp [Phase.ptr?]; done)
    | exact fun p hp => hph p (by simpa [Phase.ptr?] using hp)

theorem Bounded.step (hb : w.Bounded) (h : w.step sortSlice a = some w') : w'.Bounded := by
  cases a with
  | arrive req =>
    obtain ⟨-, rfl⟩ := step_arrive_eq_some h
    refine ⟨hb.config, hb.um, fun ph hph => ?_⟩
    rcases List.mem_append.mp hph with hph | hph
    · exact hb.reqs ph hph
    · simp_all [Phase.ptr?]
  | request i st =>
    obtain ⟨ph, ph', h', hph, hr, rfl⟩ := step_request_eq_some h
    refine ⟨hb.config, hb.um, fun ph'' hmem => ?_⟩
    rcases List.mem_or_eq_of_mem_set hmem with hmem | rfl
    · exact hb.reqs ph'' hmem
    · have key := requestStep_below hsort hb (hb.reqs ph (List.getElem?_mem hph)) hr
      exact key
  | disconnect upstreamID backendID =>
    rcases step_disconnect_eq_some h with rfl | ⟨h', -, rfl⟩
    · exact hb
    · exact ⟨hb.config, hb.um, hb.reqs⟩
  | updateBackend method body =>
    cases h
    exact ⟨hb.config, hb.um, hb.reqs⟩
  | updateConfig doc backendsOrder routingOrder write =>
    rcases step_updateConfig_eq_some h with rfl | ⟨d, -, hu⟩
    · exact hb
    obtain ⟨-, -, rfl⟩ := updateConfig_eq_some hu
    have hle := @le_place_next w.heap w.next d
    refine ⟨?_, hb.um.mono hle, fun ph hph p hp => lt_of_lt_of_le (hb.reqs ph hph p hp) hle⟩
    rcases Manager.updateConfig_cases w.mgr (place w.heap w.next d).heap (place w.heap w.next d).config
      backendsOrder routingOrder write with ⟨-, -, hm⟩ | ⟨-, hm, -⟩
    · simp only [hm]
      exact place_config_below d
    · simp only [hm]
      exact hb.config.mono hle
  | subscribe =>
    obtain ⟨-, rfl⟩ := step_subscribe_eq_some h
    exact ⟨hb.config, hb.um, hb.reqs⟩
  | receive =>
    obtain ⟨ch, c, -, -, rfl⟩ := step_receive_eq_some h
    exact ⟨hb.config, hb.um, hb.reqs⟩
  | apply order =>
    obtain ⟨ch, c, -, horder, rfl⟩ := step_apply_eq_some h
    exact ⟨hb.config, initUpstreams_below hb.um hb.config horder, hb.reqs⟩

end Sorted

theorem Bounded.boot {doc : Config Backend} {backendsOrder : List (String × List Ptr)}
    {routingOrder : List (String × RoutingRule)} {order : List (String × List Ptr)}
    (h : World.boot doc backendsOrder routingOrder order = some w) : w.Bounded := by
  unfold World.boot at h
  dsimp only at h
  split at h
  · cases h
  rename_i hh m hload
  split_ifs at h with horder
  cases h
  obtain ⟨-, hm, -, -⟩ := Manager.loadConfig_eq_ok hload
  have hc : m.config.Below (place (fun _ => Backend.zero) 0 doc).next := by
    rw [hm]
    exact place_config_below doc
  refine ⟨hc, initUpstreams_below (fun name u hu => ?_) hc horder.2.2, by simp⟩
  simp [UpstreamManager.getUpstream, UpstreamManager.newUpstreamManager, GoMap.get?,
    GoMap.empty] at hu

end World

theorem Reachable.bounded {sortSlice : List (Ptr × ℚ) → List (Ptr × ℚ)} {w : World}
    (hsort : ∀ rnd, (SelectEnv.mk sortSlice rnd).Sorts) (hr : Reachable sortSlice w) : w.Bounded := by
  induction hr with
  | boot hb => exact World.Bounded.boot hb
  | step _ hs ih => exact ih.step hsort hs

end SpeedMimi
