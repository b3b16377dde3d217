import SpeedMimi.World.Accounting

/-! # Draining a backend

`DisconnectBackend` marks the first backend of the upstream's `GetBackends()` with the ID.
No step clears a mark, and the registry never drops or rebuilds an upstream, so the marked
object stays in the upstream, marked, for the rest of the run. Every policy skips a marked
backend; when the upstream's IDs are distinct, the marked object is the only one with its
ID, and no later dispatch to that upstream chooses that ID.

So a marked backend drains: no dispatch chooses it, and its counter plus the requests that
chose it and have not incremented never grows again.
-/

namespace SpeedMimi

open Proxy LoadBalancer World

variable {sortSlice : List (Ptr × ℚ) → List (Ptr × ℚ)}

theorem Steps.keeps {w₀ w : World} (hs : Steps sortSlice w₀ w) :
    w₀.next ≤ w.next ∧ (∀ name u, w₀.um.getUpstream name = some u → w.um.getUpstream name = some u) ∧
      ∀ p < w₀.next, (w₀.heap p).Evolves (w.heap p) := by
  induction hs with
  | refl => exact ⟨le_refl _, fun _ _ hu => hu, fun p _ => .refl _⟩
  | tail _ hstep ih =>
    obtain ⟨a, hstep⟩ := hstep
    obtain ⟨hnext, hum, hev⟩ := ih
    exact ⟨le_trans hnext (next_le_step hstep), fun name u hu => getUpstream_step hstep (hum name u hu),
      fun p hp => (hev p hp).trans (step_evolves hstep (lt_of_lt_of_le hp hnext))⟩

/-- Once `DisconnectBackend(u, id)` has returned `nil`, in every later state of any run: `u`
is still registered with the same backends, each of them with that ID is marked, and no
dispatch of a request whose rule names `u` chooses a backend with that ID, whatever the
policy, provided the IDs in `u` were distinct. -/
theorem disconnected_backend_never_chosen (hsort : ∀ rnd, (SelectEnv.mk sortSlice rnd).Sorts)
    {w₀ w₁ w : World} {upstreamID backendID : String} {h' : Heap} {u : Upstream}
    (hr : Reachable sortSlice w₀) (hu : w₀.um.getUpstream upstreamID = some u)
    (huniq : (u.backends.map fun p => (w₀.heap p).id).Nodup)
    (hdis : disconnectBackend w₀.heap w₀.um upstreamID backendID = .ok h')
    (hstep : w₀.step sortSlice (.disconnect upstreamID backendID) = some w₁)
    (hrun : Steps sortSlice w₁ w) :
    w.um.getUpstream upstreamID = some u ∧
      (∀ p ∈ u.backends, (w.heap p).id = backendID → (w.heap p).disconnect = true) ∧
      ∀ (routingOrder : List (String × RoutingRule)) (rnd : Nat) (req : Request)
        (rule : RoutingRule) (p : Ptr),
        findRoutingRule w.mgr.config.routing routingOrder req.path = some rule →
        rule.upstream = upstreamID →
        handleRequest w.heap w.mgr.config w.um routingOrder req ⟨sortSlice, rnd⟩ = .forward p →
        (w.heap p).id ≠ backendID := by
  obtain ⟨u', q, hu', hq, hqid, rfl⟩ := disconnectBackend_eq_ok hdis
  rw [hu] at hu'
  cases hu'
  have hw₁ : w₁ = { w₀ with heap := w₀.heap.modify q Backend.markForDisconnect } := by
    simp only [World.step, hdis, Option.some.injEq] at hstep
    exact hstep.symm
  subst hw₁
  have hbelow := (hr.bounded hsort).um upstreamID u hu
  have hqu : q ∈ u.backends := (List.mem_filter.mp hq).1
  obtain ⟨-, hum, hev⟩ := hrun.keeps
  have hid : ∀ p ∈ u.backends, (w.heap p).id = (w₀.heap p).id := fun p hp =>
    (hev p (hbelow p hp)).id.trans (by simp [Heap.modify_apply]; split_ifs <;> rfl)
  have hmarked : ∀ p ∈ u.backends, (w.heap p).id = backendID → (w.heap p).disconnect = true := by
    intro p hp hpid
    obtain rfl : p = q :=
      List.inj_on_of_nodup_map huniq hp hqu (by rw [← hid p hp, hpid, hqid])
    exact (hev p (hbelow p hp)).mark (by simp [Backend.markForDisconnect])
  refine ⟨hum _ _ hu, hmarked, fun routingOrder rnd req rule p hrule hname hd hpid => ?_⟩
  obtain ⟨rule', upstream, hrule', hup, hp, havail⟩ := handleRequest_eq_forward (hsort rnd) hd
  rw [hrule] at hrule'
  cases hrule'
  rw [hname, hum _ _ hu] at hup
  cases hup
  have := ((w.heap p).available_iff.mp havail).2.1
  rw [hmarked p hp hpid] at this
  cases this

theorem disconnected_backend_never_chosen_sample :
    let sortSlice := (mergeSortEnv 0).sortSlice
    let w₀ := (bootRun sortSlice (fun _ => true) sampleDoc sampleOrder sampleRouting sampleOrder
      []).getD default
    let w₁ := (w₀.step sortSlice (.disconnect "default" "a")).getD default
    let u : Upstream := ⟨"default", [0]⟩
    (∀ rnd, (SelectEnv.mk sortSlice rnd).Sorts) ∧ Reachable sortSlice w₀ ∧
      w₀.um.getUpstream "default" = some u ∧ (u.backends.map fun p => (w₀.heap p).id).Nodup ∧
      disconnectBackend w₀.heap w₀.um "default" "a" = .ok (w₀.heap.modify 0 Backend.markForDisconnect) ∧
      w₀.step sortSlice (.disconnect "default" "a") = some w₁ ∧ Steps sortSlice w₁ w₁ ∧
      w₁.um.getUpstream "default" = some u ∧
      (∀ p ∈ u.backends, (w₁.heap p).id = "a" → (w₁.heap p).disconnect = true) ∧
      ∀ (routingOrder : List (String × RoutingRule)) (rnd : Nat) (req : Request)
        (rule : RoutingRule) (p : Ptr),
        findRoutingRule w₁.mgr.config.routing routingOrder req.path = some rule →
        rule.upstream = "default" →
        handleRequest w₁.heap w₁.mgr.config w₁.um routingOrder req ⟨sortSlice, rnd⟩ = .forward p →
        (w₁.heap p).id ≠ "a" := by
  intro sortSlice w₀ w₁ u
  have hr : Reachable sortSlice w₀ := (ReachableWithin.of_bootRun (by decide)).reachable
  have hu : w₀.um.getUpstream "default" = some u := by decide
  have huniq : (u.backends.map fun p => (w₀.heap p).id).Nodup := by decide
  have hdis : disconnectBackend w₀.heap w₀.um "default" "a" =
      .ok (w₀.heap.modify 0 Backend.markForDisconnect) := rfl
  have hstep : w₀.step sortSlice (.disconnect "default" "a") = some w₁ := rfl
  exact ⟨mergeSortEnv_sorts, hr, hu, huniq, hdis, hstep, .refl,
    disconnected_backend_never_chosen mergeSortEnv_sorts hr hu huniq hdis hstep .refl⟩

theorem World.drain_step (hsort : ∀ rnd, (SelectEnv.mk sortSlice rnd).Sorts) {w w' : World}
    {a : Action} {p : Ptr} (hmark : (w.heap p).disconnect = true) (h : w.step sortSlice a = some w')
    (hp : p < w.next) :
    (w'.heap p).connections + w'.window p ≤ (w.heap p).connections + w.window p := by
  rcases step_counters h with ⟨hconn, -, hcount⟩ | ⟨i, ph, ph', st, hph, hr, hreqs, -⟩ |
    ⟨hreqs, hheap, -⟩
  · rw [window, window, hconn, hcount _ fun _ => rfl]
  · have hcount := congrArg (Nat.cast : Nat → Int) (countP_set_add (Phase.isSelected p) ph' hph)
    push_cast at hcount
    unfold window
    rw [hreqs]
    rcases requestStep_window hr p with hc | ⟨req, routingOrder, rnd, rfl, -, rfl, hd⟩
    · omega
    · obtain ⟨-, -, -, -, -, havail⟩ := handleRequest_eq_forward (hsort rnd) hd
      have hfree := ((w.heap p).available_iff.mp havail).2.1
      rw [hmark] at hfree
      cases hfree
  · rw [window, window, hreqs, hheap p hp]

/-- A marked backend drains. Along any run that starts with the object at `p` marked for
disconnect, its counter plus the number of requests that chose it and have not run
`IncConnections` never exceeds its value at the start: no dispatch chooses it, and each
holder's deferred decrement only lowers the counter. -/
theorem marked_backend_drains (hsort : ∀ rnd, (SelectEnv.mk sortSlice rnd).Sorts) {w₀ w : World}
    (hs : Steps sortSlice w₀ w) {p : Ptr} (hp : p < w₀.next) (hmark : (w₀.heap p).disconnect = true) :
    (w.heap p).connections + w.window p ≤ (w₀.heap p).connections + w₀.window p := by
  induction hs with
  | refl => exact le_rfl
  | tail hs₀ hstep ih =>
    obtain ⟨a, hstep⟩ := hstep
    obtain ⟨hnext, -, hev⟩ := Steps.keeps hs₀
    exact le_trans (World.drain_step hsort ((hev p hp).mark hmark) hstep (lt_of_lt_of_le hp hnext)) ih

theorem marked_backend_drains_sample :
    let sortSlice := (mergeSortEnv 0).sortSlice
    let w₀ := (bootRun sortSlice (fun _ => true) sampleDoc sampleOrder sampleRouting sampleOrder
      [.disconnect "default" "a"]).getD default
    let w := (w₀.step sortSlice (.arrive sampleRequest)).getD default
    (∀ rnd, (SelectEnv.mk sortSlice rnd).Sorts) ∧ Steps sortSlice w₀ w ∧ 0 < w₀.next ∧
      (w₀.heap 0).disconnect = true ∧
      (w.heap 0).connections + w.window 0 ≤ (w₀.heap 0).connections + w₀.window 0 := by
  intro sortSlice w₀ w
  have hs : Steps sortSlice w₀ w := .single ⟨.arrive sampleRequest, World.step_eq_getD (by decide)⟩
  have hmark : (w₀.heap 0).disconnect = true := by decide
  exact ⟨mergeSortEnv_sorts, hs, by decide, hmark, marked_backend_drains mergeSortEnv_sorts hs (by decide) hmark⟩

end SpeedMimi
