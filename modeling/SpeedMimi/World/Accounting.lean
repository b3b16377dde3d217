import SpeedMimi.World.Frame

/-! # Connection accounting

`IncConnections` and the deferred `DecConnections` of `proxyRequest`, interleaved with
every other step. The counter of an object decoded with a zero count is the number of
requests holding a connection of it (`Balanced`): its `AddInt64` never wraps, as each holder
is a running handler call and fewer than `MaxInt64` of those run (`Admitted`); the floor
branch of `DecConnections` is never taken on it and no decrement is lost. The choice of a backend
and its increment are separate steps, so `MaxConn` is a soft limit: the counter can pass it
by the requests that chose the backend and have not yet incremented.
-/

namespace SpeedMimi

open Proxy LoadBalancer

theorem countP_set_add {α : Type} {l : List α} {i : Nat} {a : α} (f : α → Bool) (b : α)
    (h : l[i]? = some a) :
    (l.set i b).countP f + (if f a then 1 else 0) = l.countP f + (if f b then 1 else 0) := by
  obtain ⟨hi, rfl⟩ := List.getElem?_eq_some_iff.mp h
  rw [List.countP_set f l i b hi]
  have := List.boole_getElem_le_countP f l i hi
  omega

@[simp] theorem Proxy.Dispatch.holds_phase (d : Dispatch) (p : Ptr) : d.phase.holds p = false := by
  cases d <;> rfl

theorem initUpstreams_connections (h : Heap) (um : UpstreamManager)
    (order : List (String × List Ptr)) (p : Ptr) :
    ((initUpstreams h um order).1 p).connections = (h p).connections := by
  rcases @initUpstreams_heap h um order p with hp | hp <;> rw [hp]
  rfl

namespace World

variable {sortSlice : List (Ptr × ℚ) → List (Ptr × ℚ)} {w w' : World} {a : Action}

/-- The requests holding a connection of `p`. -/
def inflight (w : World) (p : Ptr) : Nat := w.reqs.countP (Phase.holds p)

/-- The requests between their choice of `p` and their `IncConnections`. -/
def window (w : World) (p : Ptr) : Nat := w.reqs.countP (Phase.isSelected p)

theorem step_counters (h : w.step sortSlice a = some w') :
    ((∀ p, (w'.heap p).connections = (w.heap p).connections) ∧ w'.base = w.base ∧
      ∀ f : Phase → Bool, (∀ req, f (.start req) = false) → w'.reqs.countP f = w.reqs.countP f) ∨
    (∃ i ph ph' st, w.reqs[i]? = some ph ∧ w.requestStep sortSlice ph st = some (ph', w'.heap) ∧
      w'.reqs = w.reqs.set i ph' ∧ w'.base = w.base) ∨
    (w'.reqs = w.reqs ∧ (∀ p, p < w.next → w'.heap p = w.heap p) ∧
      ∀ p, w'.base p = if w.next ≤ p then (w'.heap p).connections else w.base p) := by
  have same : ∀ h' : Heap, (∀ p, (h' p).connections = (w.heap p).connections) →
      ((∀ p, ((({ w with heap := h' } : World)).heap p).connections = (w.heap p).connections) ∧
        ({ w with heap := h' } : World).base = w.base ∧
        ∀ f : Phase → Bool, (∀ req, f (.start req) = false) →
          ({ w with heap := h' } : World).reqs.countP f = w.reqs.countP f) :=
    fun h' hh => ⟨hh, rfl, fun _ _ => rfl⟩
  cases a with
  | arrive req =>
    obtain ⟨-, rfl⟩ := step_arrive_eq_some h
    exact .inl ⟨fun _ => rfl, rfl, fun f hf => by simp [hf]⟩
  | request i st =>
    obtain ⟨ph, ph', h', hph, hr, rfl⟩ := step_request_eq_some h
    exact .inr (.inl ⟨i, ph, ph', st, hph, hr, rfl, rfl⟩)
  | disconnect upstreamID backendID =>
    rcases step_disconnect_eq_some h with rfl | ⟨h', hok, rfl⟩
    · exact .inl ⟨fun _ => rfl, rfl, fun _ _ => rfl⟩
    obtain ⟨-, q, -, -, -, rfl⟩ := disconnectBackend_eq_ok hok
    refine .inl (same _ fun p => ?_)
    rw [Heap.modify_apply]
    split_ifs <;> rfl
  | updateBackend method body =>
    cases h
    refine .inl (same _ fun p => ?_)
    rcases handleUpdateBackend_heap w.heap w.um method body with hh | ⟨-, -, q, m, -, -, hh⟩ <;>
      rw [hh]
    rw [Heap.modify_apply]
    split_ifs <;> rfl
  | updateConfig doc backendsOrder routingOrder write =>
    rcases step_updateConfig_eq_some h with rfl | ⟨d, -, hu⟩
    · exact .inl ⟨fun _ => rfl, rfl, fun _ _ => rfl⟩
    obtain ⟨-, -, rfl⟩ := updateConfig_eq_some hu
    exact .inr (.inr ⟨rfl, fun p hp => place_heap_of_lt hp d, fun _ => rfl⟩)
  | subscribe =>
    obtain ⟨-, rfl⟩ := step_subscribe_eq_some h
    exact .inl ⟨fun _ => rfl, rfl, fun _ _ => rfl⟩
  | receive =>
    obtain ⟨ch, c, -, -, rfl⟩ := step_receive_eq_some h
    exact .inl ⟨fun _ => rfl, rfl, fun _ _ => rfl⟩
  | apply order =>
    obtain ⟨ch, c, -, -, rfl⟩ := step_apply_eq_some h
    exact .inl ⟨initUpstreams_connections _ _ _, rfl, fun _ _ => rfl⟩

theorem requestStep_dispatch_heap {ph ph' : Phase} {routingOrder : List (String × RoutingRule)}
    {rnd : Nat} {h' : Heap}
    (h : w.requestStep sortSlice ph (.dispatch routingOrder rnd) = some (ph', h')) : h' = w.heap := by
  cases ph <;> simp only [requestStep, reduceCtorEq] at h
  split_ifs at h
  cases h
  rfl

theorem requestStep_connections {ph ph' : Phase} {st : ReqStep} {h' : Heap}
    (hr : w.requestStep sortSlice ph st = some (ph', h')) (p : Ptr) :
    (h' p).connections + (if ph.holds p then 1 else 0) =
        (w.heap p).connections + (if ph'.holds p then 1 else 0) ∨
      ph = .decLoad p ∧ ph' = .done ∧ (w.heap p).connections ≤ 0 ∧ h' = w.heap ∨
      ph = .selected p ∧ ph' = .proxying p ∧ (w.heap p).connections = maxInt64 := by
  rcases requestStep_eq_some hr with ⟨req, -, -, rfl, -, rfl, rfl⟩ | ⟨q, rfl, rfl, rfl⟩ |
    ⟨q, rfl, rfl, rfl⟩ | ⟨q, rfl, rfl, ⟨hfloor, rfl⟩ | ⟨-, rfl⟩⟩ |
    ⟨q, v, rfl, ⟨hcas, rfl, rfl⟩ | ⟨-, rfl, rfl⟩⟩
  · exact .inl (by rw [Dispatch.holds_phase]; rfl)
  · by_cases hq : p = q
    · subst hq
      by_cases hmax : (w.heap p).connections = maxInt64
      · exact .inr (.inr ⟨rfl, rfl, hmax⟩)
      · exact .inl (by simp [Phase.holds, int64Succ_of_ne hmax])
    · exact .inl (by simp [Phase.holds, hq, Ne.symm hq])
  · exact .inl (by simp [Phase.holds])
  · by_cases hq : q = p
    · subst hq
      exact .inr (.inl ⟨rfl, rfl, hfloor, rfl⟩)
    · exact .inl (by simp [Phase.holds, hq])
  · exact .inl (by simp [Phase.holds])
  · by_cases hq : p = q
    · subst hq
      exact .inl (by simp [Phase.holds, hcas])
    · exact .inl (by simp [Phase.holds, hq, Ne.symm hq])
  · exact .inl (by simp [Phase.holds])

theorem requestStep_window {ph ph' : Phase} {st : ReqStep} {h' : Heap}
    (hr : w.requestStep sortSlice ph st = some (ph', h')) (p : Ptr) :
    (h' p).connections + (if ph'.isSelected p then 1 else 0) ≤
        (w.heap p).connections + (if ph.isSelected p then 1 else 0) ∨
      ∃ req routingOrder rnd, ph = .start req ∧ h' = w.heap ∧ ph' = .selected p ∧
        handleRequest w.heap w.mgr.config w.um routingOrder req ⟨sortSlice, rnd⟩ = .forward p := by
  rcases requestStep_eq_some hr with ⟨req, routingOrder, rnd, rfl, -, rfl, rfl⟩ |
    ⟨q, rfl, rfl, rfl⟩ | ⟨q, rfl, rfl, rfl⟩ | ⟨q, rfl, rfl, ⟨-, rfl⟩ | ⟨-, rfl⟩⟩ |
    ⟨q, v, rfl, ⟨hcas, rfl, rfl⟩ | ⟨-, rfl, rfl⟩⟩
  · cases hd : handleRequest w.heap w.mgr.config w.um routingOrder req ⟨sortSlice, rnd⟩ with
    | reject status message => exact .inl (by simp [Dispatch.phase, Phase.isSelected])
    | forward q =>
      by_cases hq : q = p
      · subst hq
        exact .inr ⟨req, routingOrder, rnd, rfl, rfl, rfl, hd⟩
      · exact .inl (by simp [Dispatch.phase, Phase.isSelected, hq])
  · by_cases hq : p = q
    · subst hq
      exact .inl (by simpa [Phase.isSelected] using int64Succ_le _)
    · exact .inl (by simp [Phase.isSelected, hq, Ne.symm hq])
  · exact .inl (by simp [Phase.isSelected])
  · exact .inl (by simp [Phase.isSelected])
  · exact .inl (by simp [Phase.isSelected])
  · refine .inl ?_
    by_cases hq : p = q
    · subst hq
      simp only [Heap.modify_self, Phase.isSelected, Bool.false_eq_true, if_false]
      omega
    · simp [Phase.isSelected, hq]
  · exact .inl (by simp [Phase.isSelected])

theorem countP_eq_zero_of_next_le (hb : w.Bounded) {p : Ptr} (hp : w.next ≤ p) (f : Phase → Bool)
    (hf : ∀ ph, f ph = true → ph.ptr? = some p) : w.reqs.countP f = 0 := by
  rw [List.countP_eq_zero]
  intro ph hph hfph
  exact absurd (hb.reqs ph hph p (hf ph hfph)) (not_lt.mpr hp)

theorem step_reqs (h : w.step sortSlice a = some w') :
    w'.reqs = w.reqs ∨ (∃ req, (w.running : Int) < maxInt64 ∧ w'.reqs = w.reqs ++ [.start req]) ∨
      ∃ i ph ph' st, w.reqs[i]? = some ph ∧ w.requestStep sortSlice ph st = some (ph', w'.heap) ∧
        w'.reqs = w.reqs.set i ph' := by
  cases a with
  | arrive req =>
    obtain ⟨hrun, rfl⟩ := step_arrive_eq_some h
    exact .inr (.inl ⟨req, hrun, rfl⟩)
  | request i st =>
    obtain ⟨ph, ph', h', hph, hr, rfl⟩ := step_request_eq_some h
    exact .inr (.inr ⟨i, ph, ph', st, hph, hr, rfl⟩)
  | disconnect upstreamID backendID =>
    rcases step_disconnect_eq_some h with rfl | ⟨-, -, rfl⟩ <;> exact .inl rfl
  | updateBackend method body => cases h; exact .inl rfl
  | updateConfig doc backendsOrder routingOrder write =>
    rcases step_updateConfig_eq_some h with rfl | ⟨d, -, hu⟩
    · exact .inl rfl
    obtain ⟨-, -, rfl⟩ := updateConfig_eq_some hu
    exact .inl rfl
  | subscribe =>
    obtain ⟨-, rfl⟩ := step_subscribe_eq_some h
    exact .inl rfl
  | receive =>
    obtain ⟨-, -, -, -, rfl⟩ := step_receive_eq_some h
    exact .inl rfl
  | apply order =>
    obtain ⟨-, -, -, -, rfl⟩ := step_apply_eq_some h
    exact .inl rfl

theorem requestStep_running {ph ph' : Phase} {st : ReqStep} {h' : Heap}
    (hr : w.requestStep sortSlice ph st = some (ph', h')) : ph.running = true := by
  rcases requestStep_eq_some hr with ⟨-, -, -, rfl, -⟩ | ⟨-, rfl, -⟩ | ⟨-, rfl, -⟩ | ⟨-, rfl, -⟩ |
    ⟨-, -, rfl, -⟩ <;> rfl

theorem countP_holds_add_isSelected_le (p : Ptr) (l : List Phase) :
    l.countP (Phase.holds p) + l.countP (Phase.isSelected p) ≤ l.countP Phase.running := by
  induction l with
  | nil => exact le_rfl
  | cons ph l ih =>
    have hph : (if ph.holds p then 1 else 0) + (if ph.isSelected p then 1 else 0) ≤
        if ph.running then 1 else 0 := by
      cases ph <;> simp only [Phase.holds, Phase.isSelected, Phase.running, Bool.false_eq_true,
        if_false, if_true] <;> (try split_ifs) <;> decide
    simp only [List.countP_cons]
    omega

theorem inflight_lt_running {i : Nat} {p : Ptr} (hph : w.reqs[i]? = some (.selected p)) :
    w.inflight p < w.running := by
  have hsel : 0 < w.window p :=
    List.countP_pos_iff.mpr ⟨_, List.getElem?_mem hph, by simp [Phase.isSelected]⟩
  have := countP_holds_add_isSelected_le p w.reqs
  unfold inflight window running at *
  omega

/-- At most `MaxInt64` handler calls run. -/
def Admitted (w : World) : Prop := (w.running : Int) ≤ maxInt64

theorem Admitted.step (hadm : w.Admitted) (h : w.step sortSlice a = some w') : w'.Admitted := by
  unfold Admitted running at *
  rcases step_reqs h with hreqs | ⟨req, hrun, hreqs⟩ | ⟨i, ph, ph', st, hph, hr, hreqs⟩ <;>
    rw [hreqs]
  · exact hadm
  · unfold running at hrun
    simp only [List.countP_append, List.countP_singleton, Phase.running, if_true]
    push_cast
    omega
  · have hcount := countP_set_add Phase.running ph' hph
    rw [requestStep_running hr, if_pos rfl] at hcount
    have hle : (w.reqs.set i ph').countP Phase.running ≤ w.reqs.countP Phase.running := by
      split_ifs at hcount <;> omega
    exact le_trans (Int.ofNat_le.mpr hle) hadm

/-- Balanced accounting: an object decoded with a zero count holds exactly the connections
requests hold. -/
def Balanced (w : World) : Prop := ∀ p, w.base p = 0 → (w.heap p).connections = w.inflight p

theorem Balanced.step (hb : w.Bounded) (hadm : w.Admitted) (hbal : w.Balanced)
    (h : w.step sortSlice a = some w') : w'.Balanced := by
  rcases step_counters h with ⟨hconn, hbase, hcount⟩ | ⟨i, ph, ph', st, hph, hr, hreqs, hbase⟩ |
    ⟨hreqs, hheap, hbase⟩
  · intro p hp
    rw [hbase] at hp
    rw [hconn, hbal p hp, inflight, inflight, hcount _ fun _ => rfl]
  · intro p hp
    rw [hbase] at hp
    have hold := hbal p hp
    have hcount := countP_set_add (Phase.holds p) ph' hph
    unfold inflight at hold ⊢
    rw [hreqs]
    rcases requestStep_connections hr p with hc | ⟨rfl, rfl, hfloor, -⟩ | ⟨rfl, -, hmax⟩
    · have hcount := congrArg (Nat.cast : Nat → Int) hcount
      push_cast at hcount
      omega
    · simp [Phase.holds] at hcount
      omega
    · -- the wrap needs `MaxInt64` holders besides the running request that chose `p`
      have hlt := inflight_lt_running hph
      unfold Admitted at hadm
      unfold inflight at hlt
      omega
  · intro p hp
    rw [hbase] at hp
    unfold inflight
    rw [hreqs]
    by_cases hle : w.next ≤ p
    · rw [if_pos hle] at hp
      rw [hp, countP_eq_zero_of_next_le hb hle (Phase.holds p) fun _ => Phase.ptr?_of_holds]
      rfl
    · rw [if_neg hle] at hp
      rw [hheap p (not_le.mp hle)]
      exact hbal p hp

theorem boot_reqs {doc : Config Backend} {backendsOrder : List (String × List Ptr)}
    {routingOrder : List (String × RoutingRule)} {order : List (String × List Ptr)}
    (h : World.boot doc backendsOrder routingOrder order = some w) :
    w.reqs = [] ∧ ∀ p, w.base p = (w.heap p).connections := by
  unfold World.boot at h
  dsimp only at h
  split at h
  · cases h
  split_ifs at h
  cases h
  exact ⟨rfl, fun _ => rfl⟩

theorem Admitted.boot {doc : Config Backend} {backendsOrder : List (String × List Ptr)}
    {routingOrder : List (String × RoutingRule)} {order : List (String × List Ptr)}
    (h : World.boot doc backendsOrder routingOrder order = some w) : w.Admitted := by
  rw [Admitted, running, (boot_reqs h).1]
  decide

theorem Balanced.boot {doc : Config Backend} {backendsOrder : List (String × List Ptr)}
    {routingOrder : List (String × RoutingRule)} {order : List (String × List Ptr)}
    (h : World.boot doc backendsOrder routingOrder order = some w) : w.Balanced := by
  intro p hp
  rw [inflight, (boot_reqs h).1, ← (boot_reqs h).2 p, hp]
  rfl

end World

open World

theorem Reachable.admitted {sortSlice : List (Ptr × ℚ) → List (Ptr × ℚ)} {w : World}
    (hr : Reachable sortSlice w) : w.Admitted := by
  induction hr with
  | boot hb => exact Admitted.boot hb
  | step _ hs ih => exact ih.step hs

theorem Reachable.balanced {sortSlice : List (Ptr × ℚ) → List (Ptr × ℚ)} {w : World}
    (hsort : ∀ rnd, (SelectEnv.mk sortSlice rnd).Sorts) (hr : Reachable sortSlice w) : w.Balanced := by
  induction hr with
  | boot hb => exact Balanced.boot hb
  | step hw hs ih => exact ih.step (hw.bounded hsort) hw.admitted hs

variable {sortSlice : List (Ptr × ℚ) → List (Ptr × ℚ)} {w : World}

/-- Balanced accounting. In every reachable state, under any interleaving, a backend
decoded with a zero counter holds exactly the requests that ran `IncConnections` on it and
have not completed their deferred `DecConnections`; a request about to run that decrement
always loads a positive counter, so the floor branch is never taken; with no request holding
it, it reads 0; and dispatching a request, also to a 404 or 503, writes no counter. -/
theorem connections_eq_inflight (hsort : ∀ rnd, (SelectEnv.mk sortSlice rnd).Sorts)
    (hr : Reachable sortSlice w) (p : Ptr) (hbase : w.base p = 0) :
    (w.heap p).connections = w.inflight p ∧
      (∀ i : Nat, w.reqs[i]? = some (.decLoad p) → 0 < (w.heap p).connections) ∧
      (w.inflight p = 0 → (w.heap p).connections = 0) ∧
      ∀ i routingOrder rnd w', w.step sortSlice (.request i (.dispatch routingOrder rnd)) = some w' →
        w'.heap = w.heap := by
  have hbal := hr.balanced hsort p hbase
  refine ⟨hbal, fun i hi => ?_, fun h0 => by rw [hbal, h0]; rfl, fun i routingOrder rnd w' h => ?_⟩
  · have hpos : 0 < w.inflight p :=
      List.countP_pos_iff.mpr ⟨_, List.getElem?_mem hi, by simp [Phase.holds]⟩
    omega
  · obtain ⟨ph, ph', h', -, hr', rfl⟩ := step_request_eq_some h
    exact requestStep_dispatch_heap hr'

theorem connections_eq_inflight_sample :
    let sortSlice := (mergeSortEnv 0).sortSlice
    let w := (bootRun sortSlice (fun _ => true) sampleDoc sampleOrder sampleRouting sampleOrder
      [.arrive sampleRequest, .request 0 (.dispatch sampleRouting 0), .request 0 .inc]).getD default
    (∀ rnd, (SelectEnv.mk sortSlice rnd).Sorts) ∧ Reachable sortSlice w ∧ w.base 0 = 0 ∧
      (w.heap 0).connections = w.inflight 0 ∧
      (∀ i : Nat, w.reqs[i]? = some (.decLoad 0) → 0 < (w.heap 0).connections) ∧
      (w.inflight 0 = 0 → (w.heap 0).connections = 0) ∧
      ∀ i routingOrder rnd w', w.step sortSlice (.request i (.dispatch routingOrder rnd)) = some w' →
        w'.heap = w.heap := by
  intro sortSlice w
  have hr : Reachable sortSlice w := (ReachableWithin.of_bootRun (by decide)).reachable
  have hbase : w.base 0 = 0 := by decide
  exact ⟨mergeSortEnv_sorts, hr, hbase, connections_eq_inflight mergeSortEnv_sorts hr 0 hbase⟩

theorem connections_add_window_step (hsort : ∀ rnd, (SelectEnv.mk sortSlice rnd).Sorts)
    {w' : World} {a : Action} {b : Ptr} {m : Int} {K : Nat} (hm : 0 < m) (hbd : w.Bounded)
    (hmax : (w.heap b).maxConn = m ∨ w.next ≤ b) (hK : w'.window b ≤ K)
    (hs : w.step sortSlice a = some w')
    (ih : w.base b = 0 → (w.heap b).connections + w.window b ≤ m - 1 + K) :
    w'.base b = 0 → (w'.heap b).connections + w'.window b ≤ m - 1 + K := by
  intro hb0
  rcases step_counters hs with ⟨hconn, hbase, hcount⟩ | ⟨i, ph, ph', st, hph, hr, hreqs, hbase⟩ |
    ⟨hreqs, hheap, hbase⟩
  · rw [hbase] at hb0
    rw [window, hconn, hcount _ fun _ => rfl]
    exact ih hb0
  · rw [hbase] at hb0
    have hold := ih hb0
    have hcount := countP_set_add (Phase.isSelected b) ph' hph
    unfold window at hold hK ⊢
    rw [hreqs] at hK ⊢
    rcases requestStep_window hr b with hc | ⟨req, routingOrder, rnd, rfl, hheap, rfl, hd⟩
    · have hcount := congrArg (Nat.cast : Nat → Int) hcount
      push_cast at hcount
      omega
    · obtain ⟨rule, upstream, -, hup, hb, havail⟩ := handleRequest_eq_forward (hsort rnd) hd
      rcases hmax with hmax | hnext
      · have hlimit := ((w.heap b).available_iff.mp havail).2.2
        rw [Backend.isConnectionLimitReached_eq_false_iff, hmax] at hlimit
        rw [hheap]
        omega
      · exact absurd (hbd.um _ _ hup b hb) (not_lt.mpr hnext)
  · have hw0 : w'.window b = w.window b := by rw [window, window, hreqs]
    rw [hw0]
    by_cases hle : w.next ≤ b
    · rw [hbase, if_pos hle] at hb0
      rw [hb0, window, countP_eq_zero_of_next_le hbd hle (Phase.isSelected b)
        fun _ => Phase.ptr?_of_isSelected]
      omega
    · rw [hbase, if_neg hle] at hb0
      rw [hheap b (not_le.mp hle)]
      exact ih hb0

/-- The soft limit. Along any run in which `MaxConn` of `b` stays `m > 0` and at most `K`
requests are ever between their choice of `b` and their `IncConnections` on it, a backend
decoded with a zero counter never holds more than `m - 1 + K` connections. -/
theorem connections_le_maxConn_add_window (hsort : ∀ rnd, (SelectEnv.mk sortSlice rnd).Sorts)
    {b : Ptr} {m : Int} {K : Nat} (hm : 0 < m)
    (hr : ReachableWithin sortSlice (fun w => ((w.heap b).maxConn = m ∨ w.next ≤ b) ∧ w.window b ≤ K) w)
    (hbase : w.base b = 0) : (w.heap b).connections ≤ m - 1 + K := by
  suffices key : w.base b = 0 → (w.heap b).connections + w.window b ≤ m - 1 + K by
    have := key hbase
    omega
  clear hbase
  induction hr with
  | @boot _ _ _ _ w₀ hb _ =>
    intro hb0
    rw [window, (boot_reqs hb).1, ← (boot_reqs hb).2 b, hb0]
    simp only [List.countP_nil]
    omega
  | step hw hs hQ' ih =>
    exact connections_add_window_step hsort hm (hw.reachable.bounded hsort) hw.holds.1 hQ'.2 hs ih

theorem connections_le_maxConn_add_window_sample :
    let sortSlice := (mergeSortEnv 0).sortSlice
    let q : World → Bool := fun w => decide (((w.heap 0).maxConn = 1000 ∨ w.next ≤ 0) ∧ w.window 0 ≤ 1)
    let w := (bootRun sortSlice q sampleDoc sampleOrder sampleRouting sampleOrder
      [.arrive sampleRequest, .request 0 (.dispatch sampleRouting 0), .request 0 .inc]).getD default
    (∀ rnd, (SelectEnv.mk sortSlice rnd).Sorts) ∧ (0 : Int) < 1000 ∧
      ReachableWithin sortSlice (fun w => ((w.heap 0).maxConn = 1000 ∨ w.next ≤ 0) ∧ w.window 0 ≤ 1) w ∧
      w.base 0 = 0 ∧ (w.heap 0).connections ≤ 1000 - 1 + 1 := by
  intro sortSlice q w
  have hr : ReachableWithin sortSlice (fun w => ((w.heap 0).maxConn = 1000 ∨ w.next ≤ 0) ∧ w.window 0 ≤ 1) w :=
    (ReachableWithin.of_bootRun (by decide)).mono fun _ h => of_decide_eq_true h
  have hbase : w.base 0 = 0 := by decide
  exact ⟨mergeSortEnv_sorts, by decide, hr, hbase,
    connections_le_maxConn_add_window mergeSortEnv_sorts (by decide) hr hbase⟩

end SpeedMimi
