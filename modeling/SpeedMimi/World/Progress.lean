import SpeedMimi.World.Accounting
import SpeedMimi.World.Disconnect

/-! # The decrement loop

Two properties of the compare-and-swap loop of `DecConnections` in the running system.

Every phase of a request goroutine that has not finished has a step the goroutine can
take, and each of its steps lowers a rank that only other goroutines can raise: the
compare-and-swap fails only when another goroutine wrote the counter after the load. Run
alone, a goroutine therefore finishes, and no run of its own steps is longer than five:
dispatch, `IncConnections`, the upstream call, and one load and one successful swap.

A swap is attempted only from a positive load, so it never writes a negative counter: along
any run, a counter never falls below the lesser of its value and zero, which is what the
loop's comment asks of it.
-/

namespace SpeedMimi

open Proxy LoadBalancer

namespace Phase

def finished : Phase → Bool
  | done | rejected _ _ => true
  | _ => false

/-- An upper bound on the steps left to a goroutine that runs alone from heap `h`. A swap
against a stale load costs a failed swap and a fresh load and swap. -/
def rank (h : Heap) : Phase → Nat
  | start _ => 5
  | selected _ => 4
  | proxying _ => 3
  | decLoad _ => 2
  | decSwap p v => if (h p).connections = v then 1 else 3
  | done | rejected _ _ => 0

theorem rank_le_five (h : Heap) (ph : Phase) : ph.rank h ≤ 5 := by
  cases ph <;> simp only [rank] <;> (try split_ifs) <;> omega

theorem rank_pos {h : Heap} {ph : Phase} (hf : ph.finished = false) : 0 < ph.rank h := by
  cases ph <;> simp only [rank, finished] at hf ⊢ <;> first | omega | (split_ifs <;> omega) | cases hf

theorem rank_dispatch_lt (h : Heap) (d : Dispatch) : d.phase.rank h < 5 := by
  cases d <;> simp only [Dispatch.phase, rank] <;> omega

end Phase

namespace World

variable {sortSlice : List (Ptr × ℚ) → List (Ptr × ℚ)} {w w' : World}

theorem requestStep_rank_lt {ph ph' : Phase} {st : ReqStep} {h' : Heap}
    (h : w.requestStep sortSlice ph st = some (ph', h')) : ph'.rank h' < ph.rank w.heap := by
  rcases requestStep_eq_some h with ⟨req, routingOrder, rnd, rfl, -, rfl, -⟩ | ⟨p, rfl, rfl, -⟩ |
    ⟨p, rfl, rfl, -⟩ | ⟨p, rfl, rfl, ⟨-, rfl⟩ | ⟨-, rfl⟩⟩ | ⟨p, v, rfl, ⟨-, rfl, -⟩ | ⟨hne, rfl, rfl⟩⟩
  · exact Phase.rank_dispatch_lt _ _
  · show 3 < 4; omega
  · show 2 < 3; omega
  · show 0 < 2; omega
  · simp only [Phase.rank, if_true]; omega
  · exact Phase.rank_pos rfl
  · simp only [Phase.rank, if_neg hne]; omega

theorem requestStep_enabled {ph : Phase} (hf : ph.finished = false) :
    ∃ st r, w.requestStep sortSlice ph st = some r := by
  cases ph with
  | start req =>
    exact ⟨.dispatch w.mgr.config.routing.entries 0, _, if_pos (GoMap.isOrder_entries _)⟩
  | selected p => exact ⟨.inc, _, rfl⟩
  | proxying p => exact ⟨.respond .ok, _, rfl⟩
  | decLoad p => exact ⟨.decLoad, _, rfl⟩
  | decSwap p v =>
    refine ⟨.decSwap, ?_⟩
    simp only [requestStep]
    split <;> exact ⟨_, rfl⟩
  | done | rejected _ _ => cases hf

def rankOf (w : World) (i : Nat) : Nat := ((w.reqs[i]?).map (Phase.rank w.heap)).getD 0

theorem step_request_rankOf_lt {i : Nat} {st : ReqStep}
    (h : w.step sortSlice (.request i st) = some w') :
    w'.rankOf i < w.rankOf i ∧ w'.reqs.length = w.reqs.length := by
  obtain ⟨ph, ph', h', hph, hr, rfl⟩ := step_request_eq_some h
  have hi : i < w.reqs.length := (List.getElem?_eq_some_iff.mp hph).1
  refine ⟨?_, List.length_set _ _ _⟩
  simp only [rankOf, List.getElem?_set_self hi, hph, Option.map_some', Option.getD_some]
  exact requestStep_rank_lt hr

theorem step_request_of_enabled {i : Nat} {ph : Phase} (hph : w.reqs[i]? = some ph)
    (hf : ph.finished = false) : ∃ st w', w.step sortSlice (.request i st) = some w' := by
  obtain ⟨st, r, hr⟩ := @requestStep_enabled sortSlice w _ hf
  exact ⟨st, { w with reqs := w.reqs.set i r.1, heap := r.2 },
    by simp only [step, hph, hr, Option.map_some']⟩

theorem runWithin_cons_true {a : Action} {actions : List Action} :
    w.runWithin sortSlice (fun _ => true) (a :: actions) =
      (w.step sortSlice a).bind fun w₁ => w₁.runWithin sortSlice (fun _ => true) actions := by
  simp only [runWithin, if_true]
  cases w.step sortSlice a <;> rfl

theorem solo_run_length {i : Nat} {steps : List ReqStep}
    (h : w.runWithin sortSlice (fun _ => true) (steps.map (.request i)) = some w') :
    steps.length + w'.rankOf i ≤ w.rankOf i ∧ w'.reqs.length = w.reqs.length := by
  induction steps generalizing w with
  | nil =>
    cases h
    exact ⟨by simp, rfl⟩
  | cons st steps ih =>
    rw [List.map_cons, runWithin_cons_true] at h
    obtain ⟨w₁, h₁, hrun⟩ := Option.bind_eq_some.mp h
    obtain ⟨hlt, hlen⟩ := step_request_rankOf_lt h₁
    obtain ⟨ih₁, ih₂⟩ := ih hrun
    exact ⟨by simp only [List.length_cons]; omega, ih₂.trans hlen⟩

theorem solo_run_finishes {i : Nat} (hi : i < w.reqs.length) :
    ∃ steps : List ReqStep, ∃ w' ph,
      w.runWithin sortSlice (fun _ => true) (steps.map (.request i)) = some w' ∧
      w'.reqs[i]? = some ph ∧ ph.finished = true := by
  obtain ⟨r, hr⟩ : ∃ r, w.rankOf i = r := ⟨_, rfl⟩
  induction r using Nat.strong_induction_on generalizing w with
  | _ r ih =>
    obtain ⟨ph, hph⟩ : ∃ ph, w.reqs[i]? = some ph := ⟨_, List.getElem?_eq_getElem hi⟩
    cases hf : ph.finished
    · obtain ⟨st, w₁, h₁⟩ := @step_request_of_enabled sortSlice w _ _ hph hf
      obtain ⟨hlt, hlen⟩ := step_request_rankOf_lt h₁
      obtain ⟨steps, w', ph', hrun, hph', hf'⟩ := ih _ (hr ▸ hlt) (hlen ▸ hi) rfl
      refine ⟨st :: steps, w', ph', ?_, hph', hf'⟩
      rw [List.map_cons, runWithin_cons_true, h₁]
      exact hrun
    · exact ⟨[], w, ph, rfl, hph, hf⟩

theorem rankOf_le_five (w : World) (i : Nat) : w.rankOf i ≤ 5 := by
  unfold rankOf
  cases w.reqs[i]? with
  | none => exact Nat.zero_le _
  | some ph => exact Phase.rank_le_five _ _

end World

/-- A request goroutine run alone finishes: every run of its own steps is at most five
steps long and ends finished or with a step left to take, and some such run finishes it. -/
theorem request_finishes_alone {sortSlice : List (Ptr × ℚ) → List (Ptr × ℚ)} (w : World)
    {i : Nat} (hi : i < w.reqs.length) :
    (∀ (steps : List ReqStep) w', w.runWithin sortSlice (fun _ => true) (steps.map (.request i)) = some w' →
      steps.length ≤ 5 ∧
        ((∃ ph, w'.reqs[i]? = some ph ∧ ph.finished = true) ∨
          ∃ st w'', w'.step sortSlice (.request i st) = some w'')) ∧
      ∃ steps : List ReqStep, ∃ w' ph,
        w.runWithin sortSlice (fun _ => true) (steps.map (.request i)) = some w' ∧
        w'.reqs[i]? = some ph ∧ ph.finished = true := by
  refine ⟨fun steps w' hrun => ?_, World.solo_run_finishes hi⟩
  obtain ⟨hlen, hreqs⟩ := World.solo_run_length hrun
  have hi' : i < w'.reqs.length := hreqs ▸ hi
  obtain ⟨ph, hph⟩ : ∃ ph, w'.reqs[i]? = some ph := ⟨_, List.getElem?_eq_getElem hi'⟩
  refine ⟨by have := w.rankOf_le_five i; omega, ?_⟩
  cases hf : ph.finished
  · exact .inr (World.step_request_of_enabled hph hf)
  · exact .inl ⟨ph, hph, hf⟩

theorem request_finishes_alone_sample :
    0 < ({ (default : World) with reqs := [.decSwap 0 1] } : World).reqs.length ∧
      ((∀ (steps : List ReqStep) w', ({ (default : World) with reqs := [.decSwap 0 1] } : World).runWithin id
          (fun _ => true) (steps.map (.request 0)) = some w' →
        steps.length ≤ 5 ∧
          ((∃ ph, w'.reqs[0]? = some ph ∧ ph.finished = true) ∨
            ∃ st w'', w'.step id (.request 0 st) = some w'')) ∧
        ∃ steps : List ReqStep, ∃ w' ph, ({ (default : World) with reqs := [.decSwap 0 1] } : World).runWithin id
          (fun _ => true) (steps.map (.request 0)) = some w' ∧
          w'.reqs[0]? = some ph ∧ ph.finished = true) :=
  ⟨by decide, request_finishes_alone _ (by decide)⟩

namespace World

variable {sortSlice : List (Ptr × ℚ) → List (Ptr × ℚ)} {w w' : World} {a : Action}

/-- Every pending compare-and-swap goes from a positive load. -/
def SwapsPositive (w : World) : Prop := ∀ ph ∈ w.reqs, ∀ p v, ph = .decSwap p v → 0 < v

theorem requestStep_swapPositive {ph ph' : Phase} {st : ReqStep} {h' : Heap}
    (hr : w.requestStep sortSlice ph st = some (ph', h')) {p : Ptr} {v : Int}
    (hv : ph' = .decSwap p v) : 0 < v := by
  rcases requestStep_eq_some hr with ⟨req, routingOrder, rnd, -, -, rfl, -⟩ | ⟨q, -, rfl, -⟩ |
    ⟨q, -, rfl, -⟩ | ⟨q, -, -, ⟨-, rfl⟩ | ⟨hpos, rfl⟩⟩ | ⟨q, v, -, ⟨-, rfl, -⟩ | ⟨-, rfl, -⟩⟩ <;>
    try cases hv
  · cases hd : handleRequest w.heap w.mgr.config w.um routingOrder req ⟨sortSlice, rnd⟩ <;>
      rw [hd] at hv <;> cases hv
  · exact hpos

theorem SwapsPositive.step (hs : w.SwapsPositive) (h : w.step sortSlice a = some w') :
    w'.SwapsPositive := by
  rcases step_reqs h with hreqs | ⟨req, -, hreqs⟩ | ⟨i, ph, ph', st, -, hr, hreqs⟩ <;>
    intro ph'' hmem p v hv <;> rw [hreqs] at hmem
  · exact hs ph'' hmem p v hv
  · rcases List.mem_append.mp hmem with hmem | hmem
    · exact hs ph'' hmem p v hv
    · rw [List.mem_singleton.mp hmem] at hv
      cases hv
  · rcases List.mem_or_eq_of_mem_set hmem with hmem | rfl
    · exact hs ph'' hmem p v hv
    · exact requestStep_swapPositive hr hv

theorem SwapsPositive.boot {doc : Config Backend} {backendsOrder : List (String × List Ptr)}
    {routingOrder : List (String × RoutingRule)} {order : List (String × List Ptr)}
    (h : World.boot doc backendsOrder routingOrder order = some w) : w.SwapsPositive := by
  intro ph hph
  rw [(boot_reqs h).1] at hph
  cases hph

theorem step_counter_floor (hs : w.SwapsPositive) (h : w.step sortSlice a = some w') {p : Ptr}
    (hp : p < w.next) :
    (w.heap p).connections ≤ (w'.heap p).connections ∨ 0 ≤ (w'.heap p).connections ∨
      (w.heap p).connections = maxInt64 ∧ (w'.heap p).connections = minInt64 := by
  rcases step_counters h with ⟨hconn, -⟩ | ⟨i, ph, ph', st, hph, hr, -, -⟩ | ⟨-, hheap, -⟩
  · exact .inl (hconn p).ge
  · rcases requestStep_eq_some hr with ⟨-, -, -, -, -, -, hh⟩ | ⟨q, -, -, hh⟩ | ⟨-, -, -, hh⟩ |
      ⟨-, -, hh, -⟩ | ⟨q, v, rfl, ⟨hcas, -, hh⟩ | ⟨-, -, hh⟩⟩ <;> rw [hh]
    · exact .inl le_rfl
    · rw [Heap.modify_apply]
      split_ifs
      · rw [Backend.incConnections_connections]
        by_cases hmax : (w.heap p).connections = maxInt64
        · exact .inr (.inr ⟨hmax, by rw [hmax]; exact if_pos rfl⟩)
        · exact .inl (by rw [int64Succ_of_ne hmax]; exact Int.le_add_one le_rfl)
      · exact .inl le_rfl
    · exact .inl le_rfl
    · exact .inl le_rfl
    · have hpos := hs _ (List.getElem?_mem hph) q v rfl
      rw [Heap.modify_apply]
      split_ifs
      · exact .inr (.inl (Int.sub_nonneg_of_le hpos))
      · exact .inl le_rfl
    · exact .inl le_rfl
  · exact .inl (by rw [hheap p hp])

end World

theorem Reachable.swapsPositive {sortSlice : List (Ptr × ℚ) → List (Ptr × ℚ)} {w : World}
    (hr : Reachable sortSlice w) : w.SwapsPositive := by
  induction hr with
  | boot hb => exact World.SwapsPositive.boot hb
  | step _ hs ih => exact ih.step hs

end SpeedMimi
