import SpeedMimi.Backend
import Mathlib.Data.List.Nodup

/-! # The connection counter under concurrent calls

`IncConnections` is one `AddInt64`. `DecConnections` loops over a `LoadInt64` and a
`CompareAndSwapInt64` until the load sees a count of at most zero or the swap succeeds.
Goroutines that call the two methods on one backend interleave these atomic steps in any
order. A call is its program counter (`Call`). A state holds the backend, the calls
started so far, and the history of their invocation and return events.

Every write of the counter is the step that returns its call. So the calls linearize in
the order they return: run one after another as `inc` and the saturating `dec`, they give
the counter of every reachable state. The counter is an `int64`, and `AddInt64` wraps
`MaxInt64` to `MinInt64`: that is the one way below the lesser of zero and the start.
-/

namespace SpeedMimi.Counter

open scoped List

inductive Op
  | inc
  | dec
  deriving DecidableEq

/-- `inc` is the 64-bit successor; `dec` takes one from a positive count and leaves any
other as it is. -/
def Op.apply : Op → Int → Int
  | .inc, c => int64Succ c
  | .dec, c => if 0 < c then c - 1 else c

theorem int64Succ_eq_add (x : Int) : ∃ k : Int, int64Succ x = x + 1 + 2 ^ 64 * k := by
  unfold int64Succ
  split_ifs with hx
  · exact ⟨-1, by subst hx; decide⟩
  · exact ⟨0, by simp⟩

def replay (c : Int) (order : List (Nat × Op)) : Int :=
  order.foldl (fun c x => x.2.apply c) c

/-- Where a call stands in its method's body. -/
inductive Call
  | inc
  | decLoad
  | decSwap (current : Int)
  | incReturned
  | decFloored
  | decSwapped
  deriving DecidableEq

def Call.op : Call → Op
  | .inc | .incReturned => .inc
  | .decLoad | .decSwap _ | .decFloored | .decSwapped => .dec

def Call.returned : Call → Bool
  | .incReturned | .decFloored | .decSwapped => true
  | .inc | .decLoad | .decSwap _ => false

def Call.result (c : Call) : Option Op := if c.returned then some c.op else none

def Op.start : Op → Call
  | .inc => .inc
  | .dec => .decLoad

@[simp] theorem Op.start_op (op : Op) : op.start.op = op := by cases op <;> rfl

@[simp] theorem Op.start_result (op : Op) : op.start.result = none := by cases op <;> rfl

inductive Event
  | inv (t : Nat) (op : Op)
  | ret (t : Nat) (op : Op)
  deriving DecidableEq

structure State where
  backend : Backend
  calls : List Call
  history : List Event
  deriving DecidableEq

namespace State

def init (b : Backend) : State := ⟨b, [], []⟩

def invoke (s : State) (op : Op) : State :=
  ⟨s.backend, s.calls ++ [op.start], s.history ++ [.inv s.calls.length op]⟩

def resume (s : State) (t : Nat) (c : Call) : State := { s with calls := s.calls.set t c }

def finish (s : State) (t : Nat) (b : Backend) (c : Call) : State :=
  ⟨b, s.calls.set t c, s.history ++ [.ret t c.op]⟩

def step (s : State) (t : Nat) : Option State :=
  match s.calls[t]? with
  | some .inc => some (s.finish t s.backend.incConnections .incReturned)
  | some .decLoad =>
    match s.backend.decLoad with
    | none => some (s.finish t s.backend .decFloored)
    | some current => some (s.resume t (.decSwap current))
  | some (.decSwap current) =>
    match s.backend.compareAndSwap current (current - 1) with
    | some b => some (s.finish t b .decSwapped)
    | none => some (s.resume t .decLoad)
  | _ => none

inductive Action
  | invoke (op : Op)
  | step (t : Nat)
  deriving DecidableEq

def next (s : State) : Action → Option State
  | .invoke op => some (s.invoke op)
  | .step t => s.step t

def run (s : State) : List Action → Option State
  | [] => some s
  | a :: as => (s.next a).bind (run · as)

@[simp] theorem invoke_backend (s : State) (op : Op) : (s.invoke op).backend = s.backend := rfl
@[simp] theorem invoke_calls (s : State) (op : Op) :
    (s.invoke op).calls = s.calls ++ [op.start] := rfl
@[simp] theorem invoke_history (s : State) (op : Op) :
    (s.invoke op).history = s.history ++ [.inv s.calls.length op] := rfl
@[simp] theorem resume_backend (s : State) (t : Nat) (c : Call) :
    (s.resume t c).backend = s.backend := rfl
@[simp] theorem resume_calls (s : State) (t : Nat) (c : Call) :
    (s.resume t c).calls = s.calls.set t c := rfl
@[simp] theorem resume_history (s : State) (t : Nat) (c : Call) :
    (s.resume t c).history = s.history := rfl
@[simp] theorem finish_backend (s : State) (t : Nat) (b : Backend) (c : Call) :
    (s.finish t b c).backend = b := rfl
@[simp] theorem finish_calls (s : State) (t : Nat) (b : Backend) (c : Call) :
    (s.finish t b c).calls = s.calls.set t c := rfl
@[simp] theorem finish_history (s : State) (t : Nat) (b : Backend) (c : Call) :
    (s.finish t b c).history = s.history ++ [.ret t c.op] := rfl

theorem step_eq_some {s s' : State} {t : Nat} (h : s.step t = some s') :
    (s.calls[t]? = some .inc ∧ s' = s.finish t s.backend.incConnections .incReturned) ∨
    (s.calls[t]? = some .decLoad ∧ s.backend.connections ≤ 0 ∧
      s' = s.finish t s.backend .decFloored) ∨
    (s.calls[t]? = some .decLoad ∧ 0 < s.backend.connections ∧
      s' = s.resume t (.decSwap s.backend.connections)) ∨
    (∃ v, s.calls[t]? = some (.decSwap v) ∧ s.backend.connections = v ∧
      s' = s.finish t { s.backend with connections := v - 1 } .decSwapped) ∨
    (∃ v, s.calls[t]? = some (.decSwap v) ∧ s.backend.connections ≠ v ∧
      s' = s.resume t .decLoad) := by
  unfold step at h
  split at h
  · next hc => cases h; exact .inl ⟨hc, rfl⟩
  · next hc =>
    split at h
    · next hd => cases h; exact .inr <| .inl ⟨hc, Backend.decLoad_eq_none hd, rfl⟩
    · next v hd =>
      cases h
      obtain ⟨rfl, hpos⟩ := Backend.decLoad_eq_some hd
      exact .inr <| .inr <| .inl ⟨hc, hpos, rfl⟩
  · next v hc =>
    split at h
    · next b hb =>
      cases h
      obtain ⟨hv, rfl⟩ := Backend.compareAndSwap_eq_some hb
      exact .inr <| .inr <| .inr <| .inl ⟨v, hc, hv, rfl⟩
    · next hb =>
      cases h
      exact .inr <| .inr <| .inr <| .inr ⟨v, hc, Backend.compareAndSwap_eq_none hb, rfl⟩
  · cases h

end State

open State

inductive Reachable (s₀ : State) : State → Prop
  | refl : Reachable s₀ s₀
  | next {s s' : State} (a : Action) : Reachable s₀ s → s.next a = some s' → Reachable s₀ s'

theorem Reachable.run {s₀ s s' : State} {as : List Action} (hs : Reachable s₀ s)
    (h : s.run as = some s') : Reachable s₀ s' := by
  induction as generalizing s with
  | nil => cases h; exact hs
  | cons a as ih =>
    obtain ⟨s₁, h₁, h'⟩ := Option.bind_eq_some.mp h
    exact ih (hs.next a h₁) h'

def completed (h : List Event) : List (Nat × Op) :=
  h.filterMap fun
    | .ret t op => some (t, op)
    | .inv _ _ => none

@[simp] theorem completed_append (h h' : List Event) :
    completed (h ++ h') = completed h ++ completed h' :=
  List.filterMap_append ..

@[simp] theorem completed_inv (t : Nat) (op : Op) : completed [.inv t op] = [] := rfl

@[simp] theorem completed_ret (t : Nat) (op : Op) : completed [.ret t op] = [(t, op)] := rfl

@[simp] theorem mem_completed {h : List Event} {t : Nat} {op : Op} :
    (t, op) ∈ completed h ↔ Event.ret t op ∈ h := by
  simp only [completed, List.mem_filterMap]
  constructor
  · rintro ⟨_ | ⟨t', op'⟩, he, hf⟩
    · cases hf
    · cases hf; exact he
  · exact fun he => ⟨_, he, rfl⟩

@[simp] theorem replay_append_singleton (c : Int) (order : List (Nat × Op)) (x : Nat × Op) :
    replay c (order ++ [x]) = x.2.apply (replay c order) := by
  simp [replay]

/-- `order` linearizes the history `h` of a counter that starts at `c₀` and is now `c`: it
lists each call that returned in `h` once, with the operation it was invoked with; a call
that returned before another was invoked comes first; and its operations, run one after
another from `c₀`, give `c`. -/
structure Linearizes (h : List Event) (c₀ c : Int) (order : List (Nat × Op)) : Prop where
  mem_iff : ∀ t op, (t, op) ∈ order ↔ Event.ret t op ∈ h
  nodup : (order.map Prod.fst).Nodup
  invoked : ∀ t op, (t, op) ∈ order → [Event.inv t op, Event.ret t op] <+ h
  realTime : ∀ a opa b opb, [Event.ret a opa, Event.inv b opb] <+ h → (b, opb) ∈ order →
    [(a, opa), (b, opb)] <+ order
  replay_eq : replay c₀ order = c

theorem getElem?_concat_eq_some {α : Type} {l : List α} {a b : α} {t : Nat} :
    (l ++ [a])[t]? = some b ↔ l[t]? = some b ∨ (t = l.length ∧ a = b) := by
  rcases lt_trichotomy t l.length with h | rfl | h
  · rw [List.getElem?_append_left h, or_iff_left fun h' => Nat.ne_of_lt h h'.1]
  · rw [List.getElem?_concat_length, List.getElem?_eq_none le_rfl, Option.some_inj]
    exact ⟨fun h => .inr ⟨rfl, h⟩, fun h => h.elim (fun h => by cases h) And.right⟩
  · rw [List.getElem?_eq_none (by simpa using h), List.getElem?_eq_none h.le]
    exact ⟨fun h => (by cases h),
      fun h' => h'.elim (fun h => by cases h) fun h' => absurd h'.1 (Nat.ne_of_gt h)⟩

theorem map_set_of_eq {α : Type} {f : Call → α} {l : List Call} {t : Nat} {c c' : Call}
    (hc : l[t]? = some c) (h : f c' = f c) : (l.set t c').map f = l.map f := by
  apply List.ext_getElem?
  intro i
  rw [List.getElem?_map, List.getElem?_map, List.getElem?_set]
  split_ifs with hi hlt
  · subst hi; rw [hc, Option.map_some', Option.map_some', h]
  · subst hi; exact absurd (List.getElem?_eq_some_iff.mp hc).1 hlt
  · rfl

theorem count_set_of_returned {l : List Call} {t : Nat} {c : Call} (hc : l[t]? = some c)
    (hpend : c.returned = false) (x : Call) (hx : x.returned = true) (c' : Call) :
    (l.set t c').count x = l.count x + if c' = x then 1 else 0 := by
  obtain ⟨hlt, rfl⟩ := List.getElem?_eq_some_iff.mp hc
  have hne : l[t] ≠ x := fun h => by rw [h, hx] at hpend; cases hpend
  rw [List.count_set _ _ _ _ hlt]
  simp [hne]

theorem sublist_of_sublist_concat {α : Type} {l r : List α} {x : α} (h : l <+ r ++ [x])
    (hx : l.getLast? ≠ some x) : l <+ r := by
  obtain ⟨l₁, l₂, rfl, h₁, h₂⟩ := List.sublist_append_iff.mp h
  rcases List.sublist_singleton.mp h₂ with rfl | rfl
  · simpa using h₁
  · exact absurd (List.getLast?_concat l₁) hx

/-- What the history records of the calls: the invocation of every call started and the
return of every call returned, each once, every return after its invocation and with its
operation; and of two calls, one returned before the other was invoked returned first. -/
structure Recorded (s : State) : Prop where
  inv_mem : ∀ t op, Event.inv t op ∈ s.history ↔ (s.calls.map Call.op)[t]? = some op
  ret_mem : ∀ t op, Event.ret t op ∈ s.history ↔ (s.calls.map Call.result)[t]? = some (some op)
  nodup : s.history.Nodup
  invoked : ∀ t op, Event.ret t op ∈ s.history → [Event.inv t op, Event.ret t op] <+ s.history
  realTime : ∀ a opa b opb, [Event.ret a opa, Event.inv b opb] <+ s.history →
    Event.ret b opb ∈ s.history → [(a, opa), (b, opb)] <+ completed s.history

theorem Recorded.init (b : Backend) : Recorded (.init b) :=
  ⟨by simp [State.init], by simp [State.init], List.nodup_nil, by simp [State.init],
    by simp [State.init]⟩

theorem Recorded.invoke {s : State} (hr : Recorded s) (op : Op) : Recorded (s.invoke op) := by
  have hinv : ∀ op', Event.inv s.calls.length op' ∉ s.history := fun op' h => by
    have := (hr.inv_mem _ _).mp h
    rw [List.getElem?_eq_none (by simp)] at this
    cases this
  have hret : ∀ op', Event.ret s.calls.length op' ∉ s.history := fun op' h => by
    have := (hr.ret_mem _ _).mp h
    rw [List.getElem?_eq_none (by simp)] at this
    cases this
  refine ⟨fun t op' => ?_, fun t op' => ?_, ?_, fun t op' h => ?_, fun a opa b opb hsub hb => ?_⟩
  · simp only [invoke_history, invoke_calls, List.map_append, List.map_cons, List.map_nil,
      List.mem_append, List.mem_singleton, Event.inv.injEq, getElem?_concat_eq_some,
      hr.inv_mem, List.length_map, Op.start_op]
    exact or_congr_right (and_congr_right fun _ => eq_comm)
  · simp only [invoke_history, invoke_calls, List.map_append, List.map_cons, List.map_nil,
      List.mem_append, List.mem_singleton, getElem?_concat_eq_some, hr.ret_mem, Op.start_result,
      reduceCtorEq, and_false, or_false]
  · rw [invoke_history, ← List.concat_eq_append]
    exact hr.nodup.concat (hinv op)
  · simp only [invoke_history, List.mem_append, List.mem_singleton, reduceCtorEq, or_false] at h
    exact (hr.invoked t op' h).trans (List.sublist_append_left _ _)
  · simp only [invoke_history, List.mem_append, List.mem_singleton, reduceCtorEq, or_false] at hb
    have hb' : b ≠ s.calls.length := fun hb' => hret opb (hb' ▸ hb)
    have hsub' := sublist_of_sublist_concat hsub (by simp [hb'])
    simpa using hr.realTime a opa b opb hsub' hb

theorem Recorded.resume {s : State} {t : Nat} {c c' : Call} (hr : Recorded s)
    (hc : s.calls[t]? = some c) (hpend : c.returned = false) (hpend' : c'.returned = false)
    (hop : c'.op = c.op) : Recorded (s.resume t c') := by
  have hops := map_set_of_eq hc hop
  have hres : (s.calls.set t c').map Call.result = s.calls.map Call.result :=
    map_set_of_eq hc (by simp [Call.result, hpend, hpend'])
  exact ⟨by simpa only [resume_calls, resume_history, hops] using hr.inv_mem,
    by simpa only [resume_calls, resume_history, hres] using hr.ret_mem, hr.nodup, hr.invoked,
    hr.realTime⟩

theorem Recorded.finish {s : State} {t : Nat} {c c' : Call} (hr : Recorded s)
    (hc : s.calls[t]? = some c) (hpend : c.returned = false) (hret : c'.returned = true)
    (hop : c'.op = c.op) (b : Backend) : Recorded (s.finish t b c') := by
  have hops := map_set_of_eq hc hop
  have hlt := (List.getElem?_eq_some_iff.mp hc).1
  have hres : (s.calls.set t c').map Call.result =
      (s.calls.map Call.result).set t (some c'.op) := by
    rw [List.map_set]; simp [Call.result, hret]
  have hinv : Event.inv t c'.op ∈ s.history :=
    (hr.inv_mem _ _).mpr (by rw [List.getElem?_map, hc, hop]; rfl)
  have hfresh : ∀ op', Event.ret t op' ∉ s.history := fun op' h => by
    have := (hr.ret_mem _ _).mp h
    rw [List.getElem?_map, hc] at this
    simp [Call.result, hpend] at this
  refine ⟨fun t' op' => ?_, fun t' op' => ?_, ?_, fun t' op' h => ?_,
    fun a opa b opb hsub hb => ?_⟩
  · simp only [finish_history, finish_calls, hops, List.mem_append, List.mem_singleton,
      reduceCtorEq, or_false, hr.inv_mem]
  · simp only [finish_history, finish_calls, hres, List.mem_append, List.mem_singleton,
      Event.ret.injEq, hr.ret_mem, List.getElem?_set, List.length_map, hlt, if_true]
    by_cases ht : t = t'
    · subst ht
      have := hfresh op'
      rw [hr.ret_mem] at this
      simp only [this, false_or, if_true, Option.some.injEq, true_and, eq_comm]
    · simp only [ht, if_false, Ne.symm ht, false_and, or_false]
  · rw [finish_history, ← List.concat_eq_append]
    exact hr.nodup.concat (hfresh _)
  · rw [finish_history, List.mem_append, List.mem_singleton] at h
    rcases h with h | h
    · exact (hr.invoked t' op' h).trans (List.sublist_append_left _ _)
    · cases h
      exact (List.singleton_sublist.mpr hinv).append (List.Sublist.refl _)
  · rw [finish_history, List.mem_append, List.mem_singleton] at hb
    have hsub' := sublist_of_sublist_concat hsub (by simp)
    rw [finish_history, completed_append, completed_ret]
    rcases hb with hb | hb
    · exact (hr.realTime a opa b opb hsub' hb).trans (List.sublist_append_left _ _)
    · cases hb
      have ha : (a, opa) ∈ completed s.history :=
        mem_completed.mpr (hsub'.subset (List.mem_cons_self _ _))
      exact (List.singleton_sublist.mpr ha).append (List.Sublist.refl _)

theorem Recorded.step {s s' : State} {t : Nat} (hr : Recorded s) (h : s.step t = some s') :
    Recorded s' := by
  rcases step_eq_some h with ⟨hc, rfl⟩ | ⟨hc, -, rfl⟩ | ⟨hc, -, rfl⟩ | ⟨v, hc, -, rfl⟩ |
    ⟨v, hc, -, rfl⟩
  · exact hr.finish hc rfl (by rfl) (by rfl) _
  · exact hr.finish hc rfl (by rfl) (by rfl) _
  · exact hr.resume hc rfl rfl rfl
  · exact hr.finish hc rfl (by rfl) (by rfl) _
  · exact hr.resume hc rfl rfl rfl

theorem Reachable.recorded {b : Backend} {s : State} (hs : Reachable (.init b) s) :
    Recorded s := by
  induction hs with
  | refl => exact .init b
  | next a _ hnext ih =>
    cases a with
    | invoke op => cases hnext; exact ih.invoke op
    | step t => exact ih.step hnext

/-- The counter against the calls: every pending swap is of a positive count; the counter
is the replay of the calls that returned, and it is also, up to a multiple of `2 ^ 64`,
`c₀` plus the increments that returned minus the swaps that succeeded. -/
structure Counted (c₀ : Int) (s : State) : Prop where
  swap_pos : ∀ v, Call.decSwap v ∈ s.calls → 0 < v
  replay_eq : s.backend.connections = replay c₀ (completed s.history)
  count_eq : ∃ k : Int, s.backend.connections + s.calls.count .decSwapped =
    c₀ + s.calls.count .incReturned + 2 ^ 64 * k

theorem Counted.init (b : Backend) : Counted b.connections (.init b) :=
  ⟨by simp [State.init], rfl, ⟨0, by simp [State.init]⟩⟩

theorem Counted.invoke {c₀ : Int} {s : State} (hcnt : Counted c₀ s) (op : Op) :
    Counted c₀ (s.invoke op) := by
  refine ⟨fun v hv => ?_, by simpa using hcnt.replay_eq, ?_⟩
  · rw [invoke_calls, List.mem_append, List.mem_singleton] at hv
    rcases hv with hv | hv
    · exact hcnt.swap_pos v hv
    · cases op <;> cases hv
  · obtain ⟨k, hk⟩ := hcnt.count_eq
    exact ⟨k, by cases op <;> simpa using hk⟩

theorem Counted.resume {c₀ : Int} {s : State} {t : Nat} {c c' : Call} (hcnt : Counted c₀ s)
    (hc : s.calls[t]? = some c) (hpend : c.returned = false) (hpend' : c'.returned = false)
    (hpos : ∀ v, c' = .decSwap v → 0 < v) : Counted c₀ (s.resume t c') := by
  have hne : ∀ x : Call, x.returned = true → c' ≠ x := fun x hx h => by
    rw [h, hx] at hpend'; cases hpend'
  refine ⟨fun v hv => ?_, hcnt.replay_eq, ?_⟩
  · rcases List.mem_or_eq_of_mem_set hv with hv | hv
    · exact hcnt.swap_pos v hv
    · exact hpos v hv.symm
  · obtain ⟨k, hk⟩ := hcnt.count_eq
    refine ⟨k, ?_⟩
    simpa [count_set_of_returned hc hpend .decSwapped rfl,
      count_set_of_returned hc hpend .incReturned rfl, hne .decSwapped rfl,
      hne .incReturned rfl] using hk

theorem Counted.finish {c₀ : Int} {s : State} {t : Nat} {c c' : Call} {b : Backend}
    (hcnt : Counted c₀ s) (hc : s.calls[t]? = some c) (hpend : c.returned = false)
    (hret : c'.returned = true)
    (happly : b.connections = c'.op.apply s.backend.connections)
    (hcount : ∃ j : Int, (b.connections + if c' = .decSwapped then 1 else 0) =
      (s.backend.connections + if c' = .incReturned then 1 else 0) + 2 ^ 64 * j) :
    Counted c₀ (s.finish t b c') := by
  refine ⟨fun v hv => ?_, ?_, ?_⟩
  · rcases List.mem_or_eq_of_mem_set hv with hv | rfl
    · exact hcnt.swap_pos v hv
    · cases hret
  · rw [finish_backend, finish_history, completed_append, completed_ret,
      replay_append_singleton, ← hcnt.replay_eq]
    exact happly
  · obtain ⟨k, hk⟩ := hcnt.count_eq
    obtain ⟨j, hj⟩ := hcount
    refine ⟨k + j, ?_⟩
    simp only [finish_backend, finish_calls, count_set_of_returned hc hpend .decSwapped rfl,
      count_set_of_returned hc hpend .incReturned rfl, Nat.cast_add]
    push_cast at hk hj ⊢
    omega

theorem Counted.step {c₀ : Int} {s s' : State} {t : Nat} (hcnt : Counted c₀ s)
    (h : s.step t = some s') : Counted c₀ s' := by
  rcases step_eq_some h with ⟨hc, rfl⟩ | ⟨hc, hle, rfl⟩ | ⟨hc, hpos, rfl⟩ | ⟨v, hc, hv, rfl⟩ |
    ⟨v, hc, -, rfl⟩
  · exact hcnt.finish hc rfl rfl rfl (by simpa using int64Succ_eq_add _)
  · exact hcnt.finish hc rfl rfl (by simp [Call.op, Op.apply, not_lt.mpr hle]) ⟨0, by simp⟩
  · exact hcnt.resume hc rfl rfl fun v hv => by cases hv; exact hpos
  · have hpos := hcnt.swap_pos v (List.getElem?_mem hc)
    exact hcnt.finish hc rfl rfl (by simp [Call.op, Op.apply, hv, hpos]) ⟨0, by simp [hv]⟩
  · exact hcnt.resume hc rfl rfl fun v hv => by cases hv

theorem Reachable.counted {b : Backend} {s : State} (hs : Reachable (.init b) s) :
    Counted b.connections s := by
  induction hs with
  | refl => exact .init b
  | next a _ hnext ih =>
    cases a with
    | invoke op => cases hnext; exact ih.invoke op
    | step t => exact ih.step hnext

theorem Recorded.op_of_ret {s : State} {t : Nat} {op : Op} (hr : Recorded s)
    (h : Event.ret t op ∈ s.history) : (s.calls.map Call.op)[t]? = some op :=
  (hr.inv_mem t op).mp ((hr.invoked t op h).subset (List.mem_cons_self _ _))

theorem Recorded.linearizes {c₀ : Int} {s : State} (hr : Recorded s) (hcnt : Counted c₀ s) :
    Linearizes s.history c₀ s.backend.connections (completed s.history) := by
  have hnodup : (completed s.history).Nodup :=
    hr.nodup.filterMap fun e e' x he he' => by
      cases e <;> cases e' <;> simp only [Option.mem_def, reduceCtorEq] at he he'
      cases he; cases he'; rfl
  refine ⟨fun _ _ => mem_completed, hnodup.map_on ?_, fun t op h => hr.invoked t op
    (mem_completed.mp h), fun a opa b opb hsub hb => hr.realTime a opa b opb hsub
    (mem_completed.mp hb), hcnt.replay_eq.symm⟩
  rintro ⟨t, op⟩ h ⟨t', op'⟩ h' (rfl : t = t')
  have := hr.op_of_ret (mem_completed.mp h)
  rw [hr.op_of_ret (mem_completed.mp h')] at this
  cases this
  rfl

theorem min_zero_le_apply {op : Op} {c : Int} (h : op = .inc → c ≠ maxInt64) :
    min 0 c ≤ min 0 (op.apply c) := by
  cases op
  · simp only [Op.apply, int64Succ_of_ne (h rfl)]; omega
  · simp only [Op.apply]; split_ifs <;> omega

theorem min_zero_le_replay (c : Int) (order : List (Nat × Op)) :
    min 0 c ≤ replay c order ∨
      ∃ pre x post, order = pre ++ x :: post ∧ x.2 = .inc ∧ replay c pre = maxInt64 := by
  induction order generalizing c with
  | nil => exact .inl (min_le_right 0 c)
  | cons x order ih =>
    by_cases hwrap : x.2 = .inc ∧ c = maxInt64
    · exact .inr ⟨[], x, order, rfl, hwrap.1, hwrap.2⟩
    rcases ih (x.2.apply c) with hle | ⟨pre, y, post, rfl, hy, hpre⟩
    · exact .inl ((min_zero_le_apply fun hx hc => hwrap ⟨hx, hc⟩).trans hle)
    · exact .inr ⟨x :: pre, y, post, rfl, hy, hpre⟩

theorem replay_zero_of_dec {order : List (Nat × Op)} (h : ∀ x ∈ order, x.2 = .dec) :
    replay 0 order = 0 := by
  induction order with
  | nil => rfl
  | cons x order ih =>
    have hx : x.2.apply 0 = 0 := by rw [h x (List.mem_cons_self _ _)]; decide
    show replay (x.2.apply 0) order = 0
    rw [hx]
    exact ih fun y hy => h y (List.mem_cons_of_mem _ hy)

/-- Any number of concurrent `IncConnections` and `DecConnections` calls on one backend, in
any interleaving of their atomic steps, linearize: the calls that returned, in the order
they returned, run as the 64-bit `inc` and the saturating `dec` from the starting count,
give the counter. So the counter never drops below the lesser of zero and its start unless
that order applies an increment at `MaxInt64`; and when two decrements race on a count of
one, it ends at zero with exactly one of them swapping. -/
theorem counter_linearizable (b : Backend) (s : State) (hs : Reachable (.init b) s) :
    Linearizes s.history b.connections s.backend.connections (completed s.history) ∧
      (min 0 b.connections ≤ s.backend.connections ∨
        ∃ pre x post, completed s.history = pre ++ x :: post ∧ x.2 = .inc ∧
          replay b.connections pre = maxInt64) ∧
      (b.connections = 1 → s.calls.map Call.op = [.dec, .dec] → (∀ c ∈ s.calls, c.returned) →
        s.backend.connections = 0 ∧ s.calls.count .decSwapped = 1) := by
  have hr := hs.recorded
  have hcnt := hs.counted
  refine ⟨hr.linearizes hcnt, hcnt.replay_eq ▸ min_zero_le_replay _ _, fun h1 hops hret => ?_⟩
  have hdec : ∀ x ∈ completed s.history, x.2 = .dec := fun ⟨t, op⟩ hx => by
    have := hr.op_of_ret (mem_completed.mp hx)
    rw [hops] at this
    exact (List.mem_pair.mp (List.getElem?_mem this)).elim id id
  have hlen : s.calls.length = 2 := by simpa using congrArg List.length hops
  have hne : completed s.history ≠ [] := by
    obtain ⟨c, hc⟩ : ∃ c, s.calls[0]? = some c := ⟨_, List.getElem?_eq_getElem (by omega)⟩
    have hmem : Event.ret 0 c.op ∈ s.history := (hr.ret_mem _ _).mpr (by
      simp [hc, Call.result, hret c (List.getElem?_mem hc)])
    exact List.ne_nil_of_mem (mem_completed.mpr hmem)
  have hzero : s.backend.connections = 0 := by
    obtain ⟨x, order, hx⟩ := List.exists_cons_of_ne_nil hne
    rw [hcnt.replay_eq, h1, hx]
    have hx2 := hdec x (hx ▸ List.mem_cons_self _ _)
    show replay (x.2.apply 1) order = 0
    rw [hx2]
    exact replay_zero_of_dec fun y hy => hdec y (hx ▸ List.mem_cons_of_mem _ hy)
  have hinc : s.calls.count .incReturned = 0 := List.count_eq_zero.mpr fun h => by
    have := List.mem_map_of_mem Call.op h
    rw [hops] at this
    simp [Call.op] at this
  have hle : s.calls.count .decSwapped ≤ 2 := hlen ▸ List.count_le_length _ _
  obtain ⟨k, hk⟩ := hcnt.count_eq
  rw [hzero, hinc, h1] at hk
  exact ⟨hzero, by omega⟩

/-- The schedule the tests never produce: both decrements load 1, the first swaps it to 0,
the second's swap fails, and its next load sees 0. -/
theorem racing_decrements_swap_once :
    let b := Backend.sample "a" 100 1
    let s : State := ⟨Backend.sample "a" 100 0, [.decSwapped, .decFloored],
      [.inv 0 .dec, .inv 1 .dec, .ret 0 .dec, .ret 1 .dec]⟩
    Reachable (.init b) s ∧
      (Linearizes s.history b.connections s.backend.connections (completed s.history) ∧
        (min 0 b.connections ≤ s.backend.connections ∨
          ∃ pre x post, completed s.history = pre ++ x :: post ∧ x.2 = .inc ∧
            replay b.connections pre = maxInt64) ∧
        (b.connections = 1 → s.calls.map Call.op = [.dec, .dec] →
          (∀ c ∈ s.calls, c.returned) →
          s.backend.connections = 0 ∧ s.calls.count .decSwapped = 1)) := by
  intro b s
  have hs : Reachable (.init b) s := @Reachable.run _ _ _ [.invoke .dec, .invoke .dec,
    .step 0, .step 1, .step 0, .step 1, .step 1] .refl (by decide)
  exact ⟨hs, counter_linearizable b s hs⟩

/-- A counter of `MaxInt64`, which the admin API's `connections` can set, is observed at
`MinInt64` once one `IncConnections` returns. -/
theorem increment_wraps_to_minInt64 :
    let b := Backend.sample "a" 100 maxInt64
    let s : State := ⟨Backend.sample "a" 100 minInt64, [.incReturned], [.inv 0 .inc, .ret 0 .inc]⟩
    Reachable (.init b) s ∧ 0 ≤ b.connections ∧ s.backend.connections < 0 :=
  ⟨@Reachable.run _ _ _ [.invoke .inc, .step 0] .refl (by decide), by decide, by decide⟩

end SpeedMimi.Counter
