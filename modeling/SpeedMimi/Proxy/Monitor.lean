import Mathlib.Data.List.Basic

/-! # The performance monitor's shutdown

`PerformanceMonitor` of `internal/proxy/proxy.go`. `NewPerformanceMonitor` starts
`samplingLoop` and `reportingLoop`, and each tick of the reporting loop starts a
`generateReport` goroutine. Samples go to `sampleChan` (1000 slots) and reports to
`reportChan` (100 slots), each by a `select` with a `default` case. `Stop` cancels the
context and closes the two channels, in three statements; `Server.Stop` calls it once.

The goroutines interleave step by step. A loop blocked in its outer `select` takes a tick
whenever one is ready, also after `cancel()`, for Go chooses at random among the ready
cases; the tickers' periods are not modelled, so a tick is always possible. A send on a
closed channel panics, also inside a `select` with a `default` case. Nothing recovers it,
so it ends the process: no goroutine steps after it.

What `collectSystemMetrics` stores and the fields of a sample or a report do not change
which sends happen, and are left out.
-/

namespace SpeedMimi.Monitor

inductive Chan
  | sample
  | report
  deriving DecidableEq

/-- Where `samplingLoop` stands. -/
inductive SamplingPc
  | select
  | send
  | returned
  deriving DecidableEq

/-- How far `Stop` has run. -/
inductive StopPc
  | idle
  | cancelled
  | sampleClosed
  | stopped
  deriving DecidableEq

namespace StopPc

def ctxDone : StopPc → Bool
  | .idle => false
  | _ => true

def closed : StopPc → Chan → Bool
  | .sampleClosed, .sample => true
  | .stopped, _ => true
  | _, _ => false

def next : StopPc → Option StopPc
  | .idle => some .cancelled
  | .cancelled => some .sampleClosed
  | .sampleClosed => some .stopped
  | .stopped => none

end StopPc

structure State where
  samplingEnabled : Bool
  reportEnabled : Bool
  sampling : SamplingPc
  reportingReturned : Bool
  reports : List Bool
  sampleBuffered : Nat
  reportBuffered : Nat
  stop : StopPc
  panicked : Option Chan
  deriving DecidableEq

def init : State := ⟨true, true, .select, false, [], 0, 0, .idle, none⟩

inductive Action
  | samplingTick
  | samplingDone
  | samplingSend
  | reportingTick
  | reportingDone
  | generateReport (i : Nat)
  | receiveSample
  | receiveReport
  | stop
  | enableSampling (enabled : Bool)
  | enableReporting (enabled : Bool)
  deriving DecidableEq

namespace State

/-- `select { case ch <- v: default: }`: a panic on a closed channel; otherwise the value
takes a free slot, or the `default` case drops it. -/
def trySend (s : State) : Chan → State
  | .sample =>
    if s.stop.closed .sample then { s with panicked := some .sample }
    else if s.sampleBuffered < 1000 then { s with sampleBuffered := s.sampleBuffered + 1 }
    else s
  | .report =>
    if s.stop.closed .report then { s with panicked := some .report }
    else if s.reportBuffered < 100 then { s with reportBuffered := s.reportBuffered + 1 }
    else s

def receive (s : State) : Chan → Option State
  | .sample =>
    if 0 < s.sampleBuffered then some { s with sampleBuffered := s.sampleBuffered - 1 }
    else if s.stop.closed .sample then some s else none
  | .report =>
    if 0 < s.reportBuffered then some { s with reportBuffered := s.reportBuffered - 1 }
    else if s.stop.closed .report then some s else none

def step (s : State) (a : Action) : Option State :=
  if s.panicked.isSome then none else
  match a with
  | .samplingTick =>
    if s.sampling = .select then
      some (if s.samplingEnabled then { s with sampling := .send } else s)
    else none
  | .samplingDone =>
    if s.sampling = .select ∧ s.stop.ctxDone then some { s with sampling := .returned } else none
  | .samplingSend =>
    if s.sampling = .send then some ({ s with sampling := .select }.trySend .sample) else none
  | .reportingTick =>
    if s.reportingReturned then none
    else some (if s.reportEnabled then { s with reports := s.reports ++ [false] } else s)
  | .reportingDone =>
    if !s.reportingReturned ∧ s.stop.ctxDone then some { s with reportingReturned := true }
    else none
  | .generateReport i =>
    if s.reports[i]? = some false then some ({ s with reports := s.reports.set i true }.trySend .report)
    else none
  | .receiveSample => s.receive .sample
  | .receiveReport => s.receive .report
  | .stop => s.stop.next.map fun stop => { s with stop }
  | .enableSampling enabled => some { s with samplingEnabled := enabled }
  | .enableReporting enabled => some { s with reportEnabled := enabled }

def run (s : State) : List Action → Option State
  | [] => some s
  | a :: as => (s.step a).bind (run · as)

end State

inductive Reachable : State → Prop
  | init : Reachable init
  | step {s s' : State} (a : Action) : Reachable s → s.step a = some s' → Reachable s'

theorem Reachable.run {s s' : State} {as : List Action} (hs : Reachable s)
    (h : s.run as = some s') : Reachable s' := by
  induction as generalizing s with
  | nil => cases h; exact hs
  | cons a as ih =>
    obtain ⟨s₁, h₁, h'⟩ := Option.bind_eq_some.mp h
    exact ih (hs.step a h₁) h'

namespace State

@[simp] theorem trySend_stop (s : State) (ch : Chan) : (s.trySend ch).stop = s.stop := by
  cases ch <;> simp only [trySend] <;> split_ifs <;> rfl

theorem trySend_panicked (s : State) (ch : Chan) :
    (s.trySend ch).panicked = if s.stop.closed ch then some ch else s.panicked := by
  cases ch <;> simp only [trySend] <;> split_ifs <;> rfl

theorem receive_panicked {s s' : State} {ch : Chan} (h : s.receive ch = some s') :
    s'.panicked = s.panicked := by
  cases ch <;> simp only [receive] at h <;> split_ifs at h <;> cases h <;> rfl

theorem step_panicked {s s' : State} {a : Action} (h : s.step a = some s') {ch : Chan}
    (hp : s'.panicked = some ch) : s'.stop.closed ch = true := by
  have hnone : s.panicked = none := by
    cases hq : s.panicked
    · rfl
    · simp [step, hq] at h
  rw [step.eq_def, if_neg (by simp [hnone])] at h
  have keep : ∀ t : State, some t = some s' → t.panicked = none → s'.stop.closed ch = true :=
    fun t heq ht => by cases heq; rw [ht] at hp; cases hp
  cases a <;> dsimp only at h
  case samplingSend | generateReport =>
    split_ifs at h
    cases h
    rw [trySend_panicked] at hp
    split_ifs at hp with hc
    · cases hp
      simpa using hc
    · rw [hnone] at hp
      cases hp
  case receiveSample | receiveReport => exact keep s' rfl ((receive_panicked h).trans hnone)
  case stop =>
    obtain ⟨stop, -, rfl⟩ := Option.map_eq_some'.mp h
    exact absurd hp (by simp [hnone])
  all_goals first
    | exact keep _ h hnone
    | split_ifs at h <;> exact keep _ h hnone

end State

/-- `Stop` races the monitor's senders. A panic only ever comes from a send on a channel
`Stop` has closed. But once `Stop` has closed `sampleChan`, a sampling loop that still runs
with sampling enabled panics within two of its own steps: its `select` may take a tick over
`ctx.Done()`, and then it sends. And once `reportChan` is closed, every `generateReport`
goroutine that has not sent yet panics at its send. -/
theorem stop_races_senders (s : State) (hs : Reachable s) :
    (∀ ch, s.panicked = some ch → s.stop.closed ch = true) ∧
      (s.panicked = none → s.stop.closed .sample = true → s.samplingEnabled = true →
        s.sampling = .select →
        (s.run [.samplingTick, .samplingSend]).map State.panicked = some (some .sample)) ∧
      (s.panicked = none → s.stop.closed .sample = true → s.sampling = .send →
        (s.step .samplingSend).map State.panicked = some (some .sample)) ∧
      (∀ i, s.panicked = none → s.stop.closed .report = true → s.reports[i]? = some false →
        (s.step (.generateReport i)).map State.panicked = some (some .report)) := by
  refine ⟨fun ch hp => ?_, fun hp hc he hsel => ?_, fun hp hc hsend => ?_,
    fun i hp hc hi => ?_⟩
  · cases hs with
    | init => cases hp
    | step a _ h => exact State.step_panicked h hp
  · simp [State.run, State.step, hp, hsel, he, State.trySend, hc]
  · simp [State.step, hp, hsend, State.trySend, hc]
  · simp [State.step, hp, hi, State.trySend, hc]

/-- `Stop` runs its three statements before the sampling loop is scheduled again; the
loop's `select` then takes the pending tick, and its send finds `sampleChan` closed. -/
theorem stop_then_tick_panics :
    let s : State := ⟨true, true, .select, false, [], 0, 0, .stopped, none⟩
    init.run [.stop, .stop, .stop] = some s ∧
      (s.run [.samplingTick, .samplingSend]).map State.panicked = some (some .sample) ∧
      ((∀ ch, s.panicked = some ch → s.stop.closed ch = true) ∧
        (s.panicked = none → s.stop.closed .sample = true → s.samplingEnabled = true →
          s.sampling = .select →
          (s.run [.samplingTick, .samplingSend]).map State.panicked = some (some .sample)) ∧
        (s.panicked = none → s.stop.closed .sample = true → s.sampling = .send →
          (s.step .samplingSend).map State.panicked = some (some .sample)) ∧
        (∀ i, s.panicked = none → s.stop.closed .report = true → s.reports[i]? = some false →
          (s.step (.generateReport i)).map State.panicked = some (some .report))) := by
  intro s
  have hrun : init.run [.stop, .stop, .stop] = some s := by decide
  exact ⟨hrun, by decide, stop_races_senders s (Reachable.init.run hrun)⟩

end SpeedMimi.Monitor
