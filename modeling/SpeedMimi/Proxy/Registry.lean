import SpeedMimi.Proxy.Upstream

/-! # The registry is a finite map

`UpstreamManager` keeps a `names` map into an append-only slice of upstreams, and
`RemoveUpstream` deletes the name but leaks its slot. Over any sequence of `CreateUpstream`
and `RemoveUpstream` calls, `GetUpstream n` answers as a finite map does: the upstream last
created under `n` if `n` was not removed since, `nil` otherwise, and `CreateUpstream n`
fails exactly when `n` is mapped. The invariant the structure carries makes `names` an
injection into the valid indices of the slice.
-/

namespace SpeedMimi.UpstreamManager

/-- A call that writes the registry. -/
inductive Call
  | create (name : String) (backends : List Ptr)
  | remove (name : String)
  deriving DecidableEq

def apply (um : UpstreamManager) : Call → UpstreamManager
  | .create name backends =>
    match um.createUpstream name backends with
    | .ok um' => um'
    | .error _ => um
  | .remove name => um.removeUpstream name

def run (um : UpstreamManager) (calls : List Call) : UpstreamManager := calls.foldl apply um

def Call.track (n : String) (held : Option Upstream) : Call → Option Upstream
  | .create name backends => if name = n ∧ held = none then some ⟨n, backends⟩ else held
  | .remove name => if name = n then none else held

/-- The upstream last created under `n` and not removed since. -/
def lastCreated (calls : List Call) (n : String) : Option Upstream :=
  calls.foldl (Call.track n) none

theorem getUpstream_isSome_iff (um : UpstreamManager) (n : String) :
    (um.getUpstream n).isSome ↔ (um.names.get? n).isSome := by
  unfold getUpstream
  cases hi : um.names.get? n with
  | none => simp
  | some i => simp [List.getElem?_eq_getElem (um.index_lt hi)]

theorem createUpstream_eq_error_iff (um : UpstreamManager) (name : String)
    (backends : List Ptr) :
    (∃ e, um.createUpstream name backends = .error e) ↔ (um.getUpstream name).isSome := by
  rw [getUpstream_isSome_iff]
  unfold createUpstream
  split_ifs with h <;> simp [h]

theorem getUpstream_removeUpstream (um : UpstreamManager) (name n : String) :
    (um.removeUpstream name).getUpstream n = if n = name then none else um.getUpstream n := by
  unfold removeUpstream
  cases hi : um.names.get? name with
  | none =>
    split_ifs with hn
    · subst hn
      simp [getUpstream, hi]
    · rfl
  | some i =>
    simp only [um.index_lt hi, if_true]
    split_ifs with hn
    · subst hn
      simp [getUpstream]
    · simp only [getUpstream, GoMap.get?_erase_ne _ hn]

theorem getUpstream_apply (um : UpstreamManager) (call : Call) (n : String) :
    (um.apply call).getUpstream n = call.track n (um.getUpstream n) := by
  cases call with
  | create name backends =>
    simp only [apply, Call.track]
    cases hc : um.createUpstream name backends with
    | ok um' =>
      have hfree : um.getUpstream name = none := by
        rw [← Option.not_isSome_iff_eq_none, ← createUpstream_eq_error_iff, hc]
        simp
      rw [getUpstream_of_createUpstream hc]
      by_cases hn : name = n
      · subst hn
        simp [hfree]
      · simp [hn, Ne.symm hn]
    | error e =>
      have hheld := (createUpstream_eq_error_iff um name backends).mp ⟨e, hc⟩
      have hcond : ¬(name = n ∧ um.getUpstream n = none) := by
        rintro ⟨rfl, hnone⟩
        simp [hnone] at hheld
      simp [hcond]
  | remove name =>
    simp only [apply, Call.track, getUpstream_removeUpstream]
    by_cases hn : name = n
    · subst hn; simp
    · simp [hn, Ne.symm hn]

theorem getUpstream_run (um : UpstreamManager) (calls : List Call) (n : String) :
    (um.run calls).getUpstream n = calls.foldl (Call.track n) (um.getUpstream n) := by
  induction calls generalizing um with
  | nil => rfl
  | cons call calls ih => simp only [run, List.foldl_cons] at ih ⊢; rw [ih, getUpstream_apply]

example : (newUpstreamManager.run [.create "a" [0], .remove "a", .create "a" [1]]).getUpstream "a" =
    some ⟨"a", [1]⟩ := by decide

theorem names_injective (um : UpstreamManager) {n n' : String} {i : Nat}
    (hn : um.names.get? n = some i) (hn' : um.names.get? n' = some i) : n = n' := by
  obtain ⟨u, hu, rfl⟩ := um.named n i hn
  obtain ⟨u', hu', rfl⟩ := um.named n' i hn'
  rw [hu] at hu'
  cases hu'
  rfl

/-- From `NewUpstreamManager`, after any sequence of `CreateUpstream` and `RemoveUpstream`
calls, the registry is the finite map of the calls: `GetUpstream n` is the upstream last
created under `n` and not removed since, or `nil`; `CreateUpstream n` fails exactly when
`n` is mapped; and `names` maps distinct names to distinct valid slots holding upstreams of
those names. -/
theorem registry_is_finite_map (calls : List Call) :
    let um := newUpstreamManager.run calls
    (∀ n, um.getUpstream n = lastCreated calls n) ∧
      (∀ n backends, (∃ e, um.createUpstream n backends = .error e) ↔
        (lastCreated calls n).isSome) ∧
      (∀ n n' i, um.names.get? n = some i → um.names.get? n' = some i → n = n') ∧
      ∀ n i, um.names.get? n = some i → ∃ u, um.upstreams[i]? = some u ∧ u.name = n := by
  intro um
  have hget : ∀ n, um.getUpstream n = lastCreated calls n := fun n => by
    rw [getUpstream_run]
    simp [lastCreated, newUpstreamManager, getUpstream, GoMap.get?, GoMap.empty]
  refine ⟨hget, fun n backends => ?_, fun n n' i => um.names_injective, fun n i hi => ?_⟩
  · rw [createUpstream_eq_error_iff, hget]
  · obtain ⟨u, hu, hname⟩ := um.named n i hi
    exact ⟨u, hu, hname⟩

end SpeedMimi.UpstreamManager
