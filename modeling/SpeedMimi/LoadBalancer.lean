import SpeedMimi.Backend
import Mathlib.Data.List.Sort

/-! # The five load-balancer policies

The v2 `loadbalancer` package (`config.go`, second draft), the one the proxy's
factory registers. A policy reads the candidate slice through the heap and returns a
pointer to one of its objects, or `nil`.

Nondeterminism is passed in: `sort.Slice` is unstable, so its outcome is any
permutation of the candidates sorted by score, and `rand.Intn(n)` is `rnd % n` for an
arbitrary `rnd`. Go's `int` is 64-bit, so the weight policy's sums wrap.
-/

namespace SpeedMimi.LoadBalancer

/-- The value of a Go `int` expression on a 64-bit target. -/
def wrapInt64 (x : Int) : Int := (x + 2 ^ 63) % 2 ^ 64 - 2 ^ 63

theorem wrapInt64_of_le {x : Int} (h0 : 0 ≤ x) (h1 : x ≤ maxInt64) : wrapInt64 x = x := by
  unfold wrapInt64
  unfold maxInt64 at h1
  rw [Int.emod_eq_of_lt (by omega) (by omega)]
  omega

theorem int64Succ_eq_wrapInt64 {x : Int} (h0 : minInt64 ≤ x) (h1 : x ≤ maxInt64) :
    int64Succ x = wrapInt64 (x + 1) := by
  unfold int64Succ wrapInt64
  unfold maxInt64 minInt64 at *
  split_ifs with hx
  · subst hx; rfl
  · rw [Int.emod_eq_of_lt (by omega) (by omega)]
    omega

/-- The choices a policy call leaves to the runtime: the order `sort.Slice` puts the
scored candidates in, and the seed of `rand.Intn`. -/
structure SelectEnv where
  sortSlice : List (Ptr × ℚ) → List (Ptr × ℚ)
  rnd : Nat

def SelectEnv.Sorts (env : SelectEnv) : Prop :=
  ∀ l, (env.sortSlice l).Perm l ∧ (env.sortSlice l).Sorted (fun a b => a.2 ≤ b.2)

theorem SelectEnv.sortSlice_eq_nil {env : SelectEnv} (hsort : env.Sorts)
    {l : List (Ptr × ℚ)} : env.sortSlice l = [] ↔ l = [] := by
  constructor
  · intro hnil
    have hperm := (hsort l).1
    rw [hnil] at hperm
    exact hperm.nil_eq.symm
  · rintro rfl
    exact (hsort []).1.eq_nil

def minConnStep (h : Heap) (keep : Backend → Bool) (acc : Int × Option Ptr) (p : Ptr) :
    Int × Option Ptr :=
  if !keep (h p) then acc
  else if (h p).getConnections < acc.1 then ((h p).getConnections, some p) else acc

def minConnScan (h : Heap) (keep : Backend → Bool) (bs : List Ptr) : Option Ptr :=
  (bs.foldl (minConnStep h keep) (maxInt64, none)).2

/-- `IPHashBalancer.getClientIP`: a stub that returns `""` for every request. -/
def getClientIP (_req : Request) : String := ""

def hashIP (ip : String) : UInt32 :=
  ip.toUTF8.data.foldl (fun hash byte => (hash ^^^ byte.toUInt32) * 16777619) 2166136261

def selectRandom (h : Heap) (bs : List Ptr) : Option Ptr := minConnScan h Backend.available bs

def ipHashSelectBackend (h : Heap) (bs : List Ptr) (req : Request) : Option Ptr :=
  if bs = [] then none
  else
    let availableBackends := bs.filter fun p => !(h p).isConnectionLimitReached
    if availableBackends = [] then none
    else
      let clientIP := getClientIP req
      if clientIP = "" then selectRandom h availableBackends
      else availableBackends[(hashIP clientIP).toNat % availableBackends.length]?

def leastConnectionsSelectBackend (h : Heap) (bs : List Ptr) : Option Ptr :=
  if bs = [] then none
  else
    let availableBackends := bs.filter fun p => (h p).available
    if availableBackends = [] then none
    else minConnScan h (fun _ => true) availableBackends

def effectiveWeight (b : Backend) : Int := if b.weight ≤ 0 then 1 else b.weight

def lcwScore (b : Backend) : ℚ := (b.getConnections : ℚ) / (effectiveWeight b : ℚ)

def sameScorePrefix (minScore : ℚ) (sorted : List (Ptr × ℚ)) : List (Ptr × ℚ) :=
  sorted.takeWhile fun c => c.2 = minScore

def chooseSameScore (rnd : Nat) : List (Ptr × ℚ) → Option Ptr
  | [] => none
  | c :: rest =>
    let sameScoreCandidates := sameScorePrefix c.2 (c :: rest)
    if sameScoreCandidates.length = 1 then (sameScoreCandidates.head?).map Prod.fst
    else (sameScoreCandidates[rnd % sameScoreCandidates.length]?).map Prod.fst

def leastConnectionsWeightSelectBackend (h : Heap) (bs : List Ptr) (env : SelectEnv) :
    Option Ptr :=
  if bs = [] then none
  else
    let candidates := (bs.filter fun p => (h p).available).map fun p => (p, lcwScore (h p))
    if candidates = [] then none else chooseSameScore env.rnd (env.sortSlice candidates)

def weightWalk (h : Heap) (r : Int) : Int → List Ptr → Option Ptr
  | _, [] => none
  | currentWeight, p :: ps =>
    let currentWeight' := wrapInt64 (currentWeight + (h p).weight)
    if r < currentWeight' then some p else weightWalk h r currentWeight' ps

def totalWeight (h : Heap) (bs : List Ptr) : Int :=
  bs.foldl (fun total p => wrapInt64 (total + (h p).weight)) 0

def weightSelectBackend (h : Heap) (bs : List Ptr) : Option Ptr :=
  if bs = [] then none
  else
    let availableBackends := bs.filter fun p => (h p).available
    if availableBackends = [] then none
    else if totalWeight h availableBackends = 0 then none
    else
      match weightWalk h 0 0 availableBackends with
      | some p => some p
      | none => availableBackends.head?

def calculateScore (b : Backend) : ℚ :=
  let connectionScore := (b.getConnections : ℚ) / (effectiveWeight b : ℚ)
  let performanceScore := b.calculateUtilization * 100
  connectionScore * (7 / 10) + performanceScore * (3 / 10)

def performanceLCWSelectBackend (h : Heap) (bs : List Ptr) (env : SelectEnv) : Option Ptr :=
  if bs = [] then none
  else
    let candidates :=
      (bs.filter fun p => (h p).available).map fun p => (p, calculateScore (h p))
    if candidates = [] then none else (env.sortSlice candidates).head?.map Prod.fst

inductive Balancer
  | ipHash
  | leastConnections
  | leastConnectionsWeight
  | weight
  | performanceLCW
  deriving DecidableEq, Repr

def Balancer.selectBackend (balancer : Balancer) (h : Heap) (bs : List Ptr) (req : Request)
    (env : SelectEnv) : Option Ptr :=
  match balancer with
  | .ipHash => ipHashSelectBackend h bs req
  | .leastConnections => leastConnectionsSelectBackend h bs
  | .leastConnectionsWeight => leastConnectionsWeightSelectBackend h bs env
  | .weight => weightSelectBackend h bs
  | .performanceLCW => performanceLCWSelectBackend h bs env

def balancers : GoMap String Balancer :=
  ⟨[(LoadBalancerType.ipHash, .ipHash), (LoadBalancerType.leastConnections, .leastConnections),
    (LoadBalancerType.leastConnectionsWeight, .leastConnectionsWeight),
    (LoadBalancerType.weight, .weight), (LoadBalancerType.performanceLCW, .performanceLCW)],
    by decide⟩

def getBalancer (lbType : String) : Balancer :=
  (balancers.get? lbType).getD .leastConnectionsWeight

section Scan

variable (h : Heap) (keep : Backend → Bool)

theorem foldl_minConnStep_mem {bs : List Ptr} {acc : Int × Option Ptr} {p : Ptr}
    (hp : (bs.foldl (minConnStep h keep) acc).2 = some p) :
    acc.2 = some p ∨ (p ∈ bs ∧ keep (h p) = true) := by
  induction bs generalizing acc with
  | nil => exact .inl hp
  | cons q qs ih =>
    rcases ih hp with hq | ⟨hmem, hkeep⟩
    · unfold minConnStep at hq
      split_ifs at hq with hskip hlt
      · exact .inl hq
      · cases hq
        exact .inr ⟨List.mem_cons_self _ _, by simpa using hskip⟩
      · exact .inl hq
    · exact .inr ⟨List.mem_cons_of_mem _ hmem, hkeep⟩

theorem foldl_minConnStep_none {bs : List Ptr} {acc : Int × Option Ptr}
    (hn : (bs.foldl (minConnStep h keep) acc).2 = none) :
    acc.2 = none ∧ ∀ q ∈ bs, keep (h q) = true → acc.1 ≤ (h q).connections := by
  induction bs generalizing acc with
  | nil => exact ⟨hn, by simp⟩
  | cons q qs ih =>
    obtain ⟨hstep, hrest⟩ := ih hn
    unfold minConnStep at hstep hrest
    split_ifs at hstep hrest with hskip hlt
    · refine ⟨hstep, ?_⟩
      rintro q' (_ | ⟨_, hq'⟩) hk
      · simp [hk] at hskip
      · exact hrest q' hq' hk
    · refine ⟨hstep, ?_⟩
      rintro q' (_ | ⟨_, hq'⟩) hk
      · exact not_lt.mp hlt
      · exact hrest q' hq' hk

theorem foldl_minConnStep_le {bs : List Ptr} {acc : Int × Option Ptr} :
    (bs.foldl (minConnStep h keep) acc).1 ≤ acc.1 ∧
      ∀ q ∈ bs, keep (h q) = true → (bs.foldl (minConnStep h keep) acc).1 ≤ (h q).connections := by
  induction bs generalizing acc with
  | nil => simp
  | cons q qs ih =>
    obtain ⟨hle, hrest⟩ := @ih (minConnStep h keep acc q)
    have hq : (minConnStep h keep acc q).1 ≤ acc.1 ∧
        (keep (h q) = true → (minConnStep h keep acc q).1 ≤ (h q).connections) := by
      unfold minConnStep Backend.getConnections
      split_ifs with hskip hlt
      · exact ⟨le_rfl, fun hk => by simp [hk] at hskip⟩
      · exact ⟨le_of_lt hlt, fun _ => le_rfl⟩
      · exact ⟨le_rfl, fun _ => not_lt.mp hlt⟩
    refine ⟨hle.trans hq.1, ?_⟩
    rintro q' (_ | ⟨_, hq'⟩) hk
    · exact hle.trans (hq.2 hk)
    · exact hrest q' hq' hk

theorem foldl_minConnStep_chosen {bs : List Ptr} {acc : Int × Option Ptr}
    (hacc : ∀ p, acc.2 = some p → acc.1 = (h p).connections) :
    ∀ p, (bs.foldl (minConnStep h keep) acc).2 = some p →
      (bs.foldl (minConnStep h keep) acc).1 = (h p).connections := by
  induction bs generalizing acc with
  | nil => exact hacc
  | cons q qs ih =>
    refine ih fun p hp => ?_
    unfold minConnStep at hp ⊢
    split_ifs at hp ⊢
    · exact hacc p hp
    · cases hp; rfl
    · exact hacc p hp

theorem minConnScan_le {bs : List Ptr} {p : Ptr} (hp : minConnScan h keep bs = some p) :
    ∀ q ∈ bs, keep (h q) = true → (h p).connections ≤ (h q).connections := by
  intro q hq hk
  rw [← foldl_minConnStep_chosen h keep (by simp) p hp]
  exact (foldl_minConnStep_le h keep).2 q hq hk

theorem minConnScan_mem {bs : List Ptr} {p : Ptr} (hp : minConnScan h keep bs = some p) :
    p ∈ bs ∧ keep (h p) = true :=
  (foldl_minConnStep_mem h keep hp).resolve_left (by simp)

theorem minConnScan_eq_none {bs : List Ptr} (hn : minConnScan h keep bs = none) :
    ∀ q ∈ bs, keep (h q) = true → maxInt64 ≤ (h q).connections :=
  (foldl_minConnStep_none h keep hn).2

end Scan

theorem ipHashSelectBackend_eq_selectRandom (h : Heap) (bs : List Ptr) (req : Request) :
    ipHashSelectBackend h bs req =
      selectRandom h (bs.filter fun p => !(h p).isConnectionLimitReached) := by
  unfold ipHashSelectBackend
  by_cases hbs : bs = []
  · subst hbs; rfl
  · simp only [hbs, ↓reduceIte, getClientIP]
    split_ifs with havail
    · rw [havail]; rfl
    · rfl

theorem mem_sameScorePrefix {m : ℚ} {l : List (Ptr × ℚ)} {c : Ptr × ℚ}
    (hc : c ∈ sameScorePrefix m l) : c ∈ l :=
  (List.takeWhile_sublist _).subset hc

theorem mem_weightWalk {h : Heap} {r cw : Int} {bs : List Ptr} {p : Ptr}
    (hp : weightWalk h r cw bs = some p) : p ∈ bs := by
  induction bs generalizing cw with
  | nil => cases hp
  | cons q qs ih =>
    unfold weightWalk at hp
    dsimp only at hp
    split_ifs at hp
    · cases hp; exact List.mem_cons_self _ _
    · exact List.mem_cons_of_mem _ (ih hp)

theorem mem_filter_available {h : Heap} {bs : List Ptr} {p : Ptr} :
    p ∈ bs.filter (fun q => (h q).available) ↔ p ∈ bs ∧ (h p).available = true := by
  simp

theorem filter_available_eq_nil {h : Heap} {bs : List Ptr} :
    bs.filter (fun q => (h q).available) = [] ↔ ∀ q ∈ bs, (h q).available = false := by
  simp [List.filter_eq_nil_iff]

theorem chooseSameScore_mem {rnd : Nat} {l : List (Ptr × ℚ)} {p : Ptr}
    (hp : chooseSameScore rnd l = some p) : ∃ s, (p, s) ∈ l := by
  cases l with
  | nil => cases hp
  | cons c rest =>
    simp only [chooseSameScore] at hp
    have hc : ∃ c' ∈ sameScorePrefix c.2 (c :: rest), c'.1 = p := by
      split_ifs at hp
      · obtain ⟨c', hc', rfl⟩ := Option.map_eq_some'.mp hp
        exact ⟨c', List.mem_of_mem_head? hc', rfl⟩
      · obtain ⟨c', hc', rfl⟩ := Option.map_eq_some'.mp hp
        exact ⟨c', List.getElem?_mem hc', rfl⟩
    obtain ⟨⟨q, s⟩, hc', rfl⟩ := hc
    exact ⟨s, mem_sameScorePrefix hc'⟩

theorem chooseSameScore_ne_none {rnd : Nat} {c : Ptr × ℚ} {rest : List (Ptr × ℚ)} :
    chooseSameScore rnd (c :: rest) ≠ none := by
  have hlen : 0 < (sameScorePrefix c.2 (c :: rest)).length := by
    simp [sameScorePrefix, List.takeWhile_cons]
  simp only [chooseSameScore]
  split_ifs
  · simp [sameScorePrefix, List.takeWhile_cons]
  · rw [List.getElem?_eq_getElem (Nat.mod_lt _ hlen)]
    simp

section Policies

variable {h : Heap} {bs : List Ptr} {p : Ptr}

theorem mem_of_mem_candidates {f : Backend → ℚ} {s : ℚ}
    (hc : (p, s) ∈ (bs.filter fun q => (h q).available).map fun q => (q, f (h q))) :
    p ∈ bs ∧ (h p).available = true := by
  obtain ⟨q, hq, hqp⟩ := List.mem_map.mp hc
  cases hqp
  exact mem_filter_available.mp hq

theorem candidates_eq_nil {f : Backend → ℚ} :
    ((bs.filter fun q => (h q).available).map fun q => (q, f (h q))) = [] ↔
      ∀ q ∈ bs, (h q).available = false := by
  rw [List.map_eq_nil_iff, filter_available_eq_nil]

theorem ipHashSelectBackend_mem {req : Request} (hp : ipHashSelectBackend h bs req = some p) :
    p ∈ bs ∧ (h p).available = true := by
  rw [ipHashSelectBackend_eq_selectRandom] at hp
  obtain ⟨hmem, hav⟩ := minConnScan_mem h _ hp
  exact ⟨(List.mem_filter.mp hmem).1, hav⟩

theorem ipHashSelectBackend_eq_none {req : Request} (hn : ipHashSelectBackend h bs req = none) :
    ∀ q ∈ bs, (h q).available = true → maxInt64 ≤ (h q).connections := by
  rw [ipHashSelectBackend_eq_selectRandom] at hn
  intro q hq hav
  refine minConnScan_eq_none h _ hn q (List.mem_filter.mpr ⟨hq, ?_⟩) hav
  simp [((h q).available_iff.mp hav).2.2]

theorem leastConnectionsSelectBackend_mem (hp : leastConnectionsSelectBackend h bs = some p) :
    p ∈ bs ∧ (h p).available = true := by
  unfold leastConnectionsSelectBackend at hp
  dsimp only at hp
  split_ifs at hp
  exact mem_filter_available.mp (minConnScan_mem h _ hp).1

theorem leastConnectionsSelectBackend_eq_none (hn : leastConnectionsSelectBackend h bs = none) :
    ∀ q ∈ bs, (h q).available = true → maxInt64 ≤ (h q).connections := by
  intro q hq hav
  have hq' := mem_filter_available.mpr ⟨hq, hav⟩
  unfold leastConnectionsSelectBackend at hn
  dsimp only at hn
  split_ifs at hn with hbs havail
  · simp [hbs] at hq
  · simp [havail] at hq'
  · exact minConnScan_eq_none h _ hn q hq' rfl

theorem leastConnectionsWeightSelectBackend_mem {env : SelectEnv} (hsort : env.Sorts)
    (hp : leastConnectionsWeightSelectBackend h bs env = some p) :
    p ∈ bs ∧ (h p).available = true := by
  unfold leastConnectionsWeightSelectBackend at hp
  dsimp only at hp
  split_ifs at hp
  obtain ⟨s, hs⟩ := chooseSameScore_mem hp
  exact mem_of_mem_candidates ((hsort _).1.subset hs)

theorem leastConnectionsWeightSelectBackend_eq_none_iff {env : SelectEnv} (hsort : env.Sorts) :
    leastConnectionsWeightSelectBackend h bs env = none ↔ ∀ q ∈ bs, (h q).available = false := by
  rw [← @candidates_eq_nil h bs lcwScore]
  unfold leastConnectionsWeightSelectBackend
  dsimp only
  split_ifs with hbs hcand
  · simp [hbs]
  · simp [hcand]
  · simp only [hcand, iff_false]
    cases hsorted : env.sortSlice _ with
    | nil => exact absurd ((SelectEnv.sortSlice_eq_nil hsort).mp hsorted) hcand
    | cons c rest => exact chooseSameScore_ne_none

theorem performanceLCWSelectBackend_mem {env : SelectEnv} (hsort : env.Sorts)
    (hp : performanceLCWSelectBackend h bs env = some p) : p ∈ bs ∧ (h p).available = true := by
  unfold performanceLCWSelectBackend at hp
  dsimp only at hp
  split_ifs at hp
  obtain ⟨⟨q, s⟩, hc, rfl⟩ := Option.map_eq_some'.mp hp
  exact mem_of_mem_candidates ((hsort _).1.subset (List.mem_of_mem_head? hc))

theorem performanceLCWSelectBackend_eq_none_iff {env : SelectEnv} (hsort : env.Sorts) :
    performanceLCWSelectBackend h bs env = none ↔ ∀ q ∈ bs, (h q).available = false := by
  rw [← @candidates_eq_nil h bs calculateScore]
  unfold performanceLCWSelectBackend
  dsimp only
  split_ifs with hbs hcand
  · simp [hbs]
  · simp [hcand]
  · simp only [hcand, iff_false, Option.map_eq_none', List.head?_eq_none_iff]
    exact fun hnil => hcand ((SelectEnv.sortSlice_eq_nil hsort).mp hnil)

theorem weightSelectBackend_mem (hp : weightSelectBackend h bs = some p) :
    p ∈ bs ∧ (h p).available = true := by
  unfold weightSelectBackend at hp
  dsimp only at hp
  split_ifs at hp
  refine mem_filter_available.mp ?_
  split at hp
  · cases hp; exact mem_weightWalk ‹_›
  · exact List.mem_of_mem_head? hp

theorem weightSelectBackend_eq_none_iff :
    weightSelectBackend h bs = none ↔
      (∀ q ∈ bs, (h q).available = false) ∨
        totalWeight h (bs.filter fun q => (h q).available) = 0 := by
  rw [← filter_available_eq_nil]
  unfold weightSelectBackend
  dsimp only
  split_ifs with hbs havail htotal
  · simp [hbs]
  · simp [havail]
  · simp [htotal]
  · simp only [havail, htotal, or_self, iff_false]
    split
    · simp
    · cases havail' : bs.filter fun q => (h q).available with
      | nil => exact absurd havail' havail
      | cons q qs => simp

theorem Balancer.selectBackend_mem {env : SelectEnv} (hsort : env.Sorts) (balancer : Balancer)
    {req : Request} (hp : balancer.selectBackend h bs req env = some p) :
    p ∈ bs ∧ (h p).available = true := by
  cases balancer with
  | ipHash => exact ipHashSelectBackend_mem hp
  | leastConnections => exact leastConnectionsSelectBackend_mem hp
  | leastConnectionsWeight => exact leastConnectionsWeightSelectBackend_mem hsort hp
  | weight => exact weightSelectBackend_mem hp
  | performanceLCW => exact performanceLCWSelectBackend_mem hsort hp

end Policies

def mergeSortEnv (rnd : Nat) : SelectEnv :=
  ⟨fun l => l.mergeSort fun a b => decide (a.2 ≤ b.2), rnd⟩

theorem mergeSortEnv_sorts (rnd : Nat) : (mergeSortEnv rnd).Sorts := by
  intro l
  refine ⟨List.mergeSort_perm _ _, ?_⟩
  refine (List.sorted_mergeSort (fun a b c hab hbc => ?_) (fun a b => ?_) l).imp ?_
  · simp only [decide_eq_true_eq] at hab hbc ⊢
    exact hab.trans hbc
  · simpa using le_total a.2 b.2
  · simp

def twoBackends (c0 c1 w0 w1 : Int) : Heap :=
  fun p => if p = 0 then Backend.sample "a" w0 c0 else Backend.sample "b" w1 c1

def sampleRequest : Request :=
  { method := "GET", path := "/api/x", uriHost := "proxy.local:8080", headers := [],
    remoteIP := "203.0.113.7", isTLS := false }

/-- `ip_hash` never sees a client address: whatever the requests, it makes the same choice,
the least-connections one over the available backends. -/
theorem ipHashSelectBackend_ignores_request (h : Heap) (bs : List Ptr) (req req' : Request) :
    ipHashSelectBackend h bs req = ipHashSelectBackend h bs req' ∧
      ∀ p, ipHashSelectBackend h bs req = some p →
        p ∈ bs ∧ (h p).available = true ∧
          ∀ q ∈ bs, (h q).available = true → (h p).connections ≤ (h q).connections := by
  refine ⟨by rw [ipHashSelectBackend_eq_selectRandom, ipHashSelectBackend_eq_selectRandom],
    fun p hp => ⟨(ipHashSelectBackend_mem hp).1, (ipHashSelectBackend_mem hp).2, ?_⟩⟩
  intro q hq hav
  rw [ipHashSelectBackend_eq_selectRandom] at hp
  refine minConnScan_le h _ hp q (List.mem_filter.mpr ⟨hq, ?_⟩) hav
  simp [((h q).available_iff.mp hav).2.2]

/-- One request, one candidate slice, both backends available in both states: the choice
follows the counters. -/
theorem ipHash_choice_follows_counters :
    (∀ p ∈ [0, 1], (twoBackends 0 1 1 1 p).available = true ∧
      (twoBackends 1 0 1 1 p).available = true) ∧
    ipHashSelectBackend (twoBackends 0 1 1 1) [0, 1] sampleRequest = some 0 ∧
    ipHashSelectBackend (twoBackends 1 0 1 1) [0, 1] sampleRequest = some 1 := by
  decide

end SpeedMimi.LoadBalancer
