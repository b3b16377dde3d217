import SpeedMimi.LoadBalancer
import Mathlib.Data.List.MinMax
import Mathlib.Tactic.Ring

/-! # Which backend each policy chooses

The scans of `least_connections` and `selectRandom` keep a backend only when its counter is
strictly below the running minimum, which starts at `MaxInt64`: they return the first
eligible backend of least counter, unless no eligible counter is below `MaxInt64`, when they
return `nil`. `least_connections_weight` sorts the eligible backends by
`connections / max(Weight, 1)` and draws with `rand.Intn` among the prefix of scores equal to
the first; in a sorted list that prefix holds exactly the minimal scores.
`performance_least_connections_weight` takes the head of the sorted list. `weight` walks the
eligible list with its cursor fixed at 0, so on every call it returns the first eligible
backend.
-/

namespace SpeedMimi.LoadBalancer

section Scan

variable (h : Heap)

/-- The first element of `E` whose counter is least in `E`. -/
def firstLeast (E : List Ptr) : Option Ptr :=
  E.find? fun p => E.all fun q => (h p).connections ≤ (h q).connections

theorem foldl_minConnStep_filter (keep : Backend → Bool) (bs : List Ptr) (acc : Int × Option Ptr) :
    bs.foldl (minConnStep h keep) acc =
      (bs.filter fun p => keep (h p)).foldl (minConnStep h fun _ => true) acc := by
  induction bs generalizing acc with
  | nil => rfl
  | cons p ps ih =>
    by_cases hk : keep (h p) = true
    · simp only [List.foldl_cons, List.filter_cons, hk, if_true, ih]
      congr 1
      simp [minConnStep, hk]
    · simp only [List.foldl_cons, List.filter_cons, hk, Bool.false_eq_true, if_false, ih]
      congr 1
      simp [minConnStep, hk]

theorem firstLeast_cons_of_le {x : Ptr} {xs : List Ptr}
    (hx : ∀ q ∈ xs, (h x).connections ≤ (h q).connections) : firstLeast h (x :: xs) = some x :=
  List.find?_cons_of_pos _ (by simpa using hx)

theorem firstLeast_cons_of_lt {x q₀ : Ptr} {xs : List Ptr} (hq₀ : q₀ ∈ xs)
    (hlt : (h q₀).connections < (h x).connections) : firstLeast h (x :: xs) = firstLeast h xs := by
  have hx : ¬((x :: xs).all fun q => decide ((h x).connections ≤ (h q).connections)) = true := by
    simpa using (⟨q₀, hq₀, hlt⟩ : ∃ q ∈ xs, (h q).connections < (h x).connections)
  unfold firstLeast
  rw [@List.find?_cons_of_neg _
    (fun p => (x :: xs).all fun q => decide ((h p).connections ≤ (h q).connections)) x xs hx]
  refine congrArg (List.find? · xs) (funext fun p => ?_)
  rw [List.all_cons]
  cases hall : xs.all fun q => decide ((h p).connections ≤ (h q).connections)
  · exact Bool.and_false _
  · have hp := of_decide_eq_true (List.all_eq_true.mp hall q₀ hq₀)
    rw [Bool.and_true, decide_eq_true (by omega)]

theorem foldl_minConnStep_eq (E : List Ptr) (m : Int) (o : Option Ptr) :
    (E.foldl (minConnStep h fun _ => true) (m, o)).2 =
      if E.any (fun q => (h q).connections < m) then firstLeast h E else o := by
  induction E generalizing m o with
  | nil => rfl
  | cons x xs ih =>
    simp only [List.foldl_cons, minConnStep, Bool.not_true, Bool.false_eq_true, if_false,
      Backend.getConnections, List.any_cons]
    by_cases hx : (h x).connections < m
    · simp only [hx, if_true, ih, decide_True, Bool.true_or]
      by_cases hlt : xs.any (fun q => decide ((h q).connections < (h x).connections)) = true
      · obtain ⟨q₀, hq₀, hq⟩ := List.any_eq_true.mp hlt
        rw [if_pos hlt, firstLeast_cons_of_lt h hq₀ (of_decide_eq_true hq)]
      · rw [if_neg hlt]
        simp only [List.any_eq_true, decide_eq_true_eq, not_exists, not_and, not_lt] at hlt
        exact (firstLeast_cons_of_le h hlt).symm
    · simp only [hx, if_false, ih, decide_False, Bool.false_or]
      by_cases hlt : xs.any (fun q => decide ((h q).connections < m)) = true
      · obtain ⟨q₀, hq₀, hq⟩ := List.any_eq_true.mp hlt
        have hq : (h q₀).connections < (h x).connections := by
          have := of_decide_eq_true hq
          omega
        simp only [hlt, if_true, firstLeast_cons_of_lt h hq₀ hq]
      · simp only [hlt, Bool.false_eq_true, if_false]

theorem minConnScan_eq_firstLeast (keep : Backend → Bool) (bs : List Ptr) :
    minConnScan h keep bs =
      if (bs.filter fun p => keep (h p)).any fun q => (h q).connections < maxInt64 then
        firstLeast h (bs.filter fun p => keep (h p))
      else none := by
  unfold minConnScan
  rw [foldl_minConnStep_filter, foldl_minConnStep_eq]

end Scan

theorem mem_takeWhile_score {v : ℚ} {l : List (Ptr × ℚ)} (hsorted : l.Sorted fun a b => a.2 ≤ b.2)
    (hmin : ∀ x ∈ l, v ≤ x.2) {x : Ptr × ℚ} :
    x ∈ l.takeWhile (fun c => c.2 = v) ↔ x ∈ l ∧ x.2 = v := by
  induction l with
  | nil => simp
  | cons y ys ih =>
    rw [List.sorted_cons] at hsorted
    have ih' := ih hsorted.2 fun x hx => hmin x (List.mem_cons_of_mem _ hx)
    by_cases hy : y.2 = v
    · rw [List.takeWhile_cons_of_pos (by simpa using hy), List.mem_cons, ih', List.mem_cons]
      constructor
      · rintro (rfl | ⟨hx, hxv⟩)
        · exact ⟨.inl rfl, hy⟩
        · exact ⟨.inr hx, hxv⟩
      · rintro ⟨rfl | hx, hxv⟩
        · exact .inl rfl
        · exact .inr ⟨hx, hxv⟩
    · rw [List.takeWhile_cons_of_neg (by simpa using hy)]
      have hlt : v < y.2 := lt_of_le_of_ne (hmin y (List.mem_cons_self _ _)) (Ne.symm hy)
      simp only [List.not_mem_nil, false_iff, not_and, List.mem_cons]
      rintro (rfl | hx) hxv
      · exact hy hxv
      · exact absurd (hsorted.1 x hx) (not_le.mpr (hxv ▸ hlt))

theorem exists_chooseSameScore_iff {c : Ptr × ℚ} {rest : List (Ptr × ℚ)} {p : Ptr} :
    (∃ rnd, chooseSameScore rnd (c :: rest) = some p) ↔
      ∃ s, (p, s) ∈ sameScorePrefix c.2 (c :: rest) := by
  simp only [chooseSameScore]
  generalize sameScorePrefix c.2 (c :: rest) = P
  by_cases hone : P.length = 1
  · obtain ⟨y, rfl⟩ := List.length_eq_one.mp hone
    simp only [List.length_singleton, if_true, List.head?_cons, Option.map_some', Option.some.injEq,
      exists_const, List.mem_singleton]
    exact ⟨fun hp => ⟨y.2, by rw [← hp]⟩, fun ⟨s, hs⟩ => by rw [← hs]⟩
  · simp only [hone, if_false, Option.map_eq_some', Prod.exists, exists_and_right, exists_eq_right]
    constructor
    · rintro ⟨rnd, s, hs⟩
      exact ⟨s, List.getElem?_mem hs⟩
    · rintro ⟨s, hs⟩
      obtain ⟨i, hi, hget⟩ := List.getElem_of_mem hs
      exact ⟨i, s, by rw [Nat.mod_eq_of_lt hi, List.getElem?_eq_getElem hi, hget]⟩

theorem head_sorted_le {env : SelectEnv} (hsort : env.Sorts) {l : List (Ptr × ℚ)}
    {c : Ptr × ℚ} {rest : List (Ptr × ℚ)} (hc : env.sortSlice l = c :: rest) :
    c ∈ l ∧ ∀ x ∈ l, c.2 ≤ x.2 := by
  have hperm := (hsort l).1
  have hsorted := (hsort l).2
  rw [hc, List.sorted_cons] at hsorted
  rw [hc] at hperm
  refine ⟨hperm.subset (List.mem_cons_self _ _), fun x hx => ?_⟩
  rcases List.mem_cons.mp (hperm.symm.subset hx) with rfl | hx'
  · exact le_refl _
  · exact hsorted.1 x hx'

theorem effectiveWeight_eq_max (b : Backend) : effectiveWeight b = max b.weight 1 := by
  unfold effectiveWeight
  split_ifs with hw
  · exact (max_eq_right (by omega)).symm
  · exact (max_eq_left (by omega)).symm

theorem lcwScore_eq (b : Backend) :
    lcwScore b = (b.connections : ℚ) / ((max b.weight 1 : Int) : ℚ) := by
  rw [lcwScore, effectiveWeight_eq_max]
  rfl

theorem calculateScore_eq (b : Backend) :
    calculateScore b =
      7 / 10 * ((b.connections : ℚ) / ((max b.weight 1 : Int) : ℚ)) + 30 * b.calculateUtilization := by
  rw [calculateScore, effectiveWeight_eq_max, Backend.getConnections]
  ring

section Policies

variable {h : Heap} {bs : List Ptr}

theorem mem_candidates_iff {f : Backend → ℚ} {p : Ptr} {s : ℚ} :
    (p, s) ∈ (bs.filter fun q => (h q).available).map (fun q => (q, f (h q))) ↔
      p ∈ bs.filter (fun q => (h q).available) ∧ s = f (h p) := by
  simp only [List.mem_map, Prod.mk.injEq]
  constructor
  · rintro ⟨q, hq, rfl, rfl⟩
    exact ⟨hq, rfl⟩
  · rintro ⟨hp, rfl⟩
    exact ⟨p, hp, rfl, rfl⟩

theorem leastConnectionsWeight_draws {env : SelectEnv} (hsort : env.Sorts) (p : Ptr) :
    (∃ rnd, leastConnectionsWeightSelectBackend h bs ⟨env.sortSlice, rnd⟩ = some p) ↔
      p ∈ bs.filter (fun q => (h q).available) ∧
        ∀ q ∈ bs.filter (fun q => (h q).available), lcwScore (h p) ≤ lcwScore (h q) := by
  unfold leastConnectionsWeightSelectBackend
  dsimp only
  split_ifs with hbs hcand
  · subst hbs
    simp
  · rw [List.map_eq_nil_iff] at hcand
    simp [hcand]
  · generalize hl : (bs.filter fun q => (h q).available).map (fun q => (q, lcwScore (h q))) = l at hcand
    cases hs : env.sortSlice l with
    | nil => exact absurd ((SelectEnv.sortSlice_eq_nil hsort).mp hs) hcand
    | cons c rest =>
      have hsorted := (hsort l).2
      rw [hs] at hsorted
      obtain ⟨hc, hcmin⟩ := head_sorted_le hsort hs
      have hperm : ∀ x, x ∈ c :: rest ↔ x ∈ l := fun x => by rw [← hs]; exact (hsort l).1.mem_iff
      have hmin : ∀ x ∈ c :: rest, c.2 ≤ x.2 := fun x hx => hcmin x ((hperm x).mp hx)
      rw [exists_chooseSameScore_iff]
      simp only [sameScorePrefix, mem_takeWhile_score hsorted hmin]
      simp only [hperm, ← hl, mem_candidates_iff]
      obtain ⟨c₁, c₂⟩ := c
      rw [← hl, mem_candidates_iff] at hc
      obtain ⟨hc₁, rfl⟩ := hc
      have hle : ∀ q ∈ bs.filter (fun q => (h q).available), lcwScore (h c₁) ≤ lcwScore (h q) :=
        fun q hq => hcmin (q, lcwScore (h q)) (by rw [← hl, mem_candidates_iff]; exact ⟨hq, rfl⟩)
      constructor
      · rintro ⟨s, ⟨hp, rfl⟩, hs⟩
        exact ⟨hp, fun q hq => hs ▸ hle q hq⟩
      · rintro ⟨hp, hpmin⟩
        exact ⟨_, ⟨hp, rfl⟩, le_antisymm (hpmin c₁ hc₁) (hle p hp)⟩

theorem performanceLCW_le {env : SelectEnv} (hsort : env.Sorts) {p : Ptr}
    (hp : performanceLCWSelectBackend h bs env = some p) :
    p ∈ bs.filter (fun q => (h q).available) ∧
      ∀ q ∈ bs.filter (fun q => (h q).available), calculateScore (h p) ≤ calculateScore (h q) := by
  unfold performanceLCWSelectBackend at hp
  dsimp only at hp
  split_ifs at hp
  generalize hl : (bs.filter fun q => (h q).available).map (fun q => (q, calculateScore (h q))) = l at hp
  cases hs : env.sortSlice l with
  | nil => simp [hs] at hp
  | cons c rest =>
    simp only [hs, List.head?_cons, Option.map_some', Option.some.injEq] at hp
    subst hp
    obtain ⟨hc, hcmin⟩ := head_sorted_le hsort hs
    obtain ⟨c₁, c₂⟩ := c
    rw [← hl, mem_candidates_iff] at hc
    obtain ⟨hc₁, rfl⟩ := hc
    exact ⟨hc₁, fun q hq =>
      hcmin (q, calculateScore (h q)) (by rw [← hl, mem_candidates_iff]; exact ⟨hq, rfl⟩)⟩

end Policies

/-- What each policy chooses among the eligible backends `E` of the slice, in slice order,
with scores compared exactly. `least_connections` and `selectRandom` return the first
element of `E` of least counter when some counter in `E` is below `MaxInt64`, and `nil`
otherwise. Over the draws of `rand.Intn`, `least_connections_weight` returns exactly the
elements of `E` of least `connections / max(Weight, 1)`. `performance_least_connections_weight`
returns an element of a non-empty `E`, one that minimises
`0.7 * connections / max(Weight, 1) + 30 * CalculateUtilization()`. -/
theorem policies_choose_least_score (h : Heap) (bs : List Ptr) (env : SelectEnv)
    (hsort : env.Sorts) :
    let E := bs.filter fun p => (h p).available
    (leastConnectionsSelectBackend h bs =
        if E.any fun q => (h q).connections < maxInt64 then firstLeast h E else none) ∧
      (selectRandom h bs =
        if E.any fun q => (h q).connections < maxInt64 then firstLeast h E else none) ∧
      (∀ p, (∃ rnd, leastConnectionsWeightSelectBackend h bs ⟨env.sortSlice, rnd⟩ = some p) ↔
        p ∈ E ∧ ∀ q ∈ E, ((h p).connections : ℚ) / ((max (h p).weight 1 : Int) : ℚ) ≤
          ((h q).connections : ℚ) / ((max (h q).weight 1 : Int) : ℚ)) ∧
      (E ≠ [] → (performanceLCWSelectBackend h bs env).isSome) ∧
      ∀ p, performanceLCWSelectBackend h bs env = some p → p ∈ E ∧ ∀ q ∈ E,
        7 / 10 * (((h p).connections : ℚ) / ((max (h p).weight 1 : Int) : ℚ)) +
            30 * (h p).calculateUtilization ≤
          7 / 10 * (((h q).connections : ℚ) / ((max (h q).weight 1 : Int) : ℚ)) +
            30 * (h q).calculateUtilization := by
  intro E
  have hscan := minConnScan_eq_firstLeast h (fun _ => true) E
  rw [List.filter_true] at hscan
  refine ⟨?_, minConnScan_eq_firstLeast h _ bs, fun p => ?_, fun hE => ?_, fun p hp => ?_⟩
  · unfold leastConnectionsSelectBackend
    dsimp only
    rw [← hscan]
    split_ifs with hbs hE
    · simp [E, hbs, minConnScan]
    · rw [show E = [] from hE]
      rfl
    · rfl
  · simp only [leastConnectionsWeight_draws hsort, lcwScore_eq]
  · rw [Option.isSome_iff_ne_none, Ne, performanceLCWSelectBackend_eq_none_iff hsort,
      ← filter_available_eq_nil]
    exact hE
  · simpa only [calculateScore_eq] using performanceLCW_le hsort hp

/-- A backend with no limit that already holds `MaxInt64` connections is eligible, yet
`least_connections` and `selectRandom` return `nil` on it, while `least_connections_weight`
returns it. -/
theorem leastConnections_skips_maxInt64_counter :
    let h : Heap := fun _ => Backend.sample "a" 100 maxInt64
    (mergeSortEnv 0).Sorts ∧ [0].filter (fun p => (h p).available) = [0] ∧
      leastConnectionsSelectBackend h [0] = none ∧ selectRandom h [0] = none ∧
      ∃ rnd, leastConnectionsWeightSelectBackend h [0] ⟨(mergeSortEnv 0).sortSlice, rnd⟩ = some 0 := by
  intro h
  have hE : [0].filter (fun p => (h p).available) = [0] := by decide
  obtain ⟨hlc, hrand, hlcw, -⟩ :=
    policies_choose_least_score h [0] (mergeSortEnv 0) (mergeSortEnv_sorts 0)
  refine ⟨mergeSortEnv_sorts 0, hE, ?_, ?_, (hlcw 0).mpr ?_⟩
  · rw [hlc, hE]; decide
  · rw [hrand, hE]; decide
  · rw [hE]; simp

theorem weightSelectBackend_eq_first {h : Heap} {bs : List Ptr} {p : Ptr} {rest : List Ptr}
    (hE : bs.filter (fun q => (h q).available) = p :: rest) (hw : 0 < (h p).weight)
    (hw' : (h p).weight ≤ maxInt64) (htotal : totalWeight h (p :: rest) ≠ 0) :
    weightSelectBackend h bs = some p := by
  have hbs : bs ≠ [] := by
    rintro rfl
    simp at hE
  have hwalk : weightWalk h 0 0 (p :: rest) = some p := by
    simp [weightWalk, wrapInt64_of_le hw.le hw', hw]
  simp [weightSelectBackend, hbs, hE, htotal, hwalk]

/-- On an upstream whose eligible list stays `p :: rest`, with the weight of `p` in
`1..MaxInt64` and a wrapped total weight other than 0, any run of calls of the `weight`
policy returns `p` every time and no other backend. -/
theorem weight_policy_repeats_first (bs : List Ptr) (p : Ptr) (rest : List Ptr)
    (hs : List Heap)
    (hfixed : ∀ h ∈ hs, bs.filter (fun q => (h q).available) = p :: rest ∧ 0 < (h p).weight ∧
      (h p).weight ≤ maxInt64 ∧ totalWeight h (p :: rest) ≠ 0)
    (q : Ptr) :
    (hs.map fun h => weightSelectBackend h bs).count (some q) = if q = p then hs.length else 0 := by
  have hmap : (hs.map fun h => weightSelectBackend h bs) = List.replicate hs.length (some p) := by
    rw [List.eq_replicate_iff]
    refine ⟨List.length_map _ _, fun r hr => ?_⟩
    obtain ⟨h, hh, rfl⟩ := List.mem_map.mp hr
    obtain ⟨hE, hw, hw', htotal⟩ := hfixed h hh
    exact weightSelectBackend_eq_first hE hw hw' htotal
  rw [hmap, List.count_replicate]
  by_cases hq : q = p
  · subst hq; simp
  · simp [hq, Ne.symm hq]

/-- Three eligible backends of weights 1, 2 and 3: six calls never return the second. -/
theorem weight_policy_repeats_first_sample :
    let h : Heap := fun p =>
      if p = 0 then Backend.sample "a" 1 0 else if p = 1 then Backend.sample "b" 2 0
      else Backend.sample "c" 3 0
    let hs := List.replicate 6 h
    (∀ h' ∈ hs, [0, 1, 2].filter (fun q => (h' q).available) = 0 :: [1, 2] ∧ 0 < (h' 0).weight ∧
      (h' 0).weight ≤ maxInt64 ∧ totalWeight h' (0 :: [1, 2]) ≠ 0) ∧
      (hs.map fun h => weightSelectBackend h [0, 1, 2]).count (some 1) =
        if 1 = 0 then hs.length else 0 := by
  intro h hs
  have hfixed : ∀ h' ∈ hs, [0, 1, 2].filter (fun q => (h' q).available) = 0 :: [1, 2] ∧
      0 < (h' 0).weight ∧ (h' 0).weight ≤ maxInt64 ∧ totalWeight h' (0 :: [1, 2]) ≠ 0 := by
    intro h' hh'
    rw [List.eq_of_mem_replicate hh']
    decide
  exact ⟨hfixed, weight_policy_repeats_first [0, 1, 2] 0 [1, 2] hs hfixed 1⟩

end SpeedMimi.LoadBalancer
