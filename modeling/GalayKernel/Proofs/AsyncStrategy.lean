import GalayKernel.AsyncStrategy
import GalayKernel.Lib.SmoothRoundRobin
import Mathlib.Order.Interval.Finset.Nat

namespace GalayKernel.Proofs

variable {α : Type}

/-- The nodes, with their weights, of a balancer that is constructed from `nodes` and `weights` and
to which `added` is appended. -/
def entriesOf (nodes : List α) (weights : List UInt32) (added : List (α × UInt32)) :
    List (α × UInt32) :=
  (if nodes.length ≠ weights.length then nodes.map fun node => (node, 1) else nodes.zip weights) ++
    added

def weightsOf (entries : List (α × UInt32)) : List ℕ := entries.map fun e => e.2.toNat

lemma sum_range_getD (l : List ℤ) : ∑ j ∈ Finset.range l.length, l.getD j 0 = l.sum := by
  induction l with
  | nil => rfl
  | cons x l ih =>
    rw [List.length_cons, Finset.sum_range_succ', List.sum_cons, ← ih]
    simp [add_comm]

namespace SmoothShares

open WeightRoundRobinLoadBalancer SmoothRoundRobin

def built (nodes : List α) (weights : List UInt32) (added : List (α × UInt32)) :
    WeightRoundRobinLoadBalancer α :=
  added.foldl (fun lb e => lb.append e.1 e.2) (ofWeights nodes weights)

def currentWeights (lb : WeightRoundRobinLoadBalancer α) : List ℤ :=
  lb.nodes.map fun n => n.currentWeight.toInt

/-- What `select` never changes. -/
structure HasEntries (lb : WeightRoundRobinLoadBalancer α) (entries : List (α × UInt32)) :
    Prop where
  nodes : lb.nodes.map (fun n => (n.node, n.fixedWeight)) =
    entries.map fun e => (e.1, e.2.toInt32)
  totalWeight : lb.totalWeight.toInt = (weightsOf entries).sum

lemma built_eq (nodes : List α) (weights : List UInt32) (added : List (α × UInt32)) :
    built nodes weights added =
      (entriesOf nodes weights added).foldl (fun lb e => lb.append e.1 e.2) .empty := by
  unfold built entriesOf ofWeights
  split
  · rw [List.foldl_append, List.foldl_map]
  · rw [List.foldl_append]

lemma foldl_append_nodes (entries : List (α × UInt32)) (lb : WeightRoundRobinLoadBalancer α) :
    (entries.foldl (fun lb e => lb.append e.1 e.2) lb).nodes =
      lb.nodes ++ entries.map fun e => ⟨e.1, 0, e.2.toInt32⟩ := by
  induction entries generalizing lb with
  | nil => simp
  | cons e entries ih =>
    rw [List.foldl_cons, ih]
    simp [WeightRoundRobinLoadBalancer.append]

lemma toInt_eq_bmod (x : Int) (h : -2 ^ 31 ≤ x) (h' : x < 2 ^ 31) : x.bmod (2 ^ 32) = x :=
  Int.bmod_eq_of_le (by omega) (by omega)

lemma toInt_toInt32 (x : UInt32) (h : x.toNat < 2 ^ 31) : x.toInt32.toInt = x.toNat := by
  rw [← Int32.toInt_toBitVec, UInt32.toBitVec_toInt32, BitVec.toInt_eq_toNat_bmod]
  exact toInt_eq_bmod _ (by omega) (by simpa using h)

lemma foldl_append_totalWeight (entries : List (α × UInt32)) (lb : WeightRoundRobinLoadBalancer α)
    (hpos : 0 ≤ lb.totalWeight.toInt)
    (hlt : lb.totalWeight.toInt + (weightsOf entries).sum < 2 ^ 31) :
    (entries.foldl (fun lb e => lb.append e.1 e.2) lb).totalWeight.toInt =
      lb.totalWeight.toInt + (weightsOf entries).sum := by
  induction entries generalizing lb with
  | nil => simp [weightsOf]
  | cons e entries ih =>
    simp only [weightsOf, List.map_cons, List.sum_cons, Nat.cast_add] at hlt ih ⊢
    have he : e.2.toInt32.toInt = e.2.toNat := toInt_toInt32 _ (by omega)
    have hadd : (lb.append e.1 e.2).totalWeight.toInt = lb.totalWeight.toInt + e.2.toNat := by
      rw [WeightRoundRobinLoadBalancer.append, Int32.toInt_add, he]
      exact toInt_eq_bmod _ (by omega) (by omega)
    rw [List.foldl_cons, ih _ (by omega) (by omega), hadd]
    omega

lemma built_hasEntries (nodes : List α) (weights : List UInt32) (added : List (α × UInt32))
    (hlt : (weightsOf (entriesOf nodes weights added)).sum < 2 ^ 31) :
    HasEntries (built nodes weights added) (entriesOf nodes weights added) := by
  rw [built_eq]
  constructor
  · rw [foldl_append_nodes]
    simp [WeightRoundRobinLoadBalancer.empty]
  · rw [foldl_append_totalWeight _ _ le_rfl]
    · simp [WeightRoundRobinLoadBalancer.empty]
    · simp only [WeightRoundRobinLoadBalancer.empty, Int32.toInt_zero, zero_add]
      exact_mod_cast hlt

def bump (n : SmoothNode α) : SmoothNode α :=
  { n with currentWeight := n.currentWeight + n.fixedWeight }

/-- `selected` points to a node of greatest current weight. -/
structure Leads (nodes : List (SmoothNode α)) (selected : Option ℕ) : Prop where
  of_none : selected = none → nodes = []
  of_some : ∀ i, selected = some i →
    ∃ best, nodes[i]? = some best ∧ ∀ n ∈ nodes, n.currentWeight ≤ best.currentWeight

lemma Leads.snoc {done : List (SmoothNode α)} {selected : Option ℕ} (h : Leads done selected)
    (n : SmoothNode α) :
    Leads (done ++ [n]) (if (match selected.bind fun i => done[i]? with
      | none => true
      | some best => decide (n.currentWeight > best.currentWeight)) then some done.length
      else selected) := by
  have hlast : (done ++ [n])[done.length]? = some n := by simp
  cases hsel : selected with
  | none =>
    have hnil := h.of_none hsel
    subst hnil
    exact ⟨by simp, by simp⟩
  | some i =>
    obtain ⟨best, hbest, hmax⟩ := h.of_some i hsel
    simp only [Option.bind_some, hbest, decide_eq_true_eq]
    by_cases hlt : best.currentWeight < n.currentWeight
    · rw [if_pos hlt]
      refine ⟨by simp, ?_⟩
      rintro _ ⟨⟩
      refine ⟨n, hlast, ?_⟩
      intro m hm
      rcases List.mem_append.mp hm with hm | hm
      · exact Int32.le_trans (hmax m hm) (Int32.le_of_lt hlt)
      · rw [List.mem_singleton.mp hm]
        exact Int32.le_refl _
    · rw [if_neg hlt]
      refine ⟨by simp, ?_⟩
      rintro _ ⟨⟩
      have hi : i < done.length := (List.getElem?_eq_some_iff.mp hbest).1
      refine ⟨best, by rw [List.getElem?_append_left hi, hbest], ?_⟩
      intro m hm
      rcases List.mem_append.mp hm with hm | hm
      · exact hmax m hm
      · rw [List.mem_singleton.mp hm]
        exact Int32.not_lt.mp hlt

lemma scan_spec (rest done : List (SmoothNode α)) (selected : Option ℕ) (h : Leads done selected) :
    (scan done rest selected).1 = done ++ rest.map bump ∧
      Leads (done ++ rest.map bump) (scan done rest selected).2 := by
  induction rest generalizing done selected with
  | nil => simpa [scan] using h
  | cons n rest ih =>
    have hstep := ih _ _ (h.snoc (bump n))
    rw [List.append_assoc, List.singleton_append] at hstep
    exact hstep

lemma select_spec (lb : WeightRoundRobinLoadBalancer α) (hne : lb.nodes ≠ []) :
    ∃ i best, lb.selected = some i ∧ (lb.nodes.map bump)[i]? = some best ∧
      (∀ n ∈ lb.nodes.map bump, n.currentWeight ≤ best.currentWeight) ∧
      lb.select = (some best.node,
        { lb with
          nodes := (lb.nodes.map bump).modify i fun n =>
            { n with currentWeight := n.currentWeight - lb.totalWeight } }) := by
  have hempty : Leads ([] : List (SmoothNode α)) none := ⟨fun _ => rfl, by simp⟩
  obtain ⟨hnodes, hleads⟩ := scan_spec lb.nodes [] none hempty
  rw [List.nil_append] at hnodes hleads
  cases hsel : (scan [] lb.nodes none).2 with
  | none => exact absurd (hleads.of_none hsel) (by simpa using hne)
  | some i =>
    obtain ⟨best, hbest, hmax⟩ := hleads.of_some i hsel
    refine ⟨i, best, hsel, hbest, hmax, ?_⟩
    simp [WeightRoundRobinLoadBalancer.select, hne, WeightRoundRobinLoadBalancer.selected, hsel,
      hnodes, hbest]

lemma HasEntries.select {lb : WeightRoundRobinLoadBalancer α} {entries : List (α × UInt32)}
    (h : HasEntries lb entries) (hne : lb.nodes ≠ []) : HasEntries lb.select.2 entries := by
  obtain ⟨i, best, -, -, -, heq⟩ := select_spec lb hne
  rw [heq]
  refine ⟨?_, h.totalWeight⟩
  rw [← h.nodes]
  apply List.ext_getElem?
  intro j
  simp only [List.getElem?_map, List.getElem?_modify]
  cases lb.nodes[j]? with
  | none => rfl
  | some n =>
    by_cases hij : i = j
    · simp [hij, bump]
    · simp [hij, bump]

def credit (lb : WeightRoundRobinLoadBalancer α) (j : ℕ) : ℤ := (currentWeights lb).getD j 0

def share (entries : List (α × UInt32)) (j : ℕ) : ℤ :=
  ((weightsOf entries).map ((↑) : ℕ → ℤ)).getD j 0

lemma sum_share (entries : List (α × UInt32)) :
    ∑ j ∈ Finset.range entries.length, share entries j = (weightsOf entries).sum := by
  have h := sum_range_getD ((weightsOf entries).map ((↑) : ℕ → ℤ))
  rw [List.length_map, weightsOf, List.length_map, ← weightsOf] at h
  exact h.trans (Nat.cast_list_sum _).symm

lemma weightsOf_sum_lt {entries : List (α × UInt32)}
    (hbound : entries.length * (weightsOf entries).sum < 2 ^ 31) :
    (weightsOf entries).sum < 2 ^ 31 := by
  cases entries with
  | nil => simp [weightsOf]
  | cons e entries => exact lt_of_le_of_lt (Nat.le_mul_of_pos_left _ (by simp)) hbound

lemma share_nonneg (entries : List (α × UInt32)) (j : ℕ) : 0 ≤ share entries j := by
  unfold share
  cases h : (weightsOf entries)[j]? <;> simp [List.getD, h]

lemma share_le (entries : List (α × UInt32)) {j : ℕ} (hj : j ∈ Finset.range entries.length) :
    share entries j ≤ (weightsOf entries).sum := by
  rw [← sum_share]
  exact Finset.single_le_sum (fun i _ => share_nonneg entries i) hj

lemma share_of_getElem? {entries : List (α × UInt32)} {j : ℕ} {e : α × UInt32}
    (h : entries[j]? = some e) : share entries j = e.2.toNat := by
  simp [share, weightsOf, List.getD, h]

lemma credit_of_getElem? {lb : WeightRoundRobinLoadBalancer α} {j : ℕ} {n : SmoothNode α}
    (h : lb.nodes[j]? = some n) : credit lb j = n.currentWeight.toInt := by
  simp [credit, currentWeights, List.getD, h]

lemma exists_credit {lb : WeightRoundRobinLoadBalancer α} {c : ℤ} (hc : c ∈ currentWeights lb) :
    ∃ j, j < (currentWeights lb).length ∧ credit lb j = c := by
  obtain ⟨j, hj, rfl⟩ := List.getElem_of_mem hc
  exact ⟨j, hj, by simp [credit, List.getD, hj]⟩

lemma share_eq {entries : List (α × UInt32)} {j : ℕ} (hj : j < (weightsOf entries).length) :
    share entries j = ((weightsOf entries)[j] : ℕ) := by
  simp [share, List.getD, hj]

lemma mem_range_of_lt {entries : List (α × UInt32)} {j : ℕ} (hj : j < (weightsOf entries).length) :
    j ∈ Finset.range entries.length := by
  rw [weightsOf, List.length_map] at hj
  exact Finset.mem_range.mpr hj

section Round

variable {lb : WeightRoundRobinLoadBalancer α} {entries : List (α × UInt32)} {j : ℕ}
  {n : SmoothNode α}

lemma HasEntries.length (h : HasEntries lb entries) : lb.nodes.length = entries.length := by
  have := congrArg List.length h.nodes
  simpa using this

lemma HasEntries.getElem? (h : HasEntries lb entries) (hn : lb.nodes[j]? = some n) :
    ∃ e, entries[j]? = some e ∧ n.node = e.1 ∧ n.fixedWeight = e.2.toInt32 := by
  have hj := congrArg (fun l => l[j]?) h.nodes
  simp only [List.getElem?_map, hn, Option.map_some] at hj
  cases he : entries[j]? with
  | none => simp [he] at hj
  | some e =>
    simp only [he, Option.map_some, Option.some.injEq, Prod.mk.injEq] at hj
    exact ⟨e, rfl, hj⟩

variable (h : HasEntries lb entries)
  (hbound : entries.length * (weightsOf entries).sum < 2 ^ 31)
  (hbal : Balanced (Finset.range entries.length) (share entries) (credit lb))

include h hbound hbal

lemma bump_toInt (hn : lb.nodes[j]? = some n) :
    (bump n).currentWeight.toInt = credit lb j + share entries j := by
  obtain ⟨e, he, -, hfixed⟩ := h.getElem? hn
  have hj : j ∈ Finset.range entries.length :=
    Finset.mem_range.mpr (List.getElem?_eq_some_iff.mp he).1
  have hle := hbal.add_le hj (by rw [sum_share]; exact share_le entries hj)
  have hgt := hbal.neg_lt j hj
  rw [sum_share, Finset.card_range] at hle
  rw [sum_share] at hgt
  have hW := weightsOf_sum_lt hbound
  have hshare : share entries j ≤ (weightsOf entries).sum := share_le entries hj
  have hnonneg := share_nonneg entries j
  have hcast : n.fixedWeight.toInt = share entries j := by
    rw [share_of_getElem? he] at hshare ⊢
    rw [hfixed]
    exact toInt_toInt32 _ (by omega)
  have hlt : ((entries.length : ℤ) * (weightsOf entries).sum) < 2 ^ 31 := by exact_mod_cast hbound
  rw [bump, Int32.toInt_add, hcast, ← credit_of_getElem? hn]
  exact toInt_eq_bmod _ (by omega) (by omega)

/-- A call of `select` is a round. -/
theorem select_round (hpos : 0 < (weightsOf entries).sum) :
    ∃ i e, lb.selected = some i ∧ entries[i]? = some e ∧ lb.select.1 = some e.1 ∧
      Round (Finset.range entries.length) (share entries) (credit lb) i (credit lb.select.2) := by
  have hne : lb.nodes ≠ [] := by
    intro hnil
    have hlen := h.length
    rw [hnil, List.length_nil] at hlen
    simp [List.eq_nil_of_length_eq_zero hlen.symm, weightsOf] at hpos
  obtain ⟨i, best, hsel, hbest, hmax, heq⟩ := select_spec lb hne
  rw [List.getElem?_map, Option.map_eq_some_iff] at hbest
  obtain ⟨n, hn, rfl⟩ := hbest
  obtain ⟨e, he, hnode, -⟩ := h.getElem? hn
  have hi : i ∈ Finset.range entries.length :=
    Finset.mem_range.mpr (List.getElem?_eq_some_iff.mp he).1
  have hnodes : ∀ j ∈ Finset.range entries.length, ∃ m, lb.nodes[j]? = some m := by
    intro j hj
    rw [Finset.mem_range, ← h.length] at hj
    exact ⟨_, List.getElem?_eq_getElem hj⟩
  have hgreatest : ∀ j ∈ Finset.range entries.length,
      credit lb j + share entries j ≤ credit lb i + share entries i := by
    intro j hj
    obtain ⟨m, hm⟩ := hnodes j hj
    rw [← bump_toInt h hbound hbal hm, ← bump_toInt h hbound hbal hn]
    exact Int32.le_iff_toInt_le.mp
      (hmax _ (List.mem_map_of_mem (List.mem_of_getElem? hm)))
  refine ⟨i, e, hsel, he, by rw [heq, bump, hnode], hi, hgreatest, ?_⟩
  intro j hj
  obtain ⟨m, hm⟩ := hnodes j hj
  have hbump := bump_toInt h hbound hbal hm
  have hnext : lb.select.2.nodes[j]? = some (if i = j then
      { bump m with currentWeight := (bump m).currentWeight - lb.totalWeight } else bump m) := by
    rw [heq]
    simp [List.getElem?_modify, hm]
  rw [credit_of_getElem? hnext, sum_share, ← hbump]
  by_cases hij : i = j
  · -- the payment does not wrap: the greatest current weight is positive
    subst hij
    have hgt := greatest_pos hgreatest hbal.sum_eq_zero (by rw [sum_share]; exact_mod_cast hpos)
    have hlt := Int32.toInt_lt (bump m).currentWeight
    have hW := weightsOf_sum_lt hbound
    rw [if_pos rfl, if_pos rfl, Int32.toInt_sub, h.totalWeight]
    exact toInt_eq_bmod _ (by omega) (by omega)
  · rw [if_neg hij, if_neg hij, sub_zero]

end Round

/-- The positions that `count` calls of `select` choose after the first `first` calls. -/
def chosen (lb : WeightRoundRobinLoadBalancer α) (first count : ℕ) : List (Option ℕ) :=
  (List.range' first count).map fun k => (lb.afterSelects k).selected

/-- Every node gets its share of the calls. -/
structure ExactShares (lb : WeightRoundRobinLoadBalancer α) (w : List ℕ) : Prop where
  sum_eq_zero : ∀ k, (currentWeights (lb.afterSelects k)).sum = 0
  neg_lt : ∀ k, ∀ c ∈ currentWeights (lb.afterSelects k), -(w.sum : ℤ) < c
  count_lt : ∀ k i, (hi : i < w.length) →
    ((chosen lb 0 k).count (some i) : ℚ) < (k * w[i] : ℚ) / w.sum + 1
  count_period : ∀ m i, (hi : i < w.length) →
    (chosen lb (m * w.sum) w.sum).count (some i) = w[i]
  eq_zero : ∀ m, ∀ c ∈ currentWeights (lb.afterSelects (m * w.sum)), c = 0

section Runs

variable {lb : WeightRoundRobinLoadBalancer α} {entries : List (α × UInt32)}
  (h : HasEntries lb entries) (hzero : ∀ j, credit lb j = 0)
  (hbound : entries.length * (weightsOf entries).sum < 2 ^ 31)
  (hpos : 0 < (weightsOf entries).sum)

include h hzero hbound hpos

lemma afterSelects_balanced (k : ℕ) : HasEntries (lb.afterSelects k) entries ∧
    Balanced (Finset.range entries.length) (share entries) (credit (lb.afterSelects k)) := by
  have hw : 0 < ∑ j ∈ Finset.range entries.length, share entries j := by
    rw [sum_share]
    exact_mod_cast hpos
  induction k with
  | zero =>
    have hbal := balanced_zero hw
    rw [← funext hzero] at hbal
    exact ⟨h, hbal⟩
  | succ k ih =>
    obtain ⟨i, e, -, he, -, hround⟩ := select_round ih.1 hbound ih.2 hpos
    have hne : (lb.afterSelects k).nodes ≠ [] := by
      intro hnil
      have hlen := ih.1.length
      rw [hnil] at hlen
      simp [List.eq_nil_of_length_eq_zero hlen.symm] at he
    exact ⟨ih.1.select hne, hround.balanced ih.2 hw fun j _ => share_nonneg entries j⟩

lemma afterSelects_round (k : ℕ) : ∃ i e, (lb.afterSelects k).selected = some i ∧
    entries[i]? = some e ∧ (lb.afterSelects k).select.1 = some e.1 ∧
    Round (Finset.range entries.length) (share entries) (credit (lb.afterSelects k)) i
      (credit (lb.afterSelects (k + 1))) :=
  let ⟨hk, hbal⟩ := afterSelects_balanced h hzero hbound hpos k
  select_round hk hbound hbal hpos

/-- The calls of `select` are the rounds of a smooth round robin. -/
theorem exactShares : ExactShares lb (weightsOf entries) := by
  choose pick _ hpick _ _ hround using afterSelects_round h hzero hbound hpos
  have hw : 0 < ∑ j ∈ Finset.range entries.length, share entries j := by
    rw [sum_share]
    exact_mod_cast hpos
  have hnonneg : ∀ j ∈ Finset.range entries.length, 0 ≤ share entries j :=
    fun j _ => share_nonneg entries j
  have hstart : ∀ j ∈ Finset.range entries.length, credit (lb.afterSelects 0) j = 0 :=
    fun j _ => hzero j
  have hcount : ∀ first count i, (chosen lb first count).count (some i) =
      ((List.range' first count).map pick).count i := by
    intro first count i
    have hmap : chosen lb first count = ((List.range' first count).map pick).map some := by
      rw [chosen, List.map_map]
      exact List.map_congr_left fun k _ => hpick k
    rw [hmap, List.count_map_of_injective _ _ (Option.some_injective ℕ)]
  have hlen : ∀ k, (currentWeights (lb.afterSelects k)).length = entries.length := fun k => by
    rw [currentWeights, List.length_map, (afterSelects_balanced h hzero hbound hpos k).1.length]
  have hbal := balanced hstart hround hw hnonneg
  have hperiod : ∀ m : ℕ, ((m * (weightsOf entries).sum : ℕ) : ℤ) =
      m * ∑ j ∈ Finset.range entries.length, share entries j := fun m => by
    rw [sum_share, Nat.cast_mul]
  refine ⟨fun k => ?_, fun k c hc => ?_, fun k i hi => ?_, fun m i hi => ?_, fun m c hc => ?_⟩
  · rw [← sum_range_getD, hlen k]
    exact (hbal k).sum_eq_zero
  · obtain ⟨j, hj, rfl⟩ := exists_credit hc
    rw [hlen k] at hj
    rw [← sum_share]
    exact (hbal k).neg_lt j (Finset.mem_range.mpr hj)
  · have hlt := picks_lt hstart hround hw hnonneg k (mem_range_of_lt hi)
    rw [share_eq hi, sum_share, Int.cast_natCast, Int.cast_natCast] at hlt
    rw [hcount, ← List.range_eq_range']
    exact hlt
  · have hend := picks_period hstart hround hw hnonneg (hperiod (m + 1)) (mem_range_of_lt hi)
    have hbegin := picks_period hstart hround hw hnonneg (hperiod m) (mem_range_of_lt hi)
    rw [Nat.add_mul, Nat.one_mul, picks_add] at hend
    rw [share_eq hi] at hbegin hend
    rw [hcount]
    push_cast at hend hbegin
    rw [hbegin, Int.add_mul, Int.one_mul] at hend
    exact_mod_cast add_left_cancel hend
  · obtain ⟨j, hj, rfl⟩ := exists_credit hc
    rw [hlen] at hj
    have hcredit := credit_period hstart hround hw hnonneg (hperiod m) (Finset.mem_range.mpr hj)
    exact hcredit

end Runs

/-- Smooth weighted round robin is exact, and each call returns the node that it has chosen. -/
theorem weightRoundRobin_exact (nodes : List α) (weights : List UInt32) (added : List (α × UInt32))
    (hpos : 0 < (weightsOf (entriesOf nodes weights added)).sum)
    (hbound : (entriesOf nodes weights added).length *
      (weightsOf (entriesOf nodes weights added)).sum < 2 ^ 31) :
    ExactShares (built nodes weights added) (weightsOf (entriesOf nodes weights added)) ∧
      ∀ k, ∃ i e, ((built nodes weights added).afterSelects k).selected = some i ∧
        (entriesOf nodes weights added)[i]? = some e ∧
        ((built nodes weights added).afterSelects k).select.1 = some e.1 := by
  have h := built_hasEntries nodes weights added (weightsOf_sum_lt hbound)
  have hzero : ∀ j, credit (built nodes weights added) j = 0 := by
    intro j
    rw [built_eq, credit, currentWeights, foldl_append_nodes]
    cases hj : (entriesOf nodes weights added)[j]? with
    | none => simp [WeightRoundRobinLoadBalancer.empty, List.getD, hj]
    | some e => simp [WeightRoundRobinLoadBalancer.empty, List.getD, hj]
  refine ⟨exactShares h hzero hbound hpos, ?_⟩
  intro k
  obtain ⟨i, e, hsel, he, hnode, -⟩ := afterSelects_round h hzero hbound hpos k
  exact ⟨i, e, hsel, he, hnode⟩

/-- Two nodes of weights 5 and 1 from the constructor, and a third that is appended. -/
theorem weightRoundRobin_five_one_one :
    ExactShares (built ["a", "b"] [5, 1] [("c", 1)]) [5, 1, 1] ∧
      chosen (built ["a", "b"] [5, 1] [("c", 1)]) 0 7 =
        [some 0, some 0, some 1, some 0, some 2, some 0, some 0] :=
  ⟨(weightRoundRobin_exact ["a", "b"] [5, 1] [("c", 1)] (by decide) (by decide)).1,
    by decide +kernel⟩

end SmoothShares

namespace RandomShares

open WeightedRandomLoadBalancer

def built (nodes : List α) (weights : List UInt32) (added : List (α × UInt32)) :
    WeightedRandomLoadBalancer α :=
  added.foldl (fun lb e => lb.append e.1 e.2) (ofWeights nodes weights)

lemma built_eq (nodes : List α) (weights : List UInt32) (added : List (α × UInt32)) :
    built nodes weights added =
      (entriesOf nodes weights added).foldl (fun lb e => lb.append e.1 e.2) .empty := by
  unfold built entriesOf ofWeights
  split
  · rw [List.foldl_append, List.foldl_map]
  · rw [List.foldl_append]

lemma foldl_append_nodes (entries : List (α × UInt32)) (lb : WeightedRandomLoadBalancer α) :
    (entries.foldl (fun lb e => lb.append e.1 e.2) lb).nodes =
      lb.nodes ++ entries.map fun e => ⟨e.1, e.2⟩ := by
  induction entries generalizing lb with
  | nil => simp
  | cons e entries ih =>
    rw [List.foldl_cons, ih]
    simp [WeightedRandomLoadBalancer.append]

lemma foldl_append_totalWeight (entries : List (α × UInt32)) (lb : WeightedRandomLoadBalancer α) :
    (entries.foldl (fun lb e => lb.append e.1 e.2) lb).totalWeight.toNat =
      (lb.totalWeight.toNat + (weightsOf entries).sum) % 2 ^ 32 := by
  induction entries generalizing lb with
  | nil =>
    rw [List.foldl_nil, weightsOf, List.map_nil, List.sum_nil, Nat.add_zero]
    exact (Nat.mod_eq_of_lt (UInt32.toNat_lt _)).symm
  | cons e entries ih =>
    rw [List.foldl_cons, ih]
    simp only [WeightedRandomLoadBalancer.append, UInt32.toNat_add, weightsOf, List.map_cons,
      List.sum_cons, Nat.mod_add_mod, Nat.add_assoc]

lemma toNat_ofNat_draw {d total : ℕ} (hd : d ≤ total) (hlt : total < 2 ^ 32) :
    (UInt32.ofNat d).toNat = d := by
  rw [UInt32.toNat_ofNat']
  exact Nat.mod_eq_of_lt (by omega)

lemma sub_toNat {d weight : UInt32} (h : ¬d ≤ weight) :
    weight.toNat < d.toNat ∧ (d - weight).toNat = d.toNat - weight.toNat := by
  rw [UInt32.le_iff_toNat_le, not_le] at h
  exact ⟨h, UInt32.toNat_sub_of_le _ _ (UInt32.le_iff_toNat_le.mpr h.le)⟩

lemma walk_eq_some_iff (nodes : List (WeightedNode α)) (d : UInt32) (i : ℕ) (hd : 0 < d.toNat) :
    walk nodes d = some i ↔ i < nodes.length ∧
      ((nodes.map fun n => n.weight.toNat).take i).sum < d.toNat ∧
      d.toNat ≤ ((nodes.map fun n => n.weight.toNat).take (i + 1)).sum := by
  induction nodes generalizing d i with
  | nil => simp [walk]
  | cons n nodes ih =>
    rw [walk]
    by_cases hle : d ≤ n.weight
    · have hle' := UInt32.le_iff_toNat_le.mp hle
      rw [if_pos hle]
      cases i with
      | zero => simpa [hd] using hle'
      | succ i =>
        simp only [List.map_cons, List.take_succ_cons, List.sum_cons]
        constructor
        · rintro ⟨⟩
        · omega
    · obtain ⟨hgt, hsub⟩ := sub_toNat hle
      rw [if_neg hle]
      cases i with
      | zero =>
        simp only [Option.map_eq_some_iff, Nat.add_eq_zero_iff, one_ne_zero, and_false,
          exists_false, List.map_cons, List.take_succ_cons, List.take_zero, List.sum_cons,
          List.sum_nil, false_iff]
        omega
      | succ i =>
        have hih := ih (d - n.weight) i (by omega)
        simp only [Option.map_eq_some_iff, Nat.add_right_cancel_iff, exists_eq_right, hih, hsub,
          List.map_cons, List.take_succ_cons, List.sum_cons, List.length_cons]
        omega

lemma exists_walk (nodes : List (WeightedNode α)) (d : UInt32) (hd : 0 < d.toNat)
    (hle : d.toNat ≤ (nodes.map fun n => n.weight.toNat).sum) : ∃ i, walk nodes d = some i := by
  induction nodes generalizing d with
  | nil =>
    simp only [List.map_nil, List.sum_nil] at hle
    omega
  | cons n nodes ih =>
    rw [walk]
    by_cases hn : d ≤ n.weight
    · exact ⟨0, if_pos hn⟩
    · obtain ⟨hgt, hsub⟩ := sub_toNat hn
      rw [List.map_cons, List.sum_cons] at hle
      obtain ⟨i, hi⟩ := ih (d - n.weight) (by omega) (by omega)
      exact ⟨i + 1, by rw [if_neg hn, hi]; rfl⟩

section Built

variable (nodes : List α) (weights : List UInt32) (added : List (α × UInt32))

lemma built_nodes : (built nodes weights added).nodes =
    (entriesOf nodes weights added).map fun e => ⟨e.1, e.2⟩ := by
  rw [built_eq, foldl_append_nodes]
  rfl

lemma built_weights : (built nodes weights added).nodes.map (fun n => n.weight.toNat) =
    weightsOf (entriesOf nodes weights added) := by
  rw [built_nodes, List.map_map]
  rfl

variable (hlt : (weightsOf (entriesOf nodes weights added)).sum < 2 ^ 32)

include hlt

lemma built_totalWeight : (built nodes weights added).totalWeight.toNat =
    (weightsOf (entriesOf nodes weights added)).sum := by
  rw [built_eq, foldl_append_totalWeight]
  simpa [WeightedRandomLoadBalancer.empty] using hlt

lemma card_draws {i : ℕ} (hi : i < (weightsOf (entriesOf nodes weights added)).length) :
    ((Finset.Icc 1 (weightsOf (entriesOf nodes weights added)).sum).filter fun d =>
      walk (built nodes weights added).nodes (.ofNat d) = some i).card =
      (weightsOf (entriesOf nodes weights added))[i] := by
  have hw := built_weights nodes weights added
  set w := weightsOf (entriesOf nodes weights added) with hdef
  have hlen : (built nodes weights added).nodes.length = w.length := by
    rw [← hw, List.length_map]
  have hsucc : (w.take (i + 1)).sum = (w.take i).sum + w[i] := List.sum_take_succ w i hi
  have hle : (w.take (i + 1)).sum ≤ w.sum := by
    conv_rhs => rw [← List.take_append_drop (i + 1) w, List.sum_append]
    exact Nat.le_add_right _ _
  have hfilter : ((Finset.Icc 1 w.sum).filter fun d =>
      walk (built nodes weights added).nodes (.ofNat d) = some i) =
      Finset.Ioc (w.take i).sum (w.take (i + 1)).sum := by
    ext d
    rw [Finset.mem_filter, Finset.mem_Icc, Finset.mem_Ioc]
    by_cases hd : 1 ≤ d ∧ d ≤ w.sum
    · have hnat := toNat_ofNat_draw hd.2 hlt
      rw [walk_eq_some_iff _ _ _ (by omega), hw, hnat, hlen]
      omega
    · omega
  rw [hfilter, Nat.card_Ioc, hsucc, Nat.add_sub_cancel_left]

/-- The random choice is proportional: the draws are `1, …, W`, as many of them as the weight of a
node make `select` return it, and the loop always finds one. -/
theorem weightedRandom_proportional
    (hpos : 0 < (weightsOf (entriesOf nodes weights added)).sum) :
    (built nodes weights added).totalWeight.toNat =
        (weightsOf (entriesOf nodes weights added)).sum ∧
      (∀ i, (hi : i < (weightsOf (entriesOf nodes weights added)).length) →
        ((Finset.Icc 1 (weightsOf (entriesOf nodes weights added)).sum).filter fun d =>
          walk (built nodes weights added).nodes (.ofNat d) = some i).card =
            (weightsOf (entriesOf nodes weights added))[i]) ∧
      ∀ d ∈ Finset.Icc 1 (weightsOf (entriesOf nodes weights added)).sum, ∃ i e,
        walk (built nodes weights added).nodes (.ofNat d) = some i ∧
        (entriesOf nodes weights added)[i]? = some e ∧ 0 < e.2 ∧
        (built nodes weights added).select (.ofNat d) = some e.1 := by
  have htotal := built_totalWeight nodes weights added hlt
  refine ⟨htotal, fun i hi => card_draws nodes weights added hlt hi, ?_⟩
  intro d hd
  rw [Finset.mem_Icc] at hd
  have hnat := toNat_ofNat_draw hd.2 hlt
  obtain ⟨i, hi⟩ := exists_walk (built nodes weights added).nodes (.ofNat d) (by omega)
    (by rw [built_weights, hnat]; exact hd.2)
  obtain ⟨hlen, hgt, hle⟩ := (walk_eq_some_iff _ _ _ (by omega)).mp hi
  rw [built_weights] at hgt hle
  rw [built_nodes, List.length_map] at hlen
  have he := List.getElem?_eq_getElem hlen
  have hweight : 0 < (entriesOf nodes weights added)[i].2.toNat := by
    rw [List.sum_take_succ _ i (by rw [weightsOf, List.length_map]; exact hlen)] at hle
    simp only [weightsOf, List.getElem_map] at hgt hle
    omega
  refine ⟨i, _, hi, he, UInt32.lt_iff_toNat_lt.mpr hweight, ?_⟩
  have hne : (built nodes weights added).nodes ≠ [] := by
    intro hnil
    rw [hnil] at hi
    cases hi
  have htotal' : (built nodes weights added).totalWeight ≠ 0 := by
    intro hzero
    rw [hzero] at htotal
    exact hpos.ne htotal
  simp only [WeightedRandomLoadBalancer.select, hne, htotal', or_self, if_false, hi]
  rw [built_nodes, List.getElem?_map, he]
  rfl

end Built

/-- Weights 2 and 0 from the constructor, and 3 appended: five draws. -/
theorem weightedRandom_two_zero_three :
    (built ["a", "b"] [2, 0] [("c", 3)]).totalWeight.toNat = 5 ∧
      (∀ i, (hi : i < 3) → ((Finset.Icc 1 5).filter fun d =>
        walk (built ["a", "b"] [2, 0] [("c", 3)]).nodes (.ofNat d) = some i).card = [2, 0, 3][i]) :=
  let h := weightedRandom_proportional ["a", "b"] [2, 0] [("c", 3)] (by decide) (by decide)
  ⟨h.1, h.2.1⟩

end RandomShares

end GalayKernel.Proofs
