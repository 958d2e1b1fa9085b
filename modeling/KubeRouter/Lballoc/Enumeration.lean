/-
  The cursor of a pool enumerates the pool (`lballoc/src/pools.rs`).

  The cursor of a list of ranges that do not overlap is followed increment by increment, with its
  range and its address. The number of increments of a lap is the number of addresses of all ranges;
  a range may end at the top of the address space, or hold all of it.

  Proved:
  * `tours`: one increment, from each address of each range.
  * `minimalPeriod_inc`: the cursor is new again after a lap and not before.
  * `cursor_enumerates`: a lap meets every address of every range once, in order, and ends where it
    began; the increment of an address is addition of one, modulo the size of the address space.
-/
import KubeRouter.Lballoc.Cursor
import KubeRouter.Lib.Blocks

namespace KubeRouter.Lballoc.IpRanges

/-- A new cursor after some increments. -/
def after (ranges : List IpNet) (k : Nat) : IpRanges := inc^[k] (new ranges)

/-- What the cursor of the ranges does. -/
structure Enumerates (ranges : List IpNet) : Prop where
  kept : ∀ k, (after ranges k).ranges = ranges
  /-- At every step, also of later laps, the address lies in the current range. -/
  inside : ∀ k, ∃ n ip, ranges[(after ranges k).rangeIndex]? = some n ∧
    (after ranges k).currentIp = some ip ∧ n.contains ip = true
  meets : ∀ i n ip, ranges[i]? = some n → n.contains ip = true →
    ∃ k < spanSum ranges, (after ranges k).rangeIndex = i ∧ (after ranges k).currentIp = some ip
  once : ∀ j k, j < spanSum ranges → k < spanSum ranges →
    (after ranges j).currentIp = (after ranges k).currentIp → j = k
  ascending : ∀ j k, j < k → k < spanSum ranges →
    (after ranges j).rangeIndex < (after ranges k).rangeIndex ∨
      (after ranges j).rangeIndex = (after ranges k).rangeIndex ∧
        ∀ a b, (after ranges j).currentIp = some a → (after ranges k).currentIp = some b →
          a.value < b.value
  back : after ranges (spanSum ranges) = new ranges

/-! ## One increment -/

theorem getElem?_spans {ranges : List IpNet} {i len : Nat}
    (h : (ranges.map (·.span))[i]? = some len) : ∃ n, ranges[i]? = some n ∧ n.span = len := by
  rwa [List.getElem?_map, Option.map_eq_some_iff] at h

theorem getElem?_map_span {ranges : List IpNet} {i : Nat} {n : IpNet} (h : ranges[i]? = some n) :
    (ranges.map (·.span))[i]? = some n.span := by
  rw [List.getElem?_map, h, Option.map_some]

/-- No address is in two ranges. -/
theorem eq_of_contains {ranges : List IpNet} (hapart : ranges.Pairwise Apart) {i j : Nat}
    {n m : IpNet} (hn : ranges[i]? = some n) (hm : ranges[j]? = some m) {ip : IpAddr}
    (hin : n.contains ip = true) (hin' : m.contains ip = true) : i = j := by
  obtain ⟨hi, rfl⟩ := List.getElem?_eq_some_iff.mp hn
  obtain ⟨hj, rfl⟩ := List.getElem?_eq_some_iff.mp hm
  rcases Nat.lt_trichotomy i j with hlt | heq | hlt
  · have hout := List.pairwise_iff_getElem.mp hapart i j hi hj hlt ip hin
    rw [hin'] at hout
    cases hout
  · exact heq
  · have hout := List.pairwise_iff_getElem.mp hapart j i hj hi hlt ip hin'
    rw [hin] at hout
    cases hout

/-- The cursor at an offset of a range. -/
def standing (ranges : List IpNet) (i o : Nat) : IpRanges where
  ranges := ranges
  rangeIndex := i
  currentIp := ranges[i]?.map (·.nth o)

theorem new_eq_standing (ranges : List IpNet) : new ranges = standing ranges 0 0 := by
  unfold new standing
  rw [← List.head?_eq_getElem?]
  simp only [IpNet.nth_zero]

theorem inc_standing {ranges : List IpNet} {i : Nat} {n : IpNet} (hn : ranges[i]? = some n)
    (o : Nat) : (standing ranges i o).inc =
      if n.contains (n.nth (o + 1)) then standing ranges i (o + 1)
      else standing ranges (Blocks.next (ranges.map (·.span)) i) 0 := by
  have hindex : (if i + 1 ≥ ranges.length then 0 else i + 1) =
      Blocks.next (ranges.map (·.span)) i := by
    unfold Blocks.next
    rw [List.length_map]
    split <;> split <;> omega
  unfold inc standing
  simp only [hn, Option.map_some, incIp_nth, hindex, IpNet.nth_zero]

/-- A range that holds the whole address space leaves no room for another one. -/
theorem eq_of_whole {ranges : List IpNet} {fam : IpFamily} (hfam : ∀ n ∈ ranges, n.family = fam)
    (hapart : ranges.Pairwise Apart) {i j : Nat} {n m : IpNet} (hn : ranges[i]? = some n)
    (hm : ranges[j]? = some m) (hwhole : n.prefixLen = 0) : i = j := by
  have hin : n.contains m.network = true := by
    refine IpNet.contains_whole hwhole ?_
    rw [m.network_family, hfam m (List.mem_of_getElem? hm), hfam n (List.mem_of_getElem? hn)]
  exact eq_of_contains hapart hn hm hin m.contains_network

theorem tours {ranges : List IpNet} {fam : IpFamily} (hfam : ∀ n ∈ ranges, n.family = fam)
    (hapart : ranges.Pairwise Apart) :
    Blocks.Tours inc (standing ranges) (ranges.map (·.span)) where
  inside := by
    intro i len hlen o ho
    obtain ⟨n, hn, rfl⟩ := getElem?_spans hlen
    rw [inc_standing hn, if_pos (n.contains_nth ho)]
  leave := by
    intro i len hlen o ho
    obtain ⟨n, hn, rfl⟩ := getElem?_spans hlen
    rw [inc_standing hn, ho]
    by_cases hwhole : n.prefixLen = 0
    · -- The increment wraps to the first address, which is in the range.
      have hfirst : n.nth n.span = n.nth 0 := IpNet.nth_span_add hwhole 0
      obtain ⟨hi, -⟩ := List.getElem?_eq_some_iff.mp hlen
      have hnext := Blocks.next_lt hi
      rw [List.length_map] at hnext
      have hsame : i = Blocks.next (ranges.map (·.span)) i :=
        eq_of_whole hfam hapart hn (List.getElem?_eq_getElem hnext) hwhole
      rw [← hsame, hfirst, if_pos (n.contains_nth n.span_pos)]
      unfold standing
      rw [hn, Option.map_some, Option.map_some, hfirst]
    · rw [if_neg (by simp [IpNet.not_contains_nth_span hwhole])]

/-! ## A lap -/

section Lap

variable {ranges : List IpNet} {fam : IpFamily} (hfam : ∀ n ∈ ranges, n.family = fam)
  (hapart : ranges.Pairwise Apart)

theorem spanSum_pos_of_ne_nil {ranges : List IpNet} (hne : ranges ≠ []) : 0 < spanSum ranges := by
  obtain ⟨n, rest, rfl⟩ := List.exists_cons_of_ne_nil hne
  exact spanSum_pos n rest

theorem spans_pos (ranges : List IpNet) : ∀ len ∈ ranges.map (·.span), 0 < len := by
  intro len hlen
  obtain ⟨n, -, rfl⟩ := List.mem_map.mp hlen
  exact n.span_pos

/-- Every step of a lap is at an address of a range. -/
theorem exists_offset {k : Nat} (hk : k < spanSum ranges) : ∃ i n o, ranges[i]? = some n ∧
    o < n.span ∧ k = Blocks.place (ranges.map (·.span)) i o := by
  obtain ⟨i, len, o, hlen, ho, hplace⟩ := Blocks.exists_place hk
  obtain ⟨n, hn, rfl⟩ := getElem?_spans hlen
  exact ⟨i, n, o, hn, ho, hplace⟩

include hfam hapart

theorem after_place {i o : Nat} {n : IpNet} (hn : ranges[i]? = some n) (ho : o < n.span) :
    after ranges (Blocks.place (ranges.map (·.span)) i o) = ⟨ranges, i, some (n.nth o)⟩ := by
  unfold after
  rw [new_eq_standing,
    (tours hfam hapart).iterate (spans_pos ranges) (getElem?_map_span hn) ho]
  unfold standing
  rw [hn, Option.map_some]

theorem after_meets {i : Nat} {n : IpNet} (hn : ranges[i]? = some n) {ip : IpAddr}
    (hin : n.contains ip = true) : ∃ k < spanSum ranges,
      (after ranges k).rangeIndex = i ∧ (after ranges k).currentIp = some ip := by
  obtain ⟨o, ho, rfl⟩ := (n.contains_iff_nth ip).mp hin
  refine ⟨_, Blocks.place_lt_sum (getElem?_map_span hn) ho, ?_⟩
  rw [after_place hfam hapart hn ho]
  exact ⟨rfl, rfl⟩

theorem after_once {j k : Nat} (hj : j < spanSum ranges) (hk : k < spanSum ranges)
    (hsame : (after ranges j).currentIp = (after ranges k).currentIp) : j = k := by
  obtain ⟨i, n, o, hn, ho, rfl⟩ := exists_offset hj
  obtain ⟨i', n', o', hn', ho', rfl⟩ := exists_offset hk
  rw [after_place hfam hapart hn ho, after_place hfam hapart hn' ho'] at hsame
  have hip : n.nth o = n'.nth o' := Option.some.inj hsame
  obtain rfl : i = i' :=
    eq_of_contains hapart hn hn' (n.contains_nth ho) (hip ▸ n'.contains_nth ho')
  obtain rfl : n = n' := Option.some.inj (hn.symm.trans hn')
  rw [n.nth_inj ho ho' hip]

/-- A later step of a lap is in a later range, or behind in the same one. -/
theorem after_ascending {j k : Nat} (hjk : j < k) (hk : k < spanSum ranges) :
    (after ranges j).rangeIndex < (after ranges k).rangeIndex ∨
      (after ranges j).rangeIndex = (after ranges k).rangeIndex ∧
        ∀ a b, (after ranges j).currentIp = some a → (after ranges k).currentIp = some b →
          a.value < b.value := by
  obtain ⟨i, n, o, hn, ho, rfl⟩ := exists_offset (Nat.lt_trans hjk hk)
  obtain ⟨i', n', o', hn', ho', rfl⟩ := exists_offset hk
  rw [after_place hfam hapart hn ho, after_place hfam hapart hn' ho']
  rcases (Blocks.place_lt_iff (getElem?_map_span hn) ho (getElem?_map_span hn') ho').mp hjk with
    hi | ⟨rfl, hlt⟩
  · exact .inl hi
  · refine .inr ⟨rfl, fun a b ha hb => ?_⟩
    obtain rfl : n = n' := Option.some.inj (hn.symm.trans hn')
    cases ha
    cases hb
    rw [n.nth_value_of_lt ho, n.nth_value_of_lt ho']
    omega

variable (hne : ranges ≠ [])
include hne

theorem after_back : Function.IsPeriodicPt inc (spanSum ranges) (new ranges) := by
  rw [new_eq_standing]
  exact (tours hfam hapart).back (spans_pos ranges) (by simpa using hne)

theorem after_inside (k : Nat) : ∃ n ip, ranges[(after ranges k).rangeIndex]? = some n ∧
    (after ranges k).currentIp = some ip ∧ n.contains ip = true := by
  have hpos := spanSum_pos_of_ne_nil hne
  obtain ⟨i, n, o, hn, ho, hplace⟩ := exists_offset (Nat.mod_lt k hpos)
  have hafter : after ranges k = ⟨ranges, i, some (n.nth o)⟩ := by
    rw [← after_place hfam hapart hn ho, ← hplace]
    exact ((after_back hfam hapart hne).iterate_mod_apply k).symm
  rw [hafter]
  exact ⟨n, n.nth o, hn, rfl, n.contains_nth ho⟩

/-- The cursor is new again after a lap and not before. -/
theorem minimalPeriod_inc : Function.minimalPeriod inc (new ranges) = spanSum ranges := by
  have hback := after_back hfam hapart hne
  have hpos := spanSum_pos_of_ne_nil hne
  have hle := hback.minimalPeriod_le hpos
  refine Nat.le_antisymm hle (Nat.le_of_not_lt fun hlt => ?_)
  have hagain : after ranges (Function.minimalPeriod inc (new ranges)) = after ranges 0 :=
    Function.iterate_minimalPeriod
  have hzero := after_once hfam hapart hlt hpos (congrArg currentIp hagain)
  have hperiod := hback.minimalPeriod_pos hpos
  omega

end Lap

/-- Starting from `new`, `inc` goes through all addresses of disjoint ranges of one family. -/
theorem cursor_enumerates {ranges : List IpNet} {fam : IpFamily} (hne : ranges ≠ [])
    (hfam : ∀ n ∈ ranges, n.family = fam) (hapart : ranges.Pairwise Apart) :
    Enumerates ranges ∧
      ∀ ip, (incIp ip).family = ip.family ∧ (incIp ip).value = (ip.value + 1) % 2 ^ ip.bits := by
  constructor
  · exact {
      kept := iterate_inc_ranges (new ranges)
      inside := after_inside hfam hapart hne
      meets := fun i n ip hn hin => after_meets hfam hapart hn hin
      once := fun j k hj hk hsame => after_once hfam hapart hj hk hsame
      ascending := fun j k hjk hk => after_ascending hfam hapart hjk hk
      back := after_back hfam hapart hne }
  · intro ip
    rw [incIp_eq]
    exact ⟨IpAddr.family_ofValue _ _, IpAddr.value_ofValue ip _⟩

/-- A range at the top of the address space in front of another one, and the whole space. -/
theorem top_and_whole_enumerate :
    Enumerates [net 255 255 255 254 31, net 10 0 0 0 30] ∧ Enumerates [net 0 0 0 0 0] := by
  have hapart : Apart (net 255 255 255 254 31) (net 10 0 0 0 30) := apart_iff.mpr (by decide)
  have hfam : ∀ n ∈ [net 255 255 255 254 31, net 10 0 0 0 30], n.family = .V4 := by decide
  exact ⟨(cursor_enumerates (by decide) hfam (List.pairwise_pair.mpr hapart)).1,
    (cursor_enumerates (by decide) (List.forall_mem_singleton.mpr rfl)
      (List.pairwise_singleton _ _)).1⟩

end KubeRouter.Lballoc.IpRanges
