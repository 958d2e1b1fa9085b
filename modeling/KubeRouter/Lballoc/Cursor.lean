/-
  Which addresses the cursor of a pool meets, and when a search misses a free one
  (`lballoc/src/pools.rs`).

  The increments of a fresh cursor go through the ranges one after another and over again; a range
  of length 0 wraps into itself and is never left (`addressAt`). A search starts at the address
  behind the cursor and ends at a free one, or when it meets its start address again. It compares
  addresses, so it ends early where an address stands in two ranges.

  Proved:
  * `incIp_eq`: the increment of an address, with carries and wrap-around.
  * `reachable_iff`: the cursors that a run of searches can leave.
  * `handsOut_iff_even`: every search of every reachable cursor finds a free address if there is
    one, exactly when every address of the course comes again at one and the same distance.
  * `even_of_apart`: this is so for ranges that do not overlap.
  * `overlap_missed`: two ranges that the flag check accepts and that hide free addresses.
-/
import KubeRouter.Agent.Config
import KubeRouter.Common.Span
import KubeRouter.Lballoc.Pools
import KubeRouter.Lib.Lap
import Mathlib.Data.List.ReduceOption
import Mathlib.Data.Nat.Digits.Defs

namespace KubeRouter.Lballoc

/-! ## The increment -/

/-- Value of octets, least significant first. -/
def leValue (l : List UInt8) : Nat := Nat.ofDigits 256 (l.map UInt8.toNat)

theorem leValue_cons (b : UInt8) (l : List UInt8) : leValue (b :: l) = b.toNat + 256 * leValue l :=
  Nat.ofDigits_cons ..

theorem fromOctets_eq (l : List UInt8) : fromOctets l = leValue l.reverse := by
  induction l using List.reverseRecOn with
  | nil => rfl
  | append_singleton l b ih =>
    rw [List.reverse_concat, leValue_cons, ← ih]
    unfold fromOctets
    rw [List.foldl_concat]
    omega

theorem leValue_digits (n v : Nat) :
    leValue ((List.range n).map fun i => UInt8.ofNat (v / 256 ^ i % 256)) = v % 256 ^ n := by
  induction n with
  | zero => simp [leValue, Nat.mod_one]
  | succ n ih =>
    unfold leValue at ih ⊢
    rw [List.range_succ, List.map_append, List.map_append, Nat.ofDigits_append, ih,
      Nat.mod_pow_succ]
    simp

theorem leValue_bumpRev (l : List UInt8) :
    leValue (bumpRev l) % 256 ^ l.length = (leValue l + 1) % 256 ^ l.length := by
  induction l with
  | nil => simp [Nat.mod_one]
  | cons b rest ih =>
    unfold bumpRev
    rw [List.length_cons, Nat.pow_succ', leValue_cons]
    split
    · next hb =>
      have hadd : (b + 1).toNat = b.toNat + 1 := by
        have hne : (b + 1).toNat ≠ 0 := fun h => hb (UInt8.toNat_inj.mp h)
        have hlt := b.toNat_lt
        rw [UInt8.toNat_add, UInt8.toNat_one] at hne ⊢
        omega
      rw [leValue_cons, hadd]
      congr 1
      omega
    · next hb =>
      have hzero : b + 1 = 0 := by simpa using hb
      have hlast : b.toNat = 255 := by
        have hsum := congrArg UInt8.toNat hzero
        have hlt := b.toNat_lt
        rw [UInt8.toNat_add, UInt8.toNat_one, UInt8.toNat_zero] at hsum
        omega
      rw [leValue_cons, hzero, hlast]
      have hcarry : 255 + 256 * leValue rest + 1 = 256 * (leValue rest + 1) := by omega
      rw [hcarry, UInt8.toNat_zero, Nat.zero_add, Nat.mul_mod_mul_left, Nat.mul_mod_mul_left, ih]

theorem fromOctets_bump_octets (n v : Nat) :
    fromOctets (bump (octets n v)) % 256 ^ n = (v + 1) % 256 ^ n := by
  have hrev : (octets n v).reverse = (List.range n).map fun i =>
      UInt8.ofNat (v / 256 ^ i % 256) := by
    simp [octets]
  have hlen : ((octets n v).reverse).length = n := by rw [hrev]; simp
  have hbump := leValue_bumpRev (octets n v).reverse
  rw [hlen, hrev, leValue_digits, Nat.mod_add_mod] at hbump
  rw [bump, fromOctets_eq, List.reverse_reverse, hrev, hbump]

theorem incIp_eq (ip : IpAddr) : incIp ip = IpAddr.ofValue ip.family (ip.value + 1) := by
  cases ip with
  | V4 a =>
    apply congrArg IpAddr.V4
    apply BitVec.eq_of_toNat_eq
    exact fromOctets_bump_octets 4 a.toNat
  | V6 a =>
    apply congrArg IpAddr.V6
    apply BitVec.eq_of_toNat_eq
    exact fromOctets_bump_octets 16 a.toNat

theorem incIp_nth (n : IpNet) (o : Nat) : incIp (n.nth o) = n.nth (o + 1) := by
  rw [incIp_eq]
  apply IpAddr.eq_of_value
  · rw [IpAddr.family_ofValue, IpNet.family_nth, IpNet.family_nth]
  · have hfam : (n.nth o).family = n.addr.family := n.family_nth o
    rw [hfam, IpAddr.value_ofValue n.addr, IpNet.nth_value, IpNet.nth_value, Nat.mod_add_mod,
      Nat.add_assoc]

/-! ## The addresses in the cursor's order -/

/-- The address `t` places behind the first one of the first range: range after range, over and
over. A range that holds the whole address space is never left. -/
def addressAt (ranges : List IpNet) (t : Nat) : Option IpAddr :=
  match ranges with
  | [] => none
  | n :: rest =>
    if t < n.span ∨ n.prefixLen = 0 then some (n.nth t)
    else addressAt (rest ++ [n]) (t - n.span)
termination_by t
decreasing_by
  have := n.span_pos
  omega

/-- Number of addresses of a list of ranges, range by range. -/
def spanSum (ranges : List IpNet) : Nat := (ranges.map (·.span)).sum

theorem spanSum_pos (n : IpNet) (rest : List IpNet) : 0 < spanSum (n :: rest) := by
  have := n.span_pos
  simp only [spanSum, List.map_cons, List.sum_cons]
  omega

theorem addressAt_of_lt {n : IpNet} (rest : List IpNet) {t : Nat} (h : t < n.span) :
    addressAt (n :: rest) t = some (n.nth t) := by
  rw [addressAt, if_pos (Or.inl h)]

theorem addressAt_whole {n : IpNet} (rest : List IpNet) (h : n.prefixLen = 0) (t : Nat) :
    addressAt (n :: rest) t = some (n.nth t) := by
  rw [addressAt, if_pos (Or.inr h)]

theorem addressAt_span_add {n : IpNet} (rest : List IpNet) (h : n.prefixLen ≠ 0) (t : Nat) :
    addressAt (n :: rest) (n.span + t) = addressAt (rest ++ [n]) t := by
  rw [addressAt, if_neg (by omega), Nat.add_sub_cancel_left]

/-- Ranges none of which holds the whole address space are gone through one by one. -/
theorem addressAt_append {front : List IpNet} (h : ∀ n ∈ front, n.prefixLen ≠ 0)
    (back : List IpNet) (t : Nat) :
    addressAt (front ++ back) (spanSum front + t) = addressAt (back ++ front) t := by
  induction front generalizing back with
  | nil => simp [spanSum]
  | cons n front ih =>
    have hn : n.prefixLen ≠ 0 := h n List.mem_cons_self
    calc addressAt (n :: (front ++ back)) (spanSum (n :: front) + t)
        = addressAt (n :: (front ++ back)) (n.span + (spanSum front + t)) := by
          simp [spanSum, Nat.add_assoc]
      _ = addressAt (front ++ (back ++ [n])) (spanSum front + t) := by
          rw [addressAt_span_add _ hn, List.append_assoc]
      _ = addressAt (back ++ n :: front) t := by
          rw [ih (fun m hm => h m (List.mem_cons_of_mem _ hm)), List.append_assoc]
          rfl

theorem addressAt_periodic {ranges : List IpNet} (h : ∀ n ∈ ranges, n.prefixLen ≠ 0) :
    Function.Periodic (addressAt ranges) (spanSum ranges) := by
  intro t
  have hlap := addressAt_append h [] t
  rwa [List.append_nil, List.nil_append, Nat.add_comm] at hlap

theorem addressAt_mem {ranges : List IpNet} {t : Nat} {ip : IpAddr}
    (h : addressAt ranges t = some ip) : ∃ n ∈ ranges, n.contains ip = true := by
  fun_induction addressAt ranges t with
  | case1 => cases h
  | case2 t n rest hlt =>
    cases h
    refine ⟨n, List.mem_cons_self, ?_⟩
    rcases hlt with hlt | hwhole
    · exact n.contains_nth hlt
    · exact IpNet.contains_whole hwhole (n.family_nth t)
  | case3 t n rest hge ih =>
    obtain ⟨m, hm, hin⟩ := ih h
    rw [List.mem_append, List.mem_singleton, or_comm, ← List.mem_cons] at hm
    exact ⟨m, hm, hin⟩

/-- The first range that holds the whole address space, if there is one. -/
theorem whole_split (ranges : List IpNet) : (∀ n ∈ ranges, n.prefixLen ≠ 0) ∨
    ∃ front z back, ranges = front ++ z :: back ∧ z.prefixLen = 0 ∧
      ∀ n ∈ front, n.prefixLen ≠ 0 := by
  cases h : ranges.find? (·.prefixLen == 0) with
  | none => exact .inl (by simpa using h)
  | some z =>
    obtain ⟨hz, front, back, heq, hfront⟩ := List.find?_eq_some_iff_append.mp h
    exact .inr ⟨front, z, back, heq, by simpa using hz, by simpa using hfront⟩

/-- Behind the ranges in front of it, a range that holds the whole address space meets every
address of its family. -/
theorem addressAt_whole_split {ranges front back : List IpNet} {z : IpNet}
    (heq : ranges = front ++ z :: back) (hz : z.prefixLen = 0)
    (hfront : ∀ n ∈ front, n.prefixLen ≠ 0) (t : Nat) :
    addressAt ranges (spanSum front + t) = some (z.nth t) := by
  rw [heq, addressAt_append hfront]
  exact addressAt_whole _ hz t

theorem addressAt_isSome {ranges : List IpNet} (hne : ranges ≠ []) (t : Nat) :
    ∃ ip, addressAt ranges t = some ip := by
  fun_induction addressAt ranges t with
  | case1 => exact absurd rfl hne
  | case2 t n rest hlt => exact ⟨_, rfl⟩
  | case3 t n rest hge ih => exact ih (by simp)

section OneFamily

variable {ranges : List IpNet} {fam : IpFamily} (hfam : ∀ n ∈ ranges, n.family = fam)
include hfam

theorem addressAt_family {t : Nat} {ip : IpAddr} (h : addressAt ranges t = some ip) :
    ip.family = fam := by
  obtain ⟨n, hn, hin⟩ := addressAt_mem h
  rw [IpNet.contains_family hin, hfam n hn]

theorem addressAt_of_contains {n : IpNet} (hn : n ∈ ranges) {ip : IpAddr}
    (hin : n.contains ip = true) : ∃ t, addressAt ranges t = some ip := by
  rcases whole_split ranges with hall | ⟨front, z, back, heq, hz, hfront⟩
  · obtain ⟨front, back, rfl⟩ := List.append_of_mem hn
    obtain ⟨o, ho, rfl⟩ := (n.contains_iff_nth ip).mp hin
    refine ⟨spanSum front + o, ?_⟩
    rw [addressAt_append fun m hm => hall m (List.mem_append_left _ hm)]
    exact addressAt_of_lt _ ho
  · have hzfam : ip.family = z.family := by
      rw [IpNet.contains_family hin, hfam n hn, hfam z (by simp [heq])]
    refine ⟨spanSum front + ip.value, ?_⟩
    rw [addressAt_whole_split heq hz hfront, IpNet.nth_value_self hz hzfam]

/-- Every address comes again within as many places as the ranges have addresses. -/
theorem addressAt_again (hne : ranges ≠ []) (t : Nat) :
    ∃ k, 0 < k ∧ k ≤ spanSum ranges ∧ addressAt ranges (t + k) = addressAt ranges t := by
  rcases whole_split ranges with hall | ⟨front, z, back, heq, hz, hfront⟩
  · obtain ⟨n, rest, rfl⟩ := List.exists_cons_of_ne_nil hne
    exact ⟨spanSum (n :: rest), spanSum_pos n rest, Nat.le_refl _, addressAt_periodic hall t⟩
  · have hsum : spanSum front + z.span ≤ spanSum ranges := by
      simp only [heq, spanSum, List.map_append, List.map_cons, List.sum_append, List.sum_cons]
      omega
    by_cases ht : spanSum front ≤ t
    · -- already inside the range that is never left
      refine ⟨z.span, z.span_pos, by omega, ?_⟩
      obtain ⟨u, rfl⟩ := Nat.exists_eq_add_of_le ht
      rw [Nat.add_assoc, addressAt_whole_split heq hz hfront,
        addressAt_whole_split heq hz hfront, Nat.add_comm u, IpNet.nth_span_add hz]
    · obtain ⟨ip, hip⟩ := addressAt_isSome hne t
      have hipfam : ip.family = z.family := by
        rw [addressAt_family hfam hip, hfam z (by simp [heq])]
      have hval := IpNet.value_lt_span hz hipfam
      refine ⟨spanSum front + ip.value - t, by omega, by omega, ?_⟩
      rw [show t + (spanSum front + ip.value - t) = spanSum front + ip.value by omega,
        addressAt_whole_split heq hz hfront, IpNet.nth_value_self hz hipfam, hip]

end OneFamily

/-! ## The cursor walks through them -/

namespace IpRanges

/-- The cursor stands at offset `o` of the range `n`, and the ranges `rest` come next. -/
structure Stands (r : IpRanges) (n : IpNet) (rest : List IpNet) (o : Nat) : Prop where
  index : r.rangeIndex < r.ranges.length
  order : r.ranges.rotate r.rangeIndex = n :: rest
  offset : o < n.span
  current : r.currentIp = some (n.nth o)

theorem new_stands (n : IpNet) (rest : List IpNet) : Stands (new (n :: rest)) n rest 0 where
  index := Nat.succ_pos _
  order := List.rotate_zero _
  offset := n.span_pos
  current := congrArg some n.nth_zero.symm

namespace Stands

variable {r : IpRanges} {n : IpNet} {rest : List IpNet} {o : Nat}

theorem range (h : Stands r n rest o) : r.ranges[r.rangeIndex]? = some n := by
  rw [← List.head?_rotate h.index, h.order]
  rfl

theorem inc_inside (h : Stands r n rest o) (hin : n.contains (n.nth (o + 1)) = true) :
    r.inc = { r with currentIp := some (n.nth (o + 1)) } := by
  unfold inc
  rw [h.current, h.range]
  dsimp only
  rw [incIp_nth, if_pos hin]

/-- Behind the last address of a range, at the first one of the next. -/
theorem inc_leave (h : Stands r n rest o) (hlast : o + 1 = n.span) (hn : n.prefixLen ≠ 0) :
    ∃ m rest', rest ++ [n] = m :: rest' ∧ Stands r.inc m rest' 0 := by
  have hout : n.contains (n.nth (o + 1)) = false := by
    rw [hlast]
    exact IpNet.not_contains_nth_span hn
  have hlen := h.index
  let index := if r.rangeIndex + 1 ≥ r.ranges.length then 0 else r.rangeIndex + 1
  have hinc : r.inc = { r with
      rangeIndex := index, currentIp := r.ranges[index]?.map (·.network) } := by
    unfold inc
    rw [h.current, h.range]
    dsimp only
    rw [incIp_nth, if_neg (by rw [hout]; exact Bool.false_ne_true)]
  have hindex : index < r.ranges.length := by
    dsimp only [index]
    split <;> omega
  have hrot : r.ranges.rotate index = rest ++ [n] := by
    have hnext : r.ranges.rotate (r.rangeIndex + 1) = rest ++ [n] := by
      rw [← List.rotate_rotate, h.order, List.rotate_cons_succ, List.rotate_zero]
    dsimp only [index]
    split
    · rw [List.rotate_zero, ← hnext, show r.rangeIndex + 1 = r.ranges.length by omega,
        List.rotate_length]
    · exact hnext
  obtain ⟨m, rest', heq⟩ := List.exists_cons_of_ne_nil (l := rest ++ [n]) (by simp)
  have hget : r.ranges[index]? = some m := by
    rw [← List.head?_rotate hindex, hrot, heq]
    rfl
  refine ⟨m, rest', heq, ?_⟩
  rw [hinc]
  exact ⟨hindex, hrot.trans heq, m.span_pos, by rw [hget, IpNet.nth_zero]; rfl⟩

/-- One step, and the places behind it. -/
theorem step (h : Stands r n rest o) : ∃ n' rest' o', Stands r.inc n' rest' o' ∧
    ∀ k, addressAt (n' :: rest') (o' + k) = addressAt (n :: rest) (o + (k + 1)) := by
  have hoff := h.offset
  by_cases hlast : o + 1 = n.span
  · by_cases hn : n.prefixLen = 0
    · have hwrap : n.nth (o + 1) = n.nth 0 := by
        rw [hlast, ← IpNet.nth_span_add hn 0, Nat.add_zero]
      have hinc := h.inc_inside (by rw [hwrap]; exact n.contains_nth n.span_pos)
      refine ⟨n, rest, 0, ?_, fun k => ?_⟩
      · rw [hinc]
        exact ⟨h.index, h.order, n.span_pos, by rw [hwrap]⟩
      · rw [addressAt_whole _ hn, addressAt_whole _ hn, Nat.zero_add,
          show o + (k + 1) = n.span + k by omega, IpNet.nth_span_add hn]
    · obtain ⟨m, rest', heq, hstep⟩ := h.inc_leave hlast hn
      refine ⟨m, rest', 0, hstep, fun k => ?_⟩
      rw [← heq, Nat.zero_add, show o + (k + 1) = n.span + k by omega, addressAt_span_add _ hn]
  · have hlt : o + 1 < n.span := by omega
    refine ⟨n, rest, o + 1, ?_, fun k => by rw [show o + 1 + k = o + (k + 1) by omega]⟩
    rw [h.inc_inside (n.contains_nth hlt)]
    exact ⟨h.index, h.order, hlt, rfl⟩

/-- The cursor meets the addresses in order. -/
theorem walk (h : Stands r n rest o) (k : Nat) :
    (inc^[k] r).currentIp = addressAt (n :: rest) (o + k) := by
  induction k generalizing r n rest o with
  | zero => rw [Function.iterate_zero_apply, h.current, Nat.add_zero, addressAt_of_lt _ h.offset]
  | succ k ih =>
    obtain ⟨n', rest', o', hstep, hplaces⟩ := h.step
    rw [Function.iterate_succ_apply, ih hstep, hplaces]

end Stands

/-! ## The search -/

/-- The loop of `next_free_ip`, without a bound, leaves in round `rounds` with `res`. -/
inductive Leaves (allocated : List IpAddr) (start : IpAddr) :
    Nat → IpRanges → IpAddr → Option IpAddr × IpRanges → Prop
  | free {r : IpRanges} {ip : IpAddr} (h : ip ∉ allocated) :
    Leaves allocated start 1 r ip (some ip, r)
  | gone {r : IpRanges} {ip : IpAddr} (h : ip ∈ allocated) (hcur : r.inc.currentIp = none) :
    Leaves allocated start 1 r ip (none, r.inc)
  | wrapped {r : IpRanges} {ip : IpAddr} (h : ip ∈ allocated)
    (hcur : r.inc.currentIp = some start) : Leaves allocated start 1 r ip (none, r.inc)
  | round {rounds : Nat} {r : IpRanges} {ip ip' : IpAddr} {res : Option IpAddr × IpRanges}
    (h : ip ∈ allocated) (hcur : r.inc.currentIp = some ip') (hne : ip' ≠ start)
    (hrest : Leaves allocated start rounds r.inc ip' res) :
    Leaves allocated start (rounds + 1) r ip res

/-- `next_free_ip` returns with `res`. -/
inductive Returns (r : IpRanges) (allocated : List IpAddr) : Option IpAddr × IpRanges → Prop
  | disabled (h : r.currentIp = none) : Returns r allocated (none, r)
  | loop {start : IpAddr} {rounds : Nat} {res : Option IpAddr × IpRanges}
    (h : r.currentIp = some start) (hloop : Leaves allocated start rounds r start res) :
    Returns r allocated res

/-- With enough rounds the bounded loop agrees. -/
theorem Leaves.scan_eq {allocated : List IpAddr} {start : IpAddr} {rounds : Nat} {r : IpRanges}
    {ip : IpAddr} {res : Option IpAddr × IpRanges}
    (h : Leaves allocated start rounds r ip res) {fuel : Nat} (hfuel : rounds ≤ fuel) :
    scan allocated start fuel r ip = res := by
  induction h generalizing fuel with
  | free h =>
    obtain ⟨fuel, rfl⟩ := Nat.exists_eq_add_of_le' hfuel
    rw [scan, if_pos h]
  | gone h hcur =>
    obtain ⟨fuel, rfl⟩ := Nat.exists_eq_add_of_le' hfuel
    rw [scan, if_neg (not_not_intro h)]
    simp only [hcur]
  | wrapped h hcur =>
    obtain ⟨fuel, rfl⟩ := Nat.exists_eq_add_of_le' hfuel
    rw [scan, if_neg (not_not_intro h)]
    simp only [hcur, if_pos]
  | round h hcur hne hrest ih =>
    obtain ⟨fuel, rfl⟩ := Nat.exists_eq_add_of_le' (Nat.le_trans (Nat.le_add_left 1 _) hfuel)
    rw [scan, if_neg (not_not_intro h)]
    simp only [hcur, if_neg hne]
    exact ih (by omega)

section Walk

variable {r : IpRanges} {s : Nat → Option IpAddr} {p q : Nat} {allocated : List IpAddr}
  {start : IpAddr}

/-- From place `p` on the cursor meets the addresses of `s`. -/
def Walks (r : IpRanges) (s : Nat → Option IpAddr) (p : Nat) : Prop :=
  ∀ k, (inc^[k] r).currentIp = s (p + k)

theorem Walks.inc {r : IpRanges} (h : Walks r s p) : Walks r.inc s (p + 1) := by
  intro k
  rw [← Function.iterate_succ_apply, h (k + 1), show p + (k + 1) = p + 1 + k by omega]

theorem Walks.current {r : IpRanges} (h : Walks r s p) : r.currentIp = s p := h 0

theorem mem_map_some {ip : IpAddr} : some ip ∈ allocated.map some ↔ ip ∈ allocated :=
  List.mem_map_of_injective (Option.some_injective _)

theorem leaves_found (hs : ∀ i, ∃ ip, s i = some ip) (hstart : s p = some start)
    (hf : Lap.Found s (allocated.map some) p q) (d : Nat) :
    ∀ (i : Nat) (r : IpRanges) (ip : IpAddr), p ≤ i → i + d = q → Walks r s i → s i = some ip →
      ∃ found, s q = some found ∧
        Leaves allocated start (d + 1) r ip (some found, inc^[d] r) := by
  induction d with
  | zero =>
    intro i r ip hpi hd hw hip
    obtain rfl : i = q := hd
    exact ⟨ip, hip, .free fun h => hf.free (hip ▸ mem_map_some.mpr h)⟩
  | succ d ih =>
    intro i r ip hpi hd hw hip
    have hmem : ip ∈ allocated := mem_map_some.mp (hip ▸ hf.passed i hpi (by omega))
    obtain ⟨ip', hip'⟩ := hs (i + 1)
    have hne : ip' ≠ start := by
      rintro rfl
      exact hf.ahead.fresh (i + 1) (by omega) (by omega) (hip'.trans hstart.symm)
    obtain ⟨found, hfound, hrest⟩ := ih (i + 1) r.inc ip' (by omega) (by omega) hw.inc hip'
    exact ⟨found, hfound, .round hmem (hw.inc.current.trans hip') hne hrest⟩

theorem leaves_wrapped (hs : ∀ i, ∃ ip, s i = some ip) (hstart : s p = some start)
    (hf : Lap.Wrapped s (allocated.map some) p q) (d : Nat) :
    ∀ (i : Nat) (r : IpRanges) (ip : IpAddr), p ≤ i → i + (d + 1) = q → Walks r s i →
      s i = some ip → Leaves allocated start (d + 1) r ip (none, inc^[d + 1] r) := by
  induction d with
  | zero =>
    intro i r ip hpi hd hw hip
    obtain rfl : i + 1 = q := hd
    have hmem : ip ∈ allocated := mem_map_some.mp (hip ▸ hf.passed i hpi (Nat.lt_succ_self i))
    exact .wrapped hmem (hw.inc.current.trans (hf.returns.again.trans hstart))
  | succ d ih =>
    intro i r ip hpi hd hw hip
    have hmem : ip ∈ allocated := mem_map_some.mp (hip ▸ hf.passed i hpi (by omega))
    obtain ⟨ip', hip'⟩ := hs (i + 1)
    have hne : ip' ≠ start := by
      rintro rfl
      exact hf.returns.fresh (i + 1) (by omega) (by omega) (hip'.trans hstart.symm)
    have hrest := ih (i + 1) r.inc ip' (by omega) (by omega) hw.inc hip'
    exact .round hmem (hw.inc.current.trans hip') hne hrest

/-- A search that stops within the bound of the model returns in the source, with the same
result. -/
theorem nextFreeIp_eq {rounds : Nat} {res : Option IpAddr × IpRanges}
    (hstart : r.currentIp = some start) (h : Leaves allocated start rounds r start res)
    (hsize : rounds ≤ r.size) :
    r.nextFreeIp allocated = res ∧ Returns r allocated (r.nextFreeIp allocated) := by
  have heq : r.nextFreeIp allocated = res := by
    unfold nextFreeIp
    rw [hstart]
    exact h.scan_eq hsize
  exact ⟨heq, heq ▸ .loop hstart h⟩

theorem nextFreeIp_found (hs : ∀ i, ∃ ip, s i = some ip) (hw : Walks r s p)
    (hf : Lap.Found s (allocated.map some) p q) (hsize : q - p < r.size) :
    r.nextFreeIp allocated = (s q, inc^[q - p] r) ∧
      Returns r allocated (r.nextFreeIp allocated) := by
  obtain ⟨start, hstart⟩ := hs p
  have hle := hf.ahead.le
  obtain ⟨found, hfound, h⟩ :=
    leaves_found hs hstart hf (q - p) p r start (Nat.le_refl p) (by omega) hw hstart
  rw [hfound]
  exact nextFreeIp_eq (hw.current.trans hstart) h hsize

theorem nextFreeIp_wrapped (hs : ∀ i, ∃ ip, s i = some ip) (hw : Walks r s p)
    (hf : Lap.Wrapped s (allocated.map some) p q) (hsize : q - p ≤ r.size) :
    r.nextFreeIp allocated = (none, inc^[q - p] r) ∧
      Returns r allocated (r.nextFreeIp allocated) := by
  obtain ⟨start, hstart⟩ := hs p
  have hlt := hf.returns.lt
  have h := leaves_wrapped hs hstart hf (q - p - 1) p r start (Nat.le_refl p) (by omega) hw hstart
  rw [show q - p - 1 + 1 = q - p by omega] at h
  exact nextFreeIp_eq (hw.current.trans hstart) h hsize

end Walk

/-- From place `p` of `s` on the cursor meets the addresses of its pool, and comes back within
as many places as the pool has addresses. -/
structure Course (r : IpRanges) (s : Nat → Option IpAddr) (p : Nat) : Prop where
  walks : Walks r s p
  isSome : ∀ i, ∃ ip, s i = some ip
  returns : ∃ q, Lap.Returns s p q ∧ q - p ≤ r.size
  pool : ∀ ip, r.contains ip = true ↔ ∃ t, s t = some ip

/-- The ranges in any order. -/
theorem course_of_walks {r : IpRanges} {order : List IpNet} {fam : IpFamily} {p : Nat}
    (hperm : order.Perm r.ranges) (hne : order ≠ []) (hfam : ∀ n ∈ r.ranges, n.family = fam)
    (hw : Walks r (addressAt order) p) : Course r (addressAt order) p where
  walks := hw
  isSome := addressAt_isSome hne
  returns := by
    obtain ⟨k, hpos, hle, hagain⟩ :=
      addressAt_again (fun n hn => hfam n (hperm.mem_iff.mp hn)) hne p
    have hsize : spanSum order = r.size := (hperm.map _).sum_eq
    obtain ⟨q, hq⟩ := Lap.exists_returns (s := addressAt order) ⟨p + k, by omega, hagain⟩
    have hqk : q ≤ p + k := Nat.le_of_not_lt fun hlt => hq.fresh (p + k) (by omega) hlt hagain
    exact ⟨q, hq, by omega⟩
  pool := by
    intro ip
    rw [contains_iff]
    constructor
    · rintro ⟨n, hn, hin⟩
      exact addressAt_of_contains (fun n hn => hfam n (hperm.mem_iff.mp hn))
        (hperm.mem_iff.mpr hn) hin
    · rintro ⟨t, ht⟩
      obtain ⟨n, hn, hin⟩ := addressAt_mem ht
      exact ⟨n, hperm.mem_iff.mp hn, hin⟩

namespace Course

variable {r : IpRanges} {s : Nat → Option IpAddr} {p : Nat}

theorem mem_reduceOption (h : Course r s p) (taken : List (Option IpAddr)) (i : Nat) :
    s i ∈ taken ↔ s i ∈ taken.reduceOption.map some := by
  obtain ⟨ip, hip⟩ := h.isSome i
  rw [hip, mem_map_some, List.reduceOption_mem_iff]

theorem eq_of_found (h : Course r s p) {allocated : List IpAddr} {q : Nat}
    (hf : Lap.Found s (allocated.map some) p q) :
    r.nextFreeIp allocated = (s q, inc^[q - p] r) ∧
      Returns r allocated (r.nextFreeIp allocated) := by
  obtain ⟨e, he, hsize⟩ := h.returns
  obtain ⟨hle, hlt⟩ := he.ahead_iff.mp hf.ahead
  exact nextFreeIp_found h.isSome h.walks hf (by omega)

theorem eq_of_wrapped (h : Course r s p) {allocated : List IpAddr} {q : Nat}
    (hw : Lap.Wrapped s (allocated.map some) p q) :
    r.nextFreeIp allocated = (none, inc^[q - p] r) ∧
      Returns r allocated (r.nextFreeIp allocated) := by
  obtain ⟨e, he, hsize⟩ := h.returns
  have hqe : q ≤ e := Nat.le_of_not_lt fun hlt => hw.returns.fresh e he.lt hlt he.again
  exact nextFreeIp_wrapped h.isSome h.walks hw (by omega)

/-- Where a search stops, and with what. -/
theorem outcome (h : Course r s p) (allocated : List IpAddr) :
    Returns r allocated (r.nextFreeIp allocated) ∧
      ∃ q, r.nextFreeIp allocated = (s q, inc^[q - p] r) ∧
          Lap.Found s (allocated.map some) p q ∨
        r.nextFreeIp allocated = (none, inc^[q - p] r) ∧
          Lap.Wrapped s (allocated.map some) p q := by
  obtain ⟨e, he, -⟩ := h.returns
  rcases he.stops (allocated.map some) with ⟨q, -, hf⟩ | hw
  · obtain ⟨heq, hret⟩ := h.eq_of_found hf
    exact ⟨hret, q, .inl ⟨heq, hf⟩⟩
  · obtain ⟨heq, hret⟩ := h.eq_of_wrapped hw
    exact ⟨hret, e, .inr ⟨heq, hw⟩⟩

/-- A search finds an address exactly when the cursor meets a free one before it comes back. -/
theorem found_iff (h : Course r s p) (allocated : List IpAddr) :
    (∃ ip, (r.nextFreeIp allocated).1 = some ip) ↔
      ∃ q, Lap.Ahead s p q ∧ s q ∉ allocated.map some := by
  obtain ⟨-, q, ⟨heq, hf⟩ | ⟨heq, hw⟩⟩ := h.outcome allocated
  · rw [heq]
    exact ⟨fun _ => ⟨q, hf.ahead, hf.free⟩, fun _ => h.isSome q⟩
  · rw [heq]
    constructor
    · rintro ⟨ip, hip⟩
      cases hip
    · rintro ⟨i, hi, hfree⟩
      obtain ⟨hle, hlt⟩ := hw.returns.ahead_iff.mp hi
      exact absurd (hw.passed i hle hlt) hfree

end Course

/-! ## Reachable cursors -/

/-- Cursors that `next_free_ip` calls lead to. -/
inductive Reachable (ranges : List IpNet) : IpRanges → Prop
  | new : Reachable ranges (new ranges)
  | next {r : IpRanges} (h : Reachable ranges r) (allocated : List IpAddr) :
    Reachable ranges (r.nextFreeIp allocated).2

/-- What a call promises: it returns, with a free address of the pool whenever there is one, and
with none only if all are allocated. -/
structure HandsOut (r : IpRanges) (allocated : List IpAddr) : Prop where
  returns : Returns r allocated (r.nextFreeIp allocated)
  free : ∀ ip, (r.nextFreeIp allocated).1 = some ip → r.contains ip = true ∧ ip ∉ allocated
  found : (∃ ip, r.contains ip = true ∧ ip ∉ allocated) →
    ∃ ip, (r.nextFreeIp allocated).1 = some ip
  exhausted : (r.nextFreeIp allocated).1 = none → ∀ ip, r.contains ip = true → ip ∈ allocated

/-- For every list of allocated addresses a call keeps its promise exactly when the cursor meets
the whole pool before it comes back. -/
theorem Course.handsOut_iff {r : IpRanges} {s : Nat → Option IpAddr} {p : Nat}
    (h : Course r s p) (hin : r.Inside) :
    (∀ allocated, HandsOut r allocated) ↔ Lap.Complete s p := by
  constructor
  · intro hall
    obtain ⟨e, he, -⟩ := h.returns
    rw [Lap.complete_iff_of_wrapped he]
    intro taken hw t
    obtain ⟨ip, hip⟩ := h.isSome t
    have hnone : (r.nextFreeIp taken.reduceOption).1 = none := by
      rw [(h.eq_of_wrapped (hw.congr (h.mem_reduceOption taken))).1]
    rw [hip]
    exact List.reduceOption_mem_iff.mp
      ((hall _).exhausted hnone ip ((h.pool ip).mpr ⟨t, hip⟩))
  · intro hcomplete allocated
    obtain ⟨hret, q, hstop⟩ := h.outcome allocated
    have hexh : (r.nextFreeIp allocated).1 = none → ∀ ip, r.contains ip = true →
      ip ∈ allocated := by
      intro hnone ip hip
      obtain ⟨t, ht⟩ := (h.pool ip).mp hip
      rcases hstop with ⟨heq, hf⟩ | ⟨heq, hw⟩
      · obtain ⟨x, hx⟩ := h.isSome q
        rw [heq, hx] at hnone
        cases hnone
      · have hmem := (Lap.complete_iff_of_wrapped hw.returns).mp hcomplete _ hw t
        rw [ht] at hmem
        exact mem_map_some.mp hmem
    refine ⟨hret, (nextFreeIp_spec hin allocated).free, ?_, hexh⟩
    rintro ⟨ip, hip, hfree⟩
    exact Option.ne_none_iff_exists'.mp fun hnone => hfree (hexh hnone ip hip)

section FromNew

variable {ranges : List IpNet} {fam : IpFamily} (hfam : ∀ n ∈ ranges, n.family = fam)
  (hne : ranges ≠ [])

theorem iterate_inc_ranges (r : IpRanges) (k : Nat) : (inc^[k] r).ranges = r.ranges := by
  induction k generalizing r with
  | zero => rfl
  | succ k ih => rw [Function.iterate_succ_apply, ih, inc_ranges]

theorem iterate_inc_inside {r : IpRanges} (h : r.Inside) (k : Nat) : (inc^[k] r).Inside := by
  induction k generalizing r with
  | zero => exact h
  | succ k ih =>
    rw [Function.iterate_succ_apply]
    exact ih (IpRanges.inc_inside h)

include hfam hne

theorem course_new (p : Nat) : Course (inc^[p] (new ranges)) (addressAt ranges) p := by
  obtain ⟨n, rest, rfl⟩ := List.exists_cons_of_ne_nil hne
  have hranges := iterate_inc_ranges (new (n :: rest)) p
  refine @course_of_walks _ _ fam _ ?_ ?_ ?_ ?_
  · rw [hranges]
    rfl
  · exact hne
  · rw [hranges]
    exact hfam
  · intro k
    rw [← Function.iterate_add_apply, (new_stands n rest).walk, Nat.zero_add, Nat.add_comm]

/-- The reachable cursors are those at the places a run of scans can stop at. -/
theorem reachable_iff (r : IpRanges) : Reachable ranges r ↔
    ∃ p, Lap.Reach (addressAt ranges) p ∧ r = inc^[p] (new ranges) := by
  constructor
  · intro h
    induction h with
    | new => exact ⟨0, .start, rfl⟩
    | @next r h allocated ih =>
      obtain ⟨p, hp, rfl⟩ := ih
      obtain ⟨-, q, ⟨heq, hf⟩ | ⟨heq, hw⟩⟩ := (course_new hfam hne p).outcome allocated
      · refine ⟨q, hp.found hf, ?_⟩
        rw [heq, ← Function.iterate_add_apply, Nat.sub_add_cancel hf.ahead.le]
      · refine ⟨q, hp.wrapped hw, ?_⟩
        rw [heq, ← Function.iterate_add_apply, Nat.sub_add_cancel (Nat.le_of_lt hw.returns.lt)]
  · rintro ⟨p, hp, rfl⟩
    induction hp with
    | start => exact .new
    | @found taken p q hp hf ih =>
      have hcourse := course_new hfam hne p
      have hstop := (hcourse.eq_of_found (hf.congr (hcourse.mem_reduceOption taken))).1
      have hnext := ih.next taken.reduceOption
      rwa [hstop, ← Function.iterate_add_apply, Nat.sub_add_cancel hf.ahead.le] at hnext
    | @wrapped taken p q hp hw ih =>
      have hcourse := course_new hfam hne p
      have hstop := (hcourse.eq_of_wrapped (hw.congr (hcourse.mem_reduceOption taken))).1
      have hnext := ih.next taken.reduceOption
      rwa [hstop, ← Function.iterate_add_apply,
        Nat.sub_add_cancel (Nat.le_of_lt hw.returns.lt)] at hnext

end FromNew

theorem reachable_empty {r : IpRanges} (h : Reachable [] r) : r = new [] := by
  induction h with
  | new => rfl
  | next h allocated ih =>
    rw [ih]
    rfl

/-- An empty pool hands out nothing. -/
theorem handsOut_empty {r : IpRanges} (h : Reachable [] r) (allocated : List IpAddr) :
    HandsOut r allocated := by
  obtain rfl := reachable_empty h
  constructor
  · exact .disabled rfl
  · intro ip hip
    cases hip
  · rintro ⟨ip, hip, -⟩
    cases hip
  · intro _ ip hip
    cases hip

/-- Over ranges of one family, `next_free_ip` hands out every free address from every cursor
exactly when the addresses of the ranges, in the cursor's order, come again in step. -/
theorem handsOut_iff_even {ranges : List IpNet} {fam : IpFamily}
    (hfam : ∀ n ∈ ranges, n.family = fam) :
    (∀ r, Reachable ranges r → ∀ allocated, HandsOut r allocated) ↔
      Lap.Even (addressAt ranges) := by
  by_cases hne : ranges = []
  · subst hne
    refine ⟨fun _ => ⟨1, Nat.one_pos, fun i j => ?_⟩, fun _ r => handsOut_empty⟩
    simp [addressAt, Nat.mod_one]
  · have hrec : ∀ p, ∃ q, Lap.Returns (addressAt ranges) p q := by
      intro p
      obtain ⟨q, hq, -⟩ := (course_new hfam hne p).returns
      exact ⟨q, hq⟩
    have hcursor : ∀ p, (∀ allocated, HandsOut (inc^[p] (new ranges)) allocated) ↔
        Lap.Complete (addressAt ranges) p :=
      fun p => (course_new hfam hne p).handsOut_iff (iterate_inc_inside (new_inside ranges) p)
    rw [← Lap.complete_iff_even hrec]
    constructor
    · intro h p hp
      exact (hcursor p).mp (h _ ((reachable_iff hfam hne _).mpr ⟨p, hp, rfl⟩))
    · intro h r hr
      obtain ⟨p, hp, rfl⟩ := (reachable_iff hfam hne r).mp hr
      exact (hcursor p).mpr (h p hp)

/-! ## Disjoint and overlapping ranges -/

/-- No address is in both. -/
def Apart (n m : IpNet) : Prop := ∀ ip, n.contains ip = true → m.contains ip = false

theorem apart_iff {n m : IpNet} : Apart n m ↔ ∀ o < n.span, m.contains (n.nth o) = false := by
  constructor
  · intro h o ho
    exact h _ (n.contains_nth ho)
  · intro h ip hin
    obtain ⟨o, ho, rfl⟩ := (n.contains_iff_nth ip).mp hin
    exact h o ho

/-- The addresses of the ranges, range by range. -/
def lap (ranges : List IpNet) : List IpAddr :=
  ranges.flatMap fun n => (List.range n.span).map n.nth

theorem length_lap (ranges : List IpNet) : (lap ranges).length = spanSum ranges := by
  simp [lap, spanSum, List.length_flatMap]

theorem addressAt_lap {front : List IpNet} (h : ∀ n ∈ front, n.prefixLen ≠ 0)
    (back : List IpNet) {t : Nat} (ht : t < spanSum front) :
    addressAt (front ++ back) t = (lap front)[t]? := by
  induction front generalizing back t with
  | nil => exact absurd ht (Nat.not_lt_zero t)
  | cons n front ih =>
    have hlap : lap (n :: front) = (List.range n.span).map n.nth ++ lap front := rfl
    by_cases hfirst : t < n.span
    · rw [hlap, List.getElem?_append_left (by simpa using hfirst), List.cons_append,
        addressAt_of_lt _ hfirst]
      simp [hfirst]
    · obtain ⟨u, rfl⟩ := Nat.exists_eq_add_of_le (Nat.le_of_not_lt hfirst)
      have hu : u < spanSum front := by
        simp only [spanSum, List.map_cons, List.sum_cons] at ht ⊢
        omega
      rw [List.cons_append, addressAt_span_add _ (h n List.mem_cons_self), List.append_assoc,
        ih (fun m hm => h m (List.mem_cons_of_mem _ hm)) _ hu, hlap,
        List.getElem?_append_right (by simp)]
      simp

theorem nodup_lap {ranges : List IpNet} (hapart : ranges.Pairwise Apart) : (lap ranges).Nodup := by
  rw [lap, List.nodup_flatMap]
  constructor
  · intro n _
    refine List.Nodup.map_on (fun o ho o' ho' heq => ?_) List.nodup_range
    exact n.nth_inj (List.mem_range.mp ho) (List.mem_range.mp ho') heq
  · refine hapart.imp fun {n m} h => ?_
    intro ip hn hm
    obtain ⟨o, ho, rfl⟩ := List.mem_map.mp hn
    obtain ⟨o', ho', heq⟩ := List.mem_map.mp hm
    have hout := h _ (n.contains_nth (List.mem_range.mp ho))
    rw [← heq, m.contains_nth (List.mem_range.mp ho')] at hout
    cases hout

/-- Disjoint ranges, none of them the whole address space: every address has one place in a
lap. -/
theorem even_of_apart {ranges : List IpNet} (hne : ranges ≠ [])
    (hall : ∀ n ∈ ranges, n.prefixLen ≠ 0) (hapart : ranges.Pairwise Apart) :
    Lap.Even (addressAt ranges) := by
  obtain ⟨n, rest, rfl⟩ := List.exists_cons_of_ne_nil hne
  have hpos := spanSum_pos n rest
  have hperiod := addressAt_periodic hall
  have hmod : ∀ t, addressAt (n :: rest) t = (lap (n :: rest))[t % spanSum (n :: rest)]? := by
    intro t
    have hlap := addressAt_lap hall [] (Nat.mod_lt t hpos)
    rwa [List.append_nil, hperiod.map_mod_nat] at hlap
  refine ⟨spanSum (n :: rest), hpos, fun i j => ?_⟩
  rw [hmod i, hmod j]
  constructor
  · intro heq
    have hi : i % spanSum (n :: rest) < (lap (n :: rest)).length := by
      rw [length_lap]
      exact Nat.mod_lt i hpos
    exact (List.getElem?_inj hi (nodup_lap hapart)).mp heq
  · intro heq
    rw [heq]

def net (a b c d : UInt8) (len : Nat) (h : len ≤ 32 := by decide) : IpNet :=
  ⟨.ofOctets a b c d, len, h⟩

theorem two_ranges_handOut :
    HandsOut (.new [net 10 0 0 0 31, net 10 0 1 0 31]) [.ofOctets 10 0 0 0] := by
  have hfam : ∀ n ∈ [net 10 0 0 0 31, net 10 0 1 0 31], n.family = .V4 := by decide
  have hapart : Apart (net 10 0 0 0 31) (net 10 0 1 0 31) := apart_iff.mpr (by decide)
  have heven := even_of_apart (by decide) (by decide) (List.pairwise_pair.mpr hapart)
  exact (handsOut_iff_even hfam).mpr heven _ .new _

/-- `--loadbalancer-ip-range=10.0.0.0/31,10.0.0.0/30`. -/
def overlapping : Agent.KubeRouterConfig :=
  { runLoadbalancer := true, loadbalancerIpRange := ["10.0.0.0/31", "10.0.0.0/30"] }

def parseOverlapping (s : String) : Except String IpNet :=
  if s = "10.0.0.0/31" then .ok (net 10 0 0 0 31)
  else if s = "10.0.0.0/30" then .ok (net 10 0 0 0 30)
  else if s = "10.96.0.0/12" then .ok (net 10 96 0 0 12)
  else .error "invalid IP address syntax"

/-- The second range starts at the address the search started from, and the search stops there:
10.0.0.2 and 10.0.0.3 are never met. -/
theorem overlap_missed :
    overlapping.validate parseOverlapping = .ok () ∧
      overlapping.loadbalancerIpRange.map parseOverlapping =
        [.ok (net 10 0 0 0 31), .ok (net 10 0 0 0 30)] ∧
      ¬ ∀ r, Reachable [net 10 0 0 0 31, net 10 0 0 0 30] r →
        ∀ allocated, HandsOut r allocated := by
  refine ⟨rfl, rfl, fun hall => ?_⟩
  have hexh := (hall _ .new [.ofOctets 10 0 0 0, .ofOctets 10 0 0 1]).exhausted (by decide)
    (.ofOctets 10 0 0 2) (by decide)
  exact absurd hexh (by decide)

end IpRanges

end KubeRouter.Lballoc
