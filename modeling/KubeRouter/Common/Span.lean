/-
  The addresses of a prefix, counted from its first one.

  A prefix of length `l` spans `2 ^ (bits - l)` consecutive addresses. `IpNet.nth` names them by
  their offset; at the offset behind the last one it runs on, and wraps at the top of the address
  space.

  Proved:
  * `contains_iff_nth`: a prefix contains exactly the addresses it counts.
  * `contains_nth_span`: the address behind the last one is outside, unless the prefix spans the
    whole address space, where it is the first one again.
-/
import KubeRouter.Common.Ip

namespace KubeRouter

/-! ## Addresses as numbers -/

namespace IpAddr

def value : IpAddr → Nat
  | V4 a => a.toNat
  | V6 a => a.toNat

/-- The address of `fam` with the value `v`, modulo the size of the address space. -/
def ofValue (fam : IpFamily) (v : Nat) : IpAddr :=
  match fam with
  | .V4 => .V4 (BitVec.ofNat 32 v)
  | .V6 => .V6 (BitVec.ofNat 128 v)

theorem value_lt (ip : IpAddr) : ip.value < 2 ^ ip.bits := by
  cases ip with
  | V4 a => exact a.isLt
  | V6 a => exact a.isLt

theorem eq_of_value {x y : IpAddr} (hfam : x.family = y.family) (hval : x.value = y.value) :
    x = y := by
  cases x with
  | V4 a =>
    cases y with
    | V4 b => exact congrArg V4 (BitVec.eq_of_toNat_eq hval)
    | V6 b => cases hfam
  | V6 a =>
    cases y with
    | V4 b => cases hfam
    | V6 b => exact congrArg V6 (BitVec.eq_of_toNat_eq hval)

theorem bits_eq_of_family {x y : IpAddr} (h : x.family = y.family) : x.bits = y.bits := by
  cases x with
  | V4 a =>
    cases y with
    | V4 b => rfl
    | V6 b => cases h
  | V6 a =>
    cases y with
    | V4 b => cases h
    | V6 b => rfl

@[simp] theorem family_ofValue (fam : IpFamily) (v : Nat) : (ofValue fam v).family = fam := by
  cases fam <;> rfl

theorem value_ofValue (x : IpAddr) (v : Nat) : (ofValue x.family v).value = v % 2 ^ x.bits := by
  cases x with
  | V4 a => exact BitVec.toNat_ofNat v 32
  | V6 a => exact BitVec.toNat_ofNat v 128

end IpAddr

/-! ## Addresses of a prefix -/

namespace IpNet

/-- Number of addresses. -/
def span (n : IpNet) : Nat := 2 ^ (n.addr.bits - n.prefixLen)

/-- The address at an offset from the first one. -/
def nth (n : IpNet) (o : Nat) : IpAddr := IpAddr.ofValue n.family (n.network.value + o)

theorem span_pos (n : IpNet) : 0 < n.span := Nat.two_pow_pos _

theorem network_family (n : IpNet) : n.network.family = n.family := by
  unfold network family
  cases n.addr with
  | V4 a => rfl
  | V6 a => rfl

theorem toNat_clearLow {w : Nat} (a : BitVec w) (k : Nat) :
    (a >>> k <<< k).toNat = a.toNat / 2 ^ k * 2 ^ k := by
  have hle : a.toNat / 2 ^ k * 2 ^ k ≤ a.toNat := Nat.div_mul_le_self _ _
  rw [BitVec.toNat_shiftLeft, BitVec.toNat_ushiftRight, Nat.shiftRight_eq_div_pow,
    Nat.shiftLeft_eq, Nat.mod_eq_of_lt (Nat.lt_of_le_of_lt hle a.isLt)]

theorem network_value (n : IpNet) : n.network.value = n.addr.value / n.span * n.span := by
  unfold network span
  cases n.addr with
  | V4 a => exact toNat_clearLow a _
  | V6 a => exact toNat_clearLow a _

theorem ushiftRight_eq_iff {w : Nat} (a b : BitVec w) (k : Nat) :
    a >>> k = b >>> k ↔ b.toNat / 2 ^ k = a.toNat / 2 ^ k := by
  rw [← BitVec.toNat_inj, BitVec.toNat_ushiftRight, BitVec.toNat_ushiftRight,
    Nat.shiftRight_eq_div_pow, Nat.shiftRight_eq_div_pow]
  exact eq_comm

theorem contains_iff (n : IpNet) (ip : IpAddr) : n.contains ip = true ↔
    ip.family = n.family ∧ ip.value / n.span = n.addr.value / n.span := by
  unfold contains span family
  cases n.addr with
  | V4 a =>
    cases ip with
    | V4 b => simpa [IpAddr.family, IpAddr.value, IpAddr.bits] using ushiftRight_eq_iff a b _
    | V6 b => simp [IpAddr.family]
  | V6 a =>
    cases ip with
    | V4 b => simp [IpAddr.family]
    | V6 b => simpa [IpAddr.family, IpAddr.value, IpAddr.bits] using ushiftRight_eq_iff a b _

@[simp] theorem family_nth (n : IpNet) (o : Nat) : (n.nth o).family = n.family :=
  IpAddr.family_ofValue _ _

theorem nth_value (n : IpNet) (o : Nat) :
    (n.nth o).value = (n.network.value + o) % 2 ^ n.addr.bits :=
  IpAddr.value_ofValue n.addr _

theorem span_mul (n : IpNet) : n.span * 2 ^ n.prefixLen = 2 ^ n.addr.bits := by
  unfold span
  rw [← Nat.pow_add, Nat.sub_add_cancel n.prefixLen_le]

/-- The last address of a prefix is in the address space. -/
theorem network_add_lt (n : IpNet) {o : Nat} (ho : o < n.span) :
    n.network.value + o < 2 ^ n.addr.bits := by
  have hquot : n.addr.value / n.span < 2 ^ n.prefixLen := by
    apply Nat.div_lt_of_lt_mul
    rw [span_mul]
    exact n.addr.value_lt
  calc n.network.value + o
      < n.addr.value / n.span * n.span + n.span := by rw [network_value]; omega
    _ = (n.addr.value / n.span + 1) * n.span := by rw [Nat.succ_mul]
    _ ≤ 2 ^ n.prefixLen * n.span := Nat.mul_le_mul_right _ hquot
    _ = 2 ^ n.addr.bits := by rw [Nat.mul_comm, span_mul]

theorem nth_value_of_lt (n : IpNet) {o : Nat} (ho : o < n.span) :
    (n.nth o).value = n.network.value + o := by
  rw [nth_value, Nat.mod_eq_of_lt (n.network_add_lt ho)]

theorem nth_zero (n : IpNet) : n.nth 0 = n.network := by
  apply IpAddr.eq_of_value
  · rw [family_nth, network_family]
  · rw [nth_value_of_lt n n.span_pos, Nat.add_zero]

theorem nth_inj (n : IpNet) {o o' : Nat} (ho : o < n.span) (ho' : o' < n.span)
    (h : n.nth o = n.nth o') : o = o' := by
  have hval := congrArg IpAddr.value h
  rw [nth_value_of_lt n ho, nth_value_of_lt n ho'] at hval
  omega

theorem contains_iff_nth (n : IpNet) (ip : IpAddr) :
    n.contains ip = true ↔ ∃ o < n.span, ip = n.nth o := by
  rw [contains_iff]
  constructor
  · rintro ⟨hfam, hquot⟩
    have hrem : ip.value % n.span < n.span := Nat.mod_lt _ n.span_pos
    refine ⟨ip.value % n.span, hrem, IpAddr.eq_of_value ?_ ?_⟩
    · rw [hfam, family_nth]
    · rw [nth_value_of_lt n hrem, network_value, ← hquot, Nat.div_add_mod']
  · rintro ⟨o, ho, rfl⟩
    refine ⟨family_nth n o, ?_⟩
    rw [nth_value_of_lt n ho, network_value, Nat.add_comm, Nat.add_mul_div_right _ _ n.span_pos,
      Nat.div_eq_of_lt ho, Nat.zero_add]

theorem contains_nth (n : IpNet) {o : Nat} (ho : o < n.span) : n.contains (n.nth o) = true :=
  (contains_iff_nth n _).mpr ⟨o, ho, rfl⟩

/-! ## Behind the last address -/

theorem span_eq_iff (n : IpNet) : n.span = 2 ^ n.addr.bits ↔ n.prefixLen = 0 := by
  rw [← span_mul]
  constructor
  · intro h
    have hone : 2 ^ n.prefixLen = 1 := Nat.eq_of_mul_eq_mul_left n.span_pos (by omega)
    simpa using hone
  · intro h
    rw [h, Nat.pow_zero, Nat.mul_one]

theorem network_value_zero {n : IpNet} (h : n.prefixLen = 0) : n.network.value = 0 := by
  have hspan : n.span = 2 ^ n.addr.bits := n.span_eq_iff.mpr h
  rw [network_value, Nat.div_eq_of_lt (hspan ▸ n.addr.value_lt), Nat.zero_mul]

/-- A prefix of length zero holds every address of its family, each at its own value. -/
theorem nth_value_self {n : IpNet} (h : n.prefixLen = 0) {ip : IpAddr}
    (hfam : ip.family = n.family) : n.nth ip.value = ip := by
  apply IpAddr.eq_of_value
  · rw [family_nth, hfam]
  · rw [nth_value, network_value_zero h, Nat.zero_add,
      ← IpAddr.bits_eq_of_family (show ip.family = n.addr.family from hfam),
      Nat.mod_eq_of_lt ip.value_lt]

theorem value_lt_span {n : IpNet} (h : n.prefixLen = 0) {ip : IpAddr}
    (hfam : ip.family = n.family) : ip.value < n.span := by
  rw [n.span_eq_iff.mpr h, ← IpAddr.bits_eq_of_family (show ip.family = n.addr.family from hfam)]
  exact ip.value_lt

theorem contains_whole {n : IpNet} (h : n.prefixLen = 0) {ip : IpAddr}
    (hfam : ip.family = n.family) : n.contains ip = true := by
  rw [← nth_value_self h hfam]
  exact n.contains_nth (value_lt_span h hfam)

theorem nth_span_add {n : IpNet} (h : n.prefixLen = 0) (o : Nat) :
    n.nth (n.span + o) = n.nth o := by
  apply IpAddr.eq_of_value
  · rw [family_nth, family_nth]
  · rw [nth_value, nth_value, n.span_eq_iff.mpr h, Nat.add_left_comm, Nat.add_mod_left]

theorem not_contains_nth_span {n : IpNet} (h : n.prefixLen ≠ 0) :
    n.contains (n.nth n.span) = false := by
  rw [Bool.eq_false_iff]
  intro hin
  obtain ⟨o, ho, heq⟩ := (contains_iff_nth n _).mp hin
  have hval := congrArg IpAddr.value heq
  rw [nth_value, nth_value_of_lt n ho] at hval
  have hlast := n.network_add_lt (Nat.sub_lt n.span_pos Nat.one_pos)
  have hpos := n.span_pos
  by_cases htop : n.network.value + n.span < 2 ^ n.addr.bits
  · rw [Nat.mod_eq_of_lt htop] at hval
    omega
  · -- the prefix ends at the top of the address space, and the address wraps to zero
    have hwrap : n.network.value + n.span = 2 ^ n.addr.bits := by omega
    rw [hwrap, Nat.mod_self] at hval
    exact h (n.span_eq_iff.mp (by omega))

end IpNet

end KubeRouter
