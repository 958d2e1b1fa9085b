/-
  IP addresses, prefixes and families (`common/src/ipfamily.rs`, `std::net::IpAddr`,
  `ipnet::IpNet`).

  An address is its big-endian value, 32 or 128 bits. A prefix keeps the address it was
  written with (host bits included) and a length that fits the family; `IpNet.contains`
  compares the leading bits only, so host bits never matter to membership. An address of the
  other family is in no prefix. The text of an address (`Display`, which `Debug` repeats) and
  the order of addresses (IPv4 first, then by value) are those of the standard library.
-/
import Mathlib.Data.BitVec
import Std.Data.TreeMap
import Std.Data.TreeSet

namespace KubeRouter

inductive IpFamily where
  | V4
  | V6
deriving DecidableEq, Repr

inductive IpAddr where
  | V4 (a : BitVec 32)
  | V6 (a : BitVec 128)
deriving DecidableEq, Repr

namespace IpAddr

/-- `IpFamily::of_addr`. -/
def family : IpAddr → IpFamily
  | V4 _ => .V4
  | V6 _ => .V6

/-- Number of address bits. -/
def bits : IpAddr → Nat
  | V4 _ => 32
  | V6 _ => 128

def isIpv4 (ip : IpAddr) : Bool := ip.family == .V4

def isIpv6 (ip : IpAddr) : Bool := ip.family == .V6

/-- `Ipv4Addr::new`. -/
def ofOctets (a b c d : UInt8) : IpAddr :=
  .V4 (a.toBitVec ++ b.toBitVec ++ c.toBitVec ++ d.toBitVec)

/-! ### Text -/

/-- Dotted quad. -/
def v4Text (a : BitVec 32) : String :=
  ".".intercalate ([24, 16, 8, 0].map fun i => toString ((a >>> i).toNat % 256))

/-- The eight 16-bit segments, most significant first. -/
def segments (a : BitVec 128) : List Nat :=
  [112, 96, 80, 64, 48, 32, 16, 0].map fun i => (a >>> i).toNat % 65536

/-- Start and length of the longest run of zero segments, the first one on a tie. -/
def longestZeros (segs : List Nat) : Nat × Nat :=
  let scan := segs.zipIdx.foldl (fun (best, cur) (seg, i) =>
    if seg == 0 then
      let cur := if cur.2 == 0 then (i, 1) else (cur.1, cur.2 + 1)
      (if cur.2 > best.2 then cur else best, cur)
    else (best, (0, 0))) (((0, 0), (0, 0)) : (Nat × Nat) × (Nat × Nat))
  scan.1

def hexJoin (segs : List Nat) : String :=
  ":".intercalate (segs.map fun seg => String.ofList (Nat.toDigits 16 seg))

/-- `Ipv6Addr`'s text: an IPv4-mapped address shows its dotted quad, any other one folds its
longest run of at least two zero segments into `::`. -/
def v6Text (a : BitVec 128) : String :=
  let segs := segments a
  if segs.take 6 == [0, 0, 0, 0, 0, 0xffff] then
    "::ffff:" ++ v4Text (a.setWidth 32)
  else
    let (start, len) := longestZeros segs
    if len > 1 then hexJoin (segs.take start) ++ "::" ++ hexJoin (segs.drop (start + len))
    else hexJoin segs

/-- `IpAddr::to_string`. -/
def toText : IpAddr → String
  | V4 a => v4Text a
  | V6 a => v6Text a

/-! ### Order -/

/-- Rank of an address in the order of `IpAddr`: every IPv4 address before every IPv6 one. -/
def rank : IpAddr → Nat
  | V4 a => a.toNat
  | V6 a => 2 ^ 32 + a.toNat

theorem rank_injective : Function.Injective rank := by
  intro x y h
  cases x with
  | V4 a =>
    cases y with
    | V4 b => exact congrArg V4 (BitVec.eq_of_toNat_eq h)
    | V6 b =>
      have ha := a.isLt
      simp only [rank] at h
      omega
  | V6 a =>
    cases y with
    | V4 b =>
      have hb := b.isLt
      simp only [rank] at h
      omega
    | V6 b =>
      simp only [rank] at h
      exact congrArg V6 (BitVec.eq_of_toNat_eq (by omega))

instance : Ord IpAddr := ⟨fun x y => compare x.rank y.rank⟩

instance : Std.TransOrd IpAddr where
  eq_swap := Std.OrientedOrd.eq_swap (α := Nat)
  isLE_trans := Std.TransOrd.isLE_trans (α := Nat)

instance : Std.LawfulEqOrd IpAddr where
  compare_self := Std.ReflOrd.compare_self (α := Nat)
  eq_of_compare h := rank_injective (Std.LawfulEqOrd.eq_of_compare (α := Nat) h)

end IpAddr

/-- `ipnet::IpNet`: an address and a prefix length of its family. -/
structure IpNet where
  addr : IpAddr
  prefixLen : Nat
  prefixLen_le : prefixLen ≤ addr.bits
deriving DecidableEq, Repr

namespace IpNet

/-- `IpFamily::of_net`. -/
def family (n : IpNet) : IpFamily := n.addr.family

/-- Both addresses agree on the first `prefixLen` bits. -/
def contains (n : IpNet) (ip : IpAddr) : Bool :=
  match n.addr, ip with
  | .V4 a, .V4 b => a >>> (32 - n.prefixLen) == b >>> (32 - n.prefixLen)
  | .V6 a, .V6 b => a >>> (128 - n.prefixLen) == b >>> (128 - n.prefixLen)
  | _, _ => false

/-- The first address of the prefix: host bits cleared. -/
def network (n : IpNet) : IpAddr :=
  match n.addr with
  | .V4 a => .V4 (a >>> (32 - n.prefixLen) <<< (32 - n.prefixLen))
  | .V6 a => .V6 (a >>> (128 - n.prefixLen) <<< (128 - n.prefixLen))

theorem contains_family {n : IpNet} {ip : IpAddr} (h : n.contains ip = true) :
    ip.family = n.family := by
  unfold contains at h
  unfold family
  split at h
  · next a b ha => rw [ha]; rfl
  · next a b ha => rw [ha]; rfl
  · simp at h

theorem shiftRight_shiftLeft_shiftRight {w : Nat} (a : BitVec w) (k : Nat) :
    (a >>> k <<< k) >>> k = a >>> k := by
  apply BitVec.eq_of_getLsbD_eq
  intro i hi
  simp only [BitVec.getLsbD_ushiftRight, BitVec.getLsbD_shiftLeft]
  by_cases hw : k + i < w
  · simp [hw]
  · have hout : a.getLsbD (k + i) = false := BitVec.getLsbD_of_ge a (k + i) (by omega)
    simp [hw, hout]

/-- A prefix contains its first address. -/
theorem contains_network (n : IpNet) : n.contains n.network = true := by
  unfold contains network
  cases h : n.addr with
  | V4 a => simp [shiftRight_shiftLeft_shiftRight]
  | V6 a => simp [shiftRight_shiftLeft_shiftRight]

/-! ### Order -/

/-- Rank of a prefix in the order of `IpNet`: by address, then by length. -/
def rank (n : IpNet) : Nat := n.addr.rank * 256 + n.prefixLen

theorem rank_injective : Function.Injective rank := by
  intro x y h
  have hx := x.prefixLen_le
  have hy := y.prefixLen_le
  have hbits : ∀ ip : IpAddr, ip.bits ≤ 128 := by
    intro ip
    cases ip with
    | V4 _ => exact Nat.le_of_ble_eq_true rfl
    | V6 _ => exact Nat.le_refl 128
  have hxb := hbits x.addr
  have hyb := hbits y.addr
  simp only [rank] at h
  have haddr : x.addr = y.addr := IpAddr.rank_injective (by omega)
  have hlen : x.prefixLen = y.prefixLen := by
    rw [haddr] at h
    omega
  cases x with
  | mk xa xl hxl =>
    cases y with
    | mk ya yl hyl =>
      cases haddr
      cases hlen
      rfl

instance : Ord IpNet := ⟨fun x y => compare x.rank y.rank⟩

instance : Std.TransOrd IpNet where
  eq_swap := Std.OrientedOrd.eq_swap (α := Nat)
  isLE_trans := Std.TransOrd.isLE_trans (α := Nat)

instance : Std.LawfulEqOrd IpNet where
  compare_self := Std.ReflOrd.compare_self (α := Nat)
  eq_of_compare h := rank_injective (Std.LawfulEqOrd.eq_of_compare (α := Nat) h)

end IpNet

end KubeRouter
