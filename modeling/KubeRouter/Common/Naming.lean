/-
  Derived chain and ipset names (`common/src/naming.rs`, `netpol/src/naming.rs`).

  Every derived name is a fixed prefix followed by `hash16` of a key, and every key is a plain
  concatenation of its fields: namespace, object name, kind, index, family. `hash16` is
  Base32(SHA-256(key)) cut to `hashLen` characters. SHA-256 and Base32 are library code, so
  `hash16` is a parameter here; where a proof needs it, the cut to 16 characters is the
  hypothesis `∀ s, (hash16 s).length = hashLen`.
-/
import KubeRouter.Common.Ip

namespace KubeRouter

def hashLen : Nat := 16

/-! ## Prefixes and fixed names -/

def podFwPrefix : String := "KUBE-POD-FW-"
def nwplcyPrefix : String := "KUBE-NWPLCY-"
def srcPrefix : String := "KUBE-SRC-"
def dstPrefix : String := "KUBE-DST-"

def routerInput : String := "KUBE-ROUTER-INPUT"
def routerForward : String := "KUBE-ROUTER-FORWARD"
def routerOutput : String := "KUBE-ROUTER-OUTPUT"

/-- INVALID drop, RELATED,ESTABLISHED accept, ICMP. -/
def nwplcyCommon : String := "KUBE-NWPLCY-COMMON"
/-- Marks traffic in a direction no policy covers. -/
def nwplcyDefault : String := "KUBE-NWPLCY-DEFAULT"
/-- The last jump of each top-level chain. -/
def nwplcyTail : String := "KUBE-NWPLCY-TAIL"

def localPodsSetName : String := "kube-router-local-pods"

def localPodsSet : IpFamily → String
  | .V4 => localPodsSetName
  | .V6 => localPodsSetName ++ "-inet6"

/-- The `v1.IPFamily` text used in keys (`fam` and `family_tag` in the source). -/
def familyTag : IpFamily → String
  | .V4 => "IPv4"
  | .V6 => "IPv6"

/-! ## Derived names -/

section Derived

variable (hash16 : String → String)

def podFirewallChain (ns pod syncVersion : String) : String :=
  podFwPrefix ++ hash16 (ns ++ pod ++ syncVersion)

def networkPolicyChain (ns policy syncVersion : String) (family : IpFamily) : String :=
  nwplcyPrefix ++ hash16 (ns ++ policy ++ syncVersion ++ familyTag family)

def srcSet (ns policy : String) (family : IpFamily) : String :=
  srcPrefix ++ hash16 (ns ++ policy ++ familyTag family)

def dstSet (ns policy : String) (family : IpFamily) : String :=
  dstPrefix ++ hash16 (ns ++ policy ++ familyTag family)

def indexedSrcSet (ns policy : String) (rule : Nat) (family : IpFamily) : String :=
  srcPrefix ++ hash16 (ns ++ policy ++ "ingress" ++ toString rule ++ familyTag family)

def indexedDstSet (ns policy : String) (rule : Nat) (family : IpFamily) : String :=
  dstPrefix ++ hash16 (ns ++ policy ++ "egress" ++ toString rule ++ familyTag family)

def indexedSrcPodSet (ns policy : String) (rule : Nat) (family : IpFamily) : String :=
  srcPrefix ++ hash16 (ns ++ policy ++ "ingressrule" ++ toString rule ++ familyTag family ++ "pod")

def indexedSrcIpblockSet (ns policy : String) (rule : Nat) (family : IpFamily) : String :=
  srcPrefix ++
    hash16 (ns ++ policy ++ "ingressrule" ++ toString rule ++ familyTag family ++ "ipblock")

def indexedDstPodSet (ns policy : String) (rule : Nat) (family : IpFamily) : String :=
  dstPrefix ++ hash16 (ns ++ policy ++ "egressrule" ++ toString rule ++ familyTag family ++ "pod")

def indexedDstIpblockSet (ns policy : String) (rule : Nat) (family : IpFamily) : String :=
  dstPrefix ++
    hash16 (ns ++ policy ++ "egressrule" ++ toString rule ++ familyTag family ++ "ipblock")

/-- The rule index and the group index are written next to each other, with no separator. -/
def indexedIngressNamedPortSet (ns policy : String) (rule ep : Nat) (family : IpFamily) : String :=
  dstPrefix ++ hash16 (ns ++ policy ++ "ingressrule" ++ toString rule ++ toString ep ++
    familyTag family ++ "namedport")

def indexedEgressNamedPortSet (ns policy : String) (rule ep : Nat) (family : IpFamily) : String :=
  dstPrefix ++ hash16 (ns ++ policy ++ "egressrule" ++ toString rule ++ toString ep ++
    familyTag family ++ "namedport")

/-! ## Derived chains are never one of the fixed ones -/

variable {hash16} {ns obj ver : String} {family : IpFamily}

theorem podFirewallChain_ne_router :
    podFirewallChain hash16 ns obj ver ≠ routerInput ∧
      podFirewallChain hash16 ns obj ver ≠ routerForward ∧
      podFirewallChain hash16 ns obj ver ≠ routerOutput := by
  refine ⟨?_, ?_, ?_⟩ <;> intro h <;>
    simpa [podFirewallChain, podFwPrefix, routerInput, routerForward, routerOutput]
      using congrArg String.toList h

theorem podFirewallChain_ne_nwplcy (s : String) :
    podFirewallChain hash16 ns obj ver ≠ nwplcyPrefix ++ s := by
  intro h
  simpa [podFirewallChain, podFwPrefix, nwplcyPrefix] using congrArg String.toList h

theorem podFirewallChain_ne_fixed :
    podFirewallChain hash16 ns obj ver ≠ nwplcyCommon ∧
      podFirewallChain hash16 ns obj ver ≠ nwplcyDefault ∧
      podFirewallChain hash16 ns obj ver ≠ nwplcyTail :=
  ⟨podFirewallChain_ne_nwplcy "COMMON", podFirewallChain_ne_nwplcy "DEFAULT",
    podFirewallChain_ne_nwplcy "TAIL"⟩

theorem networkPolicyChain_ne_router :
    networkPolicyChain hash16 ns obj ver family ≠ routerInput ∧
      networkPolicyChain hash16 ns obj ver family ≠ routerForward ∧
      networkPolicyChain hash16 ns obj ver family ≠ routerOutput := by
  refine ⟨?_, ?_, ?_⟩ <;> intro h <;>
    simpa [networkPolicyChain, nwplcyPrefix, routerInput, routerForward, routerOutput]
      using congrArg String.toList h

/-- `COMMON`, `DEFAULT` and `TAIL` are too short to be a 16-character hash. -/
theorem networkPolicyChain_ne_fixed (hlen : ∀ s, (hash16 s).length = hashLen) :
    networkPolicyChain hash16 ns obj ver family ≠ nwplcyCommon ∧
      networkPolicyChain hash16 ns obj ver family ≠ nwplcyDefault ∧
      networkPolicyChain hash16 ns obj ver family ≠ nwplcyTail := by
  have hl : (networkPolicyChain hash16 ns obj ver family).length = 28 := by
    have h12 : nwplcyPrefix.length = 12 := by decide
    rw [networkPolicyChain, String.length_append, hlen, h12, hashLen]
  refine ⟨?_, ?_, ?_⟩ <;> intro h <;> rw [h] at hl <;> revert hl <;> decide

end Derived

/-! ## Real digests -/

/-- `hash16` on the keys of the worked instances; no other key occurs in them. -/
def sampleHash (key : String) : String :=
  match key with
  | "shopcartkr" => "DGQY4U3U7G6L5J3V"
  | "shoppaykr" => "6AUGHZ7CD3DQUKO3"
  | "shopallkrIPv4" => "KSFMPLJYL6X67UCH"
  | "shopallIPv4" => "WINIKYPRKHKJFKN4"
  | "shopfrontkrIPv4" => "U2DIAQR2TXG7AOAQ"
  | "shopfrontIPv4" => "CJSEN5TTCBQBIUAN"
  | "shopfrontingressrule0IPv4pod" => "4S7D43FNAA3XFRB6"
  | "shopfrontingressrule1IPv4pod" => "MOMXHNAX36YYD4SA"
  | _ => "AAAAAAAAAAAAAAAA"

theorem sampleHash_length (key : String) : (sampleHash key).length = hashLen := by
  unfold sampleHash
  split <;> rfl

end KubeRouter
