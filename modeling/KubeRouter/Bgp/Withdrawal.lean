/-
  Withdrawals from the daemon's watch to the kernel (`parse_path_event` and `watch_best_paths` in
  `bgp/src/grpc.rs`, `receive_side_inject` in `kube-router-rs/src/main.rs`, `on_event` in
  `routing/src/inject.rs`).

  The removal of a route needs the prefix only. On its way the withdrawal passes a decoder that
  gives up without a next hop, and a receiver that drops what has the node's own address as next
  hop.

  Proved:
  * `withdraws_iff`: which withdrawals take their prefix out of map and kernel.
  * `bare_withdrawal_dropped`: one without a NEXT_HOP does not.
-/
import KubeRouter.Bgp.Grpc

namespace KubeRouter.Bgp

open Routing Program

/-! ## Delivery -/

section Delivery

variable (fails : Nat → Option NetlinkError) (parse : Parsers) (localIp : Option IpAddr)

/-- The arm of `receive_side_inject` for an event. -/
def receiveEvent (s : Injection) (ev : PathEvent) : Injection :=
  if some ev.nextHop = localIp then s else (s.onEvent fails ev).2

/-- What becomes of a path of the watch: it is forwarded if it can be read. -/
def deliver (s : Injection) (p : Api.Path) : Injection :=
  match parsePathEvent parse p with
  | some ev => receiveEvent fails localIp s ev
  | none => s

/-- The path is read as a withdrawal of `pfx`, and when it was delivered, the route the prefix had
is neither in the map nor in the kernel. -/
structure Withdraws (s : Injection) (p : Api.Path) (pfx : IpNet) : Prop where
  event : ∃ nextHop, parsePathEvent parse p = some ⟨pfx, nextHop, true⟩
  forgotten : (deliver fails parse localIp s p).inj.routes[pfx]? = none
  deleted : ∀ ir, s.inj.routes[pfx]? = some ir →
    ir.route ∉ (deliver fails parse localIp s p).kernel.state

end Delivery

theorem handle_eq_receiveEvent (cfg : RxConfig) (s : Receiver) (ev : PathEvent) :
    s.handle cfg ev = receiveEvent reliable cfg.localIp s.injection ev := rfl

/-! ## Next hops -/

/-- The address an attribute names, if it is one of those that name any. -/
def hopOf (parse : Parsers) : Option Api.Attr → Option (Option IpAddr)
  | some (.NextHop text) => some (parse.ip text)
  | some (.MpReach _ texts _) => some (texts.head?.bind parse.ip)
  | _ => none

/-- The last of the attributes that name a next hop names `hop`. -/
def LastHop (parse : Parsers) (pattrs : List (Option Api.Attr)) (hop : IpAddr) : Prop :=
  ∃ front a back, pattrs = front ++ a :: back ∧ hopOf parse a = some (some hop) ∧
    ∀ b ∈ back, hopOf parse b = none

theorem nextHopOf_concat (parse : Parsers) (pattrs : List (Option Api.Attr)) (a : Option Api.Attr) :
    nextHopOf parse ((pattrs ++ [a]).map Api.Attr.watched) =
      (hopOf parse a).getD (nextHopOf parse (pattrs.map Api.Attr.watched)) := by
  unfold nextHopOf
  rw [List.map_append, List.foldl_append, List.map_cons, List.map_nil, List.foldl_cons,
    List.foldl_nil]
  match a with
  | none | some (.Origin _) | some (.NextHop _) | some (.MpReach _ _ _) | some (.Communities _)
  | some (.AsPath _) | some .Other => rfl

/-- One more attribute: it decides if it names anything. -/
theorem lastHop_concat (parse : Parsers) (pattrs : List (Option Api.Attr)) (a : Option Api.Attr)
    (hop : IpAddr) : LastHop parse (pattrs ++ [a]) hop ↔
      hopOf parse a = some (some hop) ∨ hopOf parse a = none ∧ LastHop parse pattrs hop := by
  constructor
  · rintro ⟨front, b, back, heq, hb, hback⟩
    obtain rfl | ⟨back, c, rfl⟩ := List.eq_nil_or_concat' back
    · obtain ⟨-, hlast⟩ := List.append_inj' heq rfl
      rw [List.cons.injEq] at hlast
      rw [hlast.1]
      exact .inl hb
    · rw [← List.cons_append, ← List.append_assoc] at heq
      obtain ⟨rfl, hlast⟩ := List.append_inj' heq rfl
      rw [List.cons.injEq] at hlast
      rw [hlast.1]
      exact .inr ⟨hback c (by simp), front, b, back, rfl, hb,
        fun d hd => hback d (List.mem_append_left _ hd)⟩
  · rintro (ha | ⟨ha, front, b, back, rfl, hb, hback⟩)
    · exact ⟨pattrs, a, [], rfl, ha, by simp⟩
    · refine ⟨front, b, back ++ [a], by simp, hb, fun c hc => ?_⟩
      obtain hc | hc := List.mem_append.mp hc
      · exact hback c hc
      · rw [List.mem_singleton.mp hc]
        exact ha

theorem nextHopOf_iff (parse : Parsers) (pattrs : List (Option Api.Attr)) (hop : IpAddr) :
    nextHopOf parse (pattrs.map Api.Attr.watched) = some hop ↔ LastHop parse pattrs hop := by
  induction pattrs using List.reverseRecOn with
  | nil =>
    refine iff_of_false (fun h => by cases h) ?_
    rintro ⟨front, a, back, h, -⟩
    simp at h
  | append_singleton pattrs a ih =>
    rw [nextHopOf_concat, lastHop_concat, ← ih]
    cases hopOf parse a with
    | none => simp
    | some hop' => simp

/-! ## Withdrawals -/

theorem parse_withdrawal {parse : Parsers} {p : Api.Path} {ip : Api.IpAddressPrefix} {pfx : IpNet}
    (hnlri : p.nlri = some (.Prefix ip))
    (hnet : parse.net (ip.pfx ++ "/" ++ Nat.repr ip.pfxLen.toNat) = some pfx)
    (hwithdraw : p.isWithdraw = true) :
    parsePathEvent parse p =
      (nextHopOf parse (p.pattrs.map Api.Attr.watched)).map fun hop => ⟨pfx, hop, true⟩ := by
  unfold parsePathEvent Routing.parsePathEvent
  simp only [Api.Path.watched, hnlri, Option.bind_eq_bind, Option.bind_some, hnet, hwithdraw]
  cases nextHopOf parse (p.pattrs.map Api.Attr.watched) <;> rfl

/-- A withdrawal of a route that is not there changes nothing. -/
theorem onEvent_withdrawal_none (fails : Nat → Option NetlinkError) {s : Injection} {pfx : IpNet}
    (hnone : s.inj.routes[pfx]? = none) (hop : IpAddr) :
    (s.onEvent fails ⟨pfx, hop, true⟩).2 = s := by
  simp [Injection.onEvent, Injection.dropRoute, hnone]

/-- A withdrawal takes the route out of the map, and out of the kernel unless the call fails. -/
theorem onEvent_withdrawal_some (fails : Nat → Option NetlinkError) {s : Injection} {pfx : IpNet}
    {ir : InjectedRoute} (hir : s.inj.routes[pfx]? = some ir) (hop : IpAddr) :
    (s.onEvent fails ⟨pfx, hop, true⟩).2.inj.routes[pfx]? = none ∧
      (ir.route ∉ (s.onEvent fails ⟨pfx, hop, true⟩).2.kernel.state ↔
        fails s.kernel.calls = none ∨ ir.route ∉ s.kernel.state) := by
  have hdrop : (s.onEvent fails ⟨pfx, hop, true⟩).2 = (s.dropRoute fails pfx).2 := rfl
  rw [hdrop]
  unfold Injection.dropRoute
  rw [hir]
  dsimp only
  rw [exec_call]
  refine ⟨Std.TreeMap.getElem?_erase_self, ?_⟩
  cases fails s.kernel.calls with
  | none =>
    simp only [true_or, iff_true]
    rw [mem_routeDel]
    rintro ⟨-, hkey⟩
    rw [Route.sameKey_self] at hkey
    cases hkey
  | some e => simp

/-- A withdrawal of a readable prefix takes the prefix's route out of map and kernel exactly when
the last attribute that names a next hop names a readable one, and, if there is a route to remove,
this is not the node's own address and the call to remove it succeeds (or the kernel lost it). -/
theorem withdraws_iff (fails : Nat → Option NetlinkError) (parse : Parsers)
    (localIp : Option IpAddr) (s : Injection) (p : Api.Path) (ip : Api.IpAddressPrefix)
    (pfx : IpNet) (hnlri : p.nlri = some (.Prefix ip))
    (hnet : parse.net (ip.pfx ++ "/" ++ Nat.repr ip.pfxLen.toNat) = some pfx)
    (hwithdraw : p.isWithdraw = true) :
    Withdraws fails parse localIp s p pfx ↔
      ∃ hop, LastHop parse p.pattrs hop ∧
        ∀ ir, s.inj.routes[pfx]? = some ir → some hop ≠ localIp ∧
          (fails s.kernel.calls = none ∨ ir.route ∉ s.kernel.state) := by
  have hparse := parse_withdrawal hnlri hnet hwithdraw
  cases hhop : nextHopOf parse (p.pattrs.map Api.Attr.watched) with
  | none =>
    refine iff_of_false ?_ ?_
    · rintro ⟨⟨nextHop, hevent⟩, -, -⟩
      rw [hparse, hhop] at hevent
      cases hevent
    · rintro ⟨hop, hlast, -⟩
      rw [(nextHopOf_iff parse p.pattrs hop).mpr hlast] at hhop
      cases hhop
  | some hop =>
    rw [hhop, Option.map_some] at hparse
    have hlast : ∀ hop', LastHop parse p.pattrs hop' ↔ hop' = hop := by
      intro hop'
      rw [← nextHopOf_iff, hhop, Option.some.injEq, eq_comm]
    have hdeliver : deliver fails parse localIp s p =
        if some hop = localIp then s else (s.onEvent fails ⟨pfx, hop, true⟩).2 := by
      unfold deliver
      rw [hparse]
      rfl
    simp only [hlast, exists_eq_left]
    cases hroute : s.inj.routes[pfx]? with
    | none =>
      refine iff_of_true ⟨⟨hop, hparse⟩, ?_, fun ir hir => ?_⟩ fun ir hir => by cases hir
      · rw [hdeliver, onEvent_withdrawal_none fails hroute, ite_self]
        exact hroute
      · rw [hroute] at hir
        cases hir
    | some ir =>
      obtain ⟨hgone, hkernel⟩ := onEvent_withdrawal_some fails hroute hop
      constructor
      · rintro ⟨-, hforgotten, hdeleted⟩ ir' hir'
        cases hir'
        rw [hdeliver] at hforgotten
        have hother : some hop ≠ localIp := by
          intro hown
          rw [if_pos hown, hroute] at hforgotten
          cases hforgotten
        have hout := hdeleted ir hroute
        rw [hdeliver, if_neg hother] at hout
        exact ⟨hother, hkernel.mp hout⟩
      · intro h
        obtain ⟨hother, hok⟩ := h ir rfl
        rw [if_neg hother] at hdeliver
        refine ⟨⟨hop, hparse⟩, by rw [hdeliver]; exact hgone, fun ir' hir' => ?_⟩
        rw [hroute] at hir'
        cases hir'
        rw [hdeliver]
        exact hkernel.mpr hok

section Sample

/-- The route to the sample's prefix is installed. -/
def podRoute : Injection :=
  (({ inj := { localSubnets := [], overlay := .Subnet, table := mainTable,
               importReject := [] } } : Injection).onEvent reliable ⟨podNet, podNode, false⟩).2

/-- A withdrawal of the sample's prefix. -/
def podWithdrawal (pattrs : List (Option Api.Attr)) : Api.Path where
  nlri := some (.Prefix ⟨24, "10.244.1.7"⟩)
  pattrs := pattrs
  isWithdraw := true
  family := some (family afiIp)

end Sample

/-- An attribute that names no next hop may come behind the one that does. -/
theorem hop_withdraws :
    Withdraws reliable podParsers (some (.ofOctets 192 168 32 3)) podRoute
      (podWithdrawal [some (.NextHop "fd00::4"), some (.Communities [65538])]) podNet := by
  refine (withdraws_iff reliable podParsers _ podRoute _ ⟨24, "10.244.1.7"⟩ podNet rfl
    (by decide +kernel) rfl).mpr ⟨podNode, ?_, fun ir _ => ⟨by decide, .inl rfl⟩⟩
  exact ⟨[], _, _, rfl, by decide +kernel, by simp [hopOf]⟩

/-- A BGP withdrawal need not carry a NEXT_HOP. Without one it is dropped, and map and kernel keep
the route. -/
theorem bare_withdrawal_dropped :
    podRoute.inj.routes[podNet]?.map (·.route) = some ⟨podNet, some podNode, mainTable⟩ ∧
      podRoute.kernel.state = [⟨podNet, some podNode, mainTable⟩] ∧
      ¬Withdraws reliable podParsers (some (.ofOctets 192 168 32 3)) podRoute
        (podWithdrawal [some (.Origin 0)]) podNet := by
  refine ⟨by decide +kernel, by decide +kernel, ?_⟩
  rintro ⟨⟨nextHop, hevent⟩, -, -⟩
  have hnone : parsePathEvent podParsers (podWithdrawal [some (.Origin 0)]) = none := by
    decide +kernel
  rw [hnone] at hevent
  cases hevent

end KubeRouter.Bgp
