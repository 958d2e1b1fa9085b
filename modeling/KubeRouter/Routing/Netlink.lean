/-
  The kernel's routing table, as the routing controllers see it (`netlink-sys/src/lib.rs`).

  The kernel keeps one route for each destination and table: `route_replace` puts a route in
  the place of any other one with its destination and table, `route_del` deletes by destination
  and table.

  Proved:
  * `mem_replaceAll`, `mem_delAll`: the routes after a list of replaces or deletes.
-/
import KubeRouter.Common.Ip
import KubeRouter.Lib.Calls

namespace KubeRouter.Routing

open Program

/-! ## Routing table -/

structure Route where
  dst : IpNet
  gateway : Option IpAddr
  table : Nat
deriving DecidableEq, Repr

def mainTable : Nat := 254

namespace Route

/-- The kernel tells routes apart by destination and table. -/
def sameKey (r r' : Route) : Bool := r.dst == r'.dst && r.table == r'.table

theorem sameKey_iff {r r' : Route} : r.sameKey r' = true ↔ r.dst = r'.dst ∧ r.table = r'.table := by
  simp [sameKey]

theorem sameKey_self (r : Route) : r.sameKey r = true := sameKey_iff.mpr ⟨rfl, rfl⟩

end Route

inductive NetlinkCall where
  | routeReplace (r : Route)
  | routeDel (r : Route)
deriving DecidableEq, Repr

inductive NetlinkError where
  | Op (msg : String)
deriving DecidableEq, Repr

/-- What a call does to the kernel's routes. -/
def applyNetlink (routes : List Route) : NetlinkCall → List Route
  | .routeReplace r => routes.filter (fun e => !e.sameKey r) ++ [r]
  | .routeDel r => routes.filter fun e => !e.sameKey r

/-- No calls fail. -/
def reliable : Nat → Option NetlinkError := fun _ => none

/-- No two routes share destination and table, unless they are equal. -/
def OneHop (routes : List Route) : Prop :=
  ∀ r ∈ routes, ∀ r' ∈ routes, r.sameKey r' = true → r = r'

theorem mem_routeReplace {routes : List Route} {a r : Route} :
    r ∈ applyNetlink routes (.routeReplace a) ↔ r = a ∨ r ∈ routes ∧ r.sameKey a = false := by
  simp only [applyNetlink, List.mem_append, List.mem_filter, List.mem_singleton, Bool.not_eq_true']
  exact or_comm

theorem mem_routeDel {routes : List Route} {d r : Route} :
    r ∈ applyNetlink routes (.routeDel d) ↔ r ∈ routes ∧ r.sameKey d = false := by
  simp only [applyNetlink, List.mem_filter, Bool.not_eq_true']

/-- After a run of replaces: the routes replaced, and the old ones with other keys. -/
theorem mem_replaceAll {adds : List Route} (hone : OneHop adds) (routes : List Route) (r : Route) :
    r ∈ (adds.map .routeReplace).foldl applyNetlink routes ↔
      r ∈ adds ∨ r ∈ routes ∧ ∀ a ∈ adds, r.sameKey a = false := by
  induction adds generalizing routes with
  | nil => simp
  | cons a adds ih =>
    have htail : OneHop adds :=
      fun x hx y hy => hone x (List.mem_cons_of_mem a hx) y (List.mem_cons_of_mem a hy)
    rw [List.map_cons, List.foldl_cons, ih htail, mem_routeReplace]
    constructor
    · intro h
      obtain h | ⟨rfl | ⟨hr, ha⟩, hall⟩ := h
      · exact Or.inl (List.mem_cons_of_mem a h)
      · exact Or.inl List.mem_cons_self
      · exact Or.inr ⟨hr, List.forall_mem_cons.mpr ⟨ha, hall⟩⟩
    · intro h
      obtain h | ⟨hr, hall⟩ := h
      · obtain rfl | h := List.mem_cons.mp h
        · -- a later replace of the same key is a replace by the same route
          by_cases hin : r ∈ adds
          · exact Or.inl hin
          · refine Or.inr ⟨Or.inl rfl, fun b hb => ?_⟩
            by_contra hkey
            have heq := hone r List.mem_cons_self b (List.mem_cons_of_mem r hb)
              (by simpa using hkey)
            exact hin (heq ▸ hb)
        · exact Or.inl h
      · obtain ⟨ha, hall⟩ := List.forall_mem_cons.mp hall
        exact Or.inr ⟨Or.inr ⟨hr, ha⟩, hall⟩

theorem mem_delAll (dels routes : List Route) (r : Route) :
    r ∈ (dels.map .routeDel).foldl applyNetlink routes ↔
      r ∈ routes ∧ ∀ d ∈ dels, r.sameKey d = false := by
  induction dels generalizing routes with
  | nil => simp
  | cons d dels ih =>
    rw [List.map_cons, List.foldl_cons, ih, List.forall_mem_cons, mem_routeDel]
    exact and_assoc

end KubeRouter.Routing
