/-
  Runs of the nat passes, and what becomes of a packet in POSTROUTING.

  Between two passes somebody else may rewrite the tables, as long as he leaves the rules of the
  passes alone. Every command of every pass may fail.

  A packet carries what IPVS knows of its connection. `snatOf` says what should become of it in
  terms of services, endpoints and settings; `chainFate` reads the arguments of the rules in their
  order.

  Proved:
  * `passes_leave_others`: what any sequence of passes leaves alone, where the rules of the
    hairpin chain come from, and what a pass that reports success has achieved.
  * `snat_exact`: behind a pass in which no command fails, whatever came before it, POSTROUTING
    does with a packet what `snatOf` says.
-/
import KubeRouter.Lib.System
import KubeRouter.Proxy.Nat

namespace KubeRouter.Proxy.Nat

open Firewall (Args Chains)
open Program

/-! ## Passes one after the other -/

abbrev Tables := Bool → Chains

/-- A pass: what it sees and how its commands end. -/
structure Pass where
  services : Snapshot
  exits : Nat → Exit

def passResult (cfg : NatCfg) (s : Tables) (p : Pass) : Except NatError PUnit × World :=
  Prog.exec (syncNat p.exits cfg p.services) { tables := s }

def afterPass (cfg : NatCfg) (s : Tables) (p : Pass) : Tables := (passResult cfg s p).2.tables

def afterPasses (cfg : NatCfg) (s : Tables) (ps : List Pass) : Tables :=
  ps.foldl (afterPass cfg) s

/-- The rules that a pass wants in the hairpin chain. -/
def Pass.rules (cfg : NatCfg) (ipv6 : Bool) (p : Pass) : List Args :=
  hairpinRulesForFamily p.services cfg.hairpinGlobal ipv6

section Passes

variable (cfg : NatCfg)

theorem afterPass_each {R : Bool → Chains → Chains → Prop} {p : Pass}
    (h : Within (Each R) (syncNat p.exits cfg p.services)) (s : Tables) (ipv6 : Bool) :
    R ipv6 (s ipv6) (afterPass cfg s p ipv6) :=
  wp_state (P := fun u => Each R { tables := s } u) (h { tables := s }) ipv6

/-- The tables of a family that has no handler, and the origin of the rules in the hairpin chain. -/
structure Sourced (rules : Bool → List Args) (ipv6 : Bool) (t t' : Chains) : Prop where
  idle : ipv6 ∉ cfg.families → t' = t
  origin : ∀ a ∈ (t' hairpinChain).getD [], a ∈ (t hairpinChain).getD [] ∨ a ∈ rules ipv6

variable {cfg}

theorem Sourced.refl {rules : Bool → List Args} (ipv6 : Bool) (t : Chains) :
    Sourced cfg rules ipv6 t t :=
  ⟨fun _ => rfl, fun _ ha => .inl ha⟩

theorem Sourced.trans {rules : Bool → List Args} (ipv6 : Bool) (t t' t'' : Chains)
    (h : Sourced cfg rules ipv6 t t') (h' : Sourced cfg rules ipv6 t' t'') :
    Sourced cfg rules ipv6 t t'' :=
  ⟨fun hnot => (h'.idle hnot).trans (h.idle hnot),
    fun a ha => (h'.origin a ha).elim (h.origin a) .inr⟩

theorem syncNat_sourced (exits : Nat → Exit) (services : Snapshot) :
    Within (Each (Sourced cfg (hairpinRulesForFamily services cfg.hairpinGlobal)))
      (syncNat exits cfg services) := by
  refine .bind (each_trans Sourced.trans) ?_ fun _ => ?_
  · exact within_hairpins exits Sourced.refl Sourced.trans fun ipv6 hipv6 args hargs t t' hexec =>
      ⟨fun hnot => absurd hipv6 hnot, hargs.origin hexec⟩
  · refine within_masquerades exits Sourced.refl Sourced.trans
      fun ipv6 hipv6 args hargs t t' hexec =>
      ⟨fun hnot => absurd hipv6 hnot, fun a ha => .inl ?_⟩
    rwa [hargs.other hexec postrouting_ne.symm] at ha

theorem syncHairpins_ok (exits : Nat → Exit) (services : Snapshot) (w : World) :
    wp (syncHairpins exits cfg services)
      (fun _ u => ∀ ipv6 ∈ cfg.families,
        Reached (hairpinRulesForFamily services cfg.hairpinGlobal ipv6) (u.tables ipv6))
      (fun _ _ => True) w := by
  refine wp_forM (fun done (u : World) => ∀ ipv6 ∈ done,
    Reached (hairpinRulesForFamily services cfg.hairpinGlobal ipv6) (u.tables ipv6)) cfg.families
    (by simp) ?_
  intro done ipv6 rest u _ hu
  -- the other families are left alone
  have hother : Within (Each fun other t t' => other ≠ ipv6 → t' = t)
      (syncHairpin exits ipv6 (hairpinRulesForFamily services cfg.hairpinGlobal ipv6)) :=
    within_hairpin exits (fun _ _ _ => rfl) (fun _ _ _ _ h h' hne => (h' hne).trans (h hne))
      fun _ _ _ _ _ hne => absurd rfl hne
  refine wp_mono (wp_and (syncHairpin_ok exits ipv6 _ u) (hother u)) (fun _ v hv => ?_)
    (fun _ _ _ => trivial)
  intro other hmem
  by_cases heq : other = ipv6
  · rw [heq]
    exact hv.1
  · obtain hmem | hmem := List.mem_append.mp hmem
    · rw [hv.2 other heq]
      exact hu other hmem
    · exact absurd (List.mem_singleton.mp hmem) heq

/-- Masquerade commands keep what the hairpin part has reached. -/
theorem syncMasquerades_reached (exits : Nat → Exit) (rules : List Args) :
    Within (Each fun _ t t' => Reached rules t → Reached rules t') (syncMasquerades exits cfg) := by
  refine within_masquerades exits (fun _ _ h => h) (fun _ _ _ _ h h' hr => h' (h hr))
    fun ipv6 _ args hargs t t' hexec hr => ⟨hargs.jumps hexec hr.jumps, fun a ha => ?_⟩
  rw [hargs.other hexec postrouting_ne.symm]
  exact hr.rules a ha

theorem pass_ok {s : Tables} {p : Pass} (h : (passResult cfg s p).1 = .ok ⟨⟩) :
    ∀ ipv6 ∈ cfg.families, Reached (p.rules cfg ipv6) (afterPass cfg s p ipv6) := by
  have hwp : wp (syncNat p.exits cfg p.services)
      (fun _ u => ∀ ipv6 ∈ cfg.families, Reached (p.rules cfg ipv6) (u.tables ipv6))
      (fun _ _ => True) { tables := s } := by
    unfold syncNat
    rw [wp_bind]
    refine wp_mono (syncHairpins_ok p.exits p.services _) (fun _ u hu => ?_) (fun _ _ he => he)
    -- one family at a time
    have hkeep : ∀ ipv6 ∈ cfg.families, wp (syncMasquerades p.exits cfg)
        (fun _ v => Reached (p.rules cfg ipv6) (v.tables ipv6))
        (fun _ v => Reached (p.rules cfg ipv6) (v.tables ipv6)) u := fun ipv6 hipv6 =>
      wp_mono (syncMasquerades_reached p.exits (p.rules cfg ipv6) u)
        (fun _ _ hv => hv ipv6 (hu ipv6 hipv6)) (fun _ _ hv => hv ipv6 (hu ipv6 hipv6))
    unfold wp
    split
    · next a v hx =>
      intro ipv6 hipv6
      have hv := hkeep ipv6 hipv6
      unfold wp at hv
      rwa [hx] at hv
    · trivial
  exact wp_ok hwp h

end Passes

/-- Whatever the services and however the commands end: the rules of somebody else stay in their
order in any sequence of passes, and so do his chains and a family without a handler. A rule in
the hairpin chain was there at the start or was wanted by one of the passes. A pass that reports
success has the jump and all of its hairpin rules in place. -/
theorem passes_leave_others (cfg : NatCfg) (s : Tables) (ps : List Pass) :
    (∀ ipv6, Frame cfg ipv6 (s ipv6) (afterPasses cfg s ps ipv6)) ∧
    (∀ ipv6 ∉ cfg.families, afterPasses cfg s ps ipv6 = s ipv6) ∧
    (∀ ipv6, ∀ a ∈ (afterPasses cfg s ps ipv6 hairpinChain).getD [],
      a ∈ (s ipv6 hairpinChain).getD [] ∨ ∃ p ∈ ps, a ∈ p.rules cfg ipv6) ∧
    ∀ p, (passResult cfg (afterPasses cfg s ps) p).1 = .ok ⟨⟩ → ∀ ipv6 ∈ cfg.families,
      Reached (p.rules cfg ipv6) (afterPasses cfg s (ps ++ [p]) ipv6) := by
  refine ⟨?_, ?_, ?_, ?_⟩
  · intro ipv6
    induction ps generalizing s with
    | nil => exact Frame.refl _
    | cons p ps ih =>
      exact Frame.trans _ _ _ (afterPass_each cfg (syncNat_frame p.exits cfg p.services) s ipv6)
        (ih (afterPass cfg s p))
  · intro ipv6 hnot
    induction ps generalizing s with
    | nil => rfl
    | cons p ps ih =>
      exact (ih (afterPass cfg s p)).trans
        ((afterPass_each cfg (syncNat_sourced p.exits p.services) s ipv6).idle hnot)
  · intro ipv6
    induction ps generalizing s with
    | nil => exact fun a ha => .inl ha
    | cons p ps ih =>
      intro a ha
      obtain ha | ⟨q, hq, ha⟩ := ih (afterPass cfg s p) a ha
      · obtain ha | ha :=
          (afterPass_each cfg (syncNat_sourced p.exits p.services) s ipv6).origin a ha
        · exact .inl ha
        · exact .inr ⟨p, List.mem_cons_self, ha⟩
      · exact .inr ⟨q, List.mem_cons_of_mem p hq, ha⟩
  · intro p hok
    rw [afterPasses, List.foldl_append]
    exact pass_ok hok

/-! ## A pass in which no command fails -/

/-- The network of one address. -/
theorem host_bits (ip : IpAddr) : ip.bits ≤ ip.bits := le_refl _

def host (ip : IpAddr) : IpNet := ⟨ip, ip.bits, host_bits ip⟩

theorem cidrSelf_eq (ip : IpAddr) : cidrSelf ip = (host ip).toText := by
  cases ip with
  | V4 a =>
    show (IpAddr.V4 a).toText ++ "/32" = (IpAddr.V4 a).toText ++ "/" ++ toString 32
    rw [String.append_assoc]
    rfl
  | V6 a =>
    show (IpAddr.V6 a).toText ++ "/128" = (IpAddr.V6 a).toText ++ "/" ++ toString 128
    rw [String.append_assoc]
    rfl

/-- A text that is read as an address, a network or a port is no option. -/
theorem ne_of_parse {α : Type} {parse : List Char → Option α} {text : String} {a : α}
    (h : parse text.toList = some a) (hj : parse ['-', 'j'] = none) : text ≠ "-j" := by
  rintro rfl
  rw [show "-j".toList = ['-', 'j'] from rfl, hj] at h
  cases h

theorem netText_ne_j (net : IpNet) : net.toText ≠ "-j" := ne_of_parse (IpNet.parse_toText net) rfl

theorem hasTarget_hairpin (t : Chains) (ep vip : IpAddr) (port : UInt16) :
    hasTarget t (hairpinSnatArgs ep vip port) = true := by
  have hself := netText_ne_j (host ep)
  have hvip := ne_of_parse (IpAddr.parse_toText vip) rfl
  have hparse : Text.parseU16 port.toNat.repr.toList = some port := by
    rw [Nat.toList_repr, Text.parseU16_toDigits]
  have hport := ne_of_parse hparse rfl
  unfold hasTarget hairpinSnatArgs
  rw [cidrSelf_eq]
  simp [hself, hvip, hport, extensions]

section CleanPass

variable {cfg : NatCfg} {exits : Nat → Exit} (hclean : ∀ n, exits n = .normal)

/-- What the rest of a pass relies on. -/
structure Sound (cfg : NatCfg) (w : World) : Prop where
  present : ∀ ipv6, (w.tables ipv6 "POSTROUTING").isSome
  once : ∀ ipv6, ∀ a ∈ unwantedRules cfg ipv6, (postrouting (w.tables ipv6)).count a ≤ 1

include hclean

theorem syncHairpins_clean (services : Snapshot) {w : World} (hw : Sound cfg w) :
    wp (syncHairpins exits cfg services)
      (fun _ u => Sound cfg u ∧ ∀ ipv6 ∈ cfg.families, u.tables ipv6 hairpinChain =
        some (hairpinRulesForFamily services cfg.hairpinGlobal ipv6))
      (fun _ _ => False) w := by
  refine wp_forM (fun done (u : World) => Sound cfg u ∧ ∀ ipv6 ∈ done,
    u.tables ipv6 hairpinChain = some (hairpinRulesForFamily services cfg.hairpinGlobal ipv6))
    cfg.families ⟨hw, by simp⟩ ?_
  intro done ipv6 rest u _ hu
  obtain ⟨hsound, hdone⟩ := hu
  obtain ⟨post, hpost⟩ := Option.isSome_iff_exists.mp (hsound.present ipv6)
  have htarget : ∀ a ∈ hairpinRulesForFamily services cfg.hairpinGlobal ipv6, ∀ t,
      hasTarget t a = true := by
    intro a ha t
    obtain ⟨ep, vip, port, _, rfl⟩ := mem_hairpinRulesForFamily.mp ha
    exact hasTarget_hairpin t ep vip port
  refine wp_mono (syncHairpin_clean hclean ipv6 hpost (hairpinRulesForFamily_nodup _ _ _) htarget)
    (fun _ v hv => ?_) (fun _ _ he => he)
  have hpostv : v.tables ipv6 "POSTROUTING" = some (Collect.pushNew post hairpinJumpArgs) := by
    rw [hv.table, hairpinTable, Function.update_of_ne postrouting_ne, Function.update_self]
  have hother : ∀ other, other ≠ ipv6 → v.tables other = u.tables other := fun other hne => by
    rw [hv, Function.update_of_ne hne]
  refine ⟨⟨fun other => ?_, fun other a ha => ?_⟩, fun other hmem => ?_⟩
  · by_cases heq : other = ipv6
    · rw [heq, hpostv]
      rfl
    · rw [hother other heq]
      exact hsound.present other
  · have honce := hsound.once other a ha
    by_cases heq : other = ipv6
    · subst heq
      have hne := ne_jump_of_unwanted ha
      unfold postrouting at honce ⊢
      rw [hpost, Option.getD_some] at honce
      rw [hpostv, Option.getD_some]
      by_cases hjump : hairpinJumpArgs ∈ post
      · rwa [Collect.pushNew_of_mem hjump]
      · rwa [Collect.pushNew_of_not_mem hjump, List.count_append, List.count_singleton,
          if_neg (by simpa using hne.symm)]
    · rw [hother other heq]
      exact honce
  · by_cases heq : other = ipv6
    · rw [heq, hv.table, hairpinTable, Function.update_self]
    · obtain hmem | hmem := List.mem_append.mp hmem
      · rw [hother other heq]
        exact hdone other hmem
      · exact absurd (List.mem_singleton.mp hmem) heq

/-- The masquerade rules of a family stand as they should. -/
structure Masqueraded (cfg : NatCfg) (ipv6 : Bool) (t : Chains) : Prop where
  wanted : ∀ a ∈ wantedRules cfg ipv6, a ∈ postrouting t
  unwanted : ∀ a ∈ unwantedRules cfg ipv6, a ∉ postrouting t

omit hclean in
/-- The masquerade part puts POSTROUTING right. -/
theorem masqueraded_spec {ipv6 : Bool} {p : MasqueradeCfg × IpAddr} {t : Chains} {post : List Args}
    (hof : masqueradeOf cfg ipv6 = some p)
    (honce : ∀ a ∈ unwantedRules cfg ipv6, post.count a ≤ 1) :
    Masqueraded cfg ipv6 (Function.update t "POSTROUTING"
      (some (masqueraded post (allRule p) p.1.all (cidrRules p ipv6)))) := by
  have hnew : postrouting (Function.update t "POSTROUTING"
      (some (masqueraded post (allRule p) p.1.all (cidrRules p ipv6)))) =
      masqueraded post (allRule p) p.1.all (cidrRules p ipv6) := by
    rw [postrouting, Function.update_self, Option.getD_some]
  refine ⟨fun a ha => ?_, fun a ha => ?_⟩
  · rw [hnew, masqueraded, Collect.mem_pushAll]
    simp only [wantedRules, hof, List.mem_append] at ha
    obtain ha | ha := ha
    · cases hall : p.1.all with
      | true =>
        rw [hall, if_pos rfl] at ha
        rw [if_pos rfl, Collect.mem_pushNew]
        exact .inl (.inr (List.mem_singleton.mp ha))
      | false => simp [hall] at ha
    · exact .inr ha
  · rw [hnew, masqueraded, Collect.mem_pushAll]
    have hone := honce a ha
    cases hall : p.1.all with
    | true => simp [unwantedRules, hof, hall] at ha
    | false =>
      simp only [unwantedRules, hof, hall, Bool.false_eq_true, if_false, List.mem_singleton] at ha
      subst ha
      rintro (hmem | hmem)
      · have hcount := List.count_pos_iff.mpr hmem
        rw [if_neg Bool.false_ne_true, List.count_erase_self] at hcount
        omega
      · exact allRule_not_mem_cidrRules p ipv6 hmem

/-- Families for which the hairpin part is done stay done. -/
theorem syncMasquerades_clean {chains : Bool → List Args} {w : World} (hw : Sound cfg w)
    (hchains : ∀ ipv6 ∈ cfg.families, w.tables ipv6 hairpinChain = some (chains ipv6))
    (hcidrs : ∀ m ∈ cfg.masquerade, ∀ c ∈ m.podCidrs, c ≠ "-j") :
    wp (syncMasquerades exits cfg)
      (fun _ u => ∀ ipv6 ∈ cfg.families, u.tables ipv6 hairpinChain = some (chains ipv6) ∧
        Masqueraded cfg ipv6 (u.tables ipv6))
      (fun _ _ => False) w := by
  have hnone : ∀ {ipv6 : Bool} {t : Chains}, masqueradeOf cfg ipv6 = none →
      Masqueraded cfg ipv6 t := fun h =>
    ⟨fun a ha => by simp [wantedRules, h] at ha, fun a ha => by simp [unwantedRules, h] at ha⟩
  unfold syncMasquerades
  cases hm : cfg.masquerade with
  | none => exact fun ipv6 hipv6 => ⟨hchains ipv6 hipv6, hnone (by simp [masqueradeOf, hm])⟩
  | some m =>
    refine wp_mono (wp_forM (fun done (u : World) => Sound cfg u ∧
      (∀ ipv6 ∈ cfg.families, u.tables ipv6 hairpinChain = some (chains ipv6)) ∧
      ∀ ipv6 ∈ done, Masqueraded cfg ipv6 (u.tables ipv6)) cfg.families
      ⟨hw, hchains, by simp⟩ ?_) (fun _ u hu ipv6 hipv6 => ⟨hu.2.1 ipv6 hipv6, hu.2.2 ipv6 hipv6⟩)
      (fun _ _ he => he)
    intro done ipv6 rest u _ hu
    obtain ⟨hsound, hrules, hdone⟩ := hu
    cases hprimary : m.primaryOf ipv6 with
    | none =>
      refine ⟨hsound, hrules, fun other hmem => ?_⟩
      obtain hmem | hmem := List.mem_append.mp hmem
      · exact hdone other hmem
      · rw [List.mem_singleton.mp hmem]
        exact hnone (by simp [masqueradeOf, hm, hprimary])
    | some primary =>
      have hof : masqueradeOf cfg ipv6 = some (m, primary) := by simp [masqueradeOf, hm, hprimary]
      obtain ⟨post, hpost⟩ := Option.isSome_iff_exists.mp (hsound.present ipv6)
      have honce : ∀ a ∈ unwantedRules cfg ipv6, post.count a ≤ 1 := by
        intro a ha
        have h := hsound.once ipv6 a ha
        rwa [postrouting, hpost, Option.getD_some] at h
      refine wp_mono (syncMasquerade_clean hclean ipv6 hpost fun c hc =>
        hcidrs m hm c (List.mem_of_mem_filter hc)) (fun _ v hv => ?_) (fun _ _ he => he)
      have hother : ∀ other, other ≠ ipv6 → v.tables other = u.tables other := fun other hne => by
        rw [hv, Function.update_of_ne hne]
      have hnew : Masqueraded cfg ipv6 (v.tables ipv6) := by
        rw [hv.table]
        exact masqueraded_spec hof honce
      refine ⟨⟨fun other => ?_, fun other a ha => ?_⟩, fun other hmem => ?_, fun other hmem => ?_⟩
      · by_cases heq : other = ipv6
        · rw [heq, hv.table, Function.update_self]
          rfl
        · rw [hother other heq]
          exact hsound.present other
      · by_cases heq : other = ipv6
        · subst heq
          rw [List.count_eq_zero_of_not_mem (hnew.unwanted a ha)]
          exact Nat.zero_le 1
        · rw [hother other heq]
          exact hsound.once other a ha
      · by_cases heq : other = ipv6
        · subst heq
          rw [hv.table, Function.update_of_ne postrouting_ne.symm]
          exact hrules other hmem
        · rw [hother other heq]
          exact hrules other hmem
      · by_cases heq : other = ipv6
        · rw [heq]
          exact hnew
        · obtain hmem | hmem := List.mem_append.mp hmem
          · rw [hother other heq]
            exact hdone other hmem
          · exact absurd (List.mem_singleton.mp hmem) heq

end CleanPass

/-! ## Runs -/

inductive Step where
  | pass (p : Pass)
  /-- Somebody else has been at the tables. -/
  | others (s : Tables)

def step (cfg : NatCfg) (s : Tables) : Step → Option Tables
  | .pass p => some (afterPass cfg s p)
  | .others s' => some s'

/-- Somebody else leaves the rules of the passes alone, and the built-in chain. -/
def LeavesOwn (cfg : NatCfg) (s : Tables) : Step → Prop
  | .pass _ => True
  | .others s' => ∀ ipv6, (s' ipv6 "POSTROUTING").isSome ∧
      own cfg ipv6 (s' ipv6) = own cfg ipv6 (s ipv6) ∧ s' ipv6 hairpinChain = s ipv6 hairpinChain

section Runs

variable {cfg : NatCfg}

theorem orderly_pass {s : Tables} (h : ∀ ipv6, Orderly cfg ipv6 (s ipv6)) (p : Pass) (ipv6 : Bool) :
    Orderly cfg ipv6 (afterPass cfg s p ipv6) := by
  have hwp : wp (syncNat p.exits cfg p.services)
      (fun _ u => ∀ ipv6, Orderly cfg ipv6 (u.tables ipv6))
      (fun _ u => ∀ ipv6, Orderly cfg ipv6 (u.tables ipv6)) { tables := s } := by
    unfold syncNat
    rw [wp_bind]
    have hhairpin : Within (Each fun ipv6 t t' => Orderly cfg ipv6 t → Orderly cfg ipv6 t')
        (syncHairpins p.exits cfg p.services) :=
      within_hairpins p.exits (fun _ _ h => h) (fun _ _ _ _ h h' ho => h' (h ho))
        fun ipv6 _ args hargs t t' hexec ho => (hargs.keeps hexec).1 ho
    refine wp_mono (wp_and (hhairpin _) (syncHairpins_ok p.exits p.services _)) ?_
      (fun _ u hu ipv6 => hu.1 ipv6 (h ipv6))
    -- from here on the jump is there in every family of a handler
    intro _ u hu
    have hmasq : Within (Each fun ipv6 t t' =>
        Orderly cfg ipv6 t ∧ (ipv6 ∈ cfg.families → Jumps t) →
          Orderly cfg ipv6 t' ∧ (ipv6 ∈ cfg.families → Jumps t')) (syncMasquerades p.exits cfg) :=
      within_masquerades p.exits (fun _ _ h => h) (fun _ _ _ _ h h' ho => h' (h ho))
        fun ipv6 hipv6 args hargs t t' hexec ho =>
          ⟨hargs.orderly hexec ho.1 (ho.2 hipv6), fun _ => hargs.jumps hexec (ho.2 hipv6)⟩
    have hstart : ∀ ipv6, Orderly cfg ipv6 (u.tables ipv6) ∧
        (ipv6 ∈ cfg.families → Jumps (u.tables ipv6)) := fun ipv6 =>
      ⟨hu.1 ipv6 (h ipv6), fun hipv6 => (hu.2 ipv6 hipv6).jumps⟩
    exact wp_mono (hmasq u) (fun _ _ hv ipv6 => (hv ipv6 (hstart ipv6)).1)
      (fun _ _ hv ipv6 => (hv ipv6 (hstart ipv6)).1)
  exact wp_state (P := fun (u : World) => ∀ ipv6, Orderly cfg ipv6 (u.tables ipv6)) hwp ipv6

theorem count_own {a : Args} {ipv6 : Bool} (h : a ∈ ownRules cfg ipv6) (t : Chains) :
    (own cfg ipv6 t).count a = (postrouting t).count a :=
  List.count_filter (by simpa using h)

/-- The order holds throughout a run. -/
theorem orderly_run {s s' : Tables} {steps : List Step} (h : ∀ ipv6, Orderly cfg ipv6 (s ipv6))
    (hothers : System.Meets (step cfg) (LeavesOwn cfg) s steps)
    (hrun : System.run (step cfg) s steps = some s') : ∀ ipv6, Orderly cfg ipv6 (s' ipv6) := by
  refine System.run_invariant (I := fun s => ∀ ipv6, Orderly cfg ipv6 (s ipv6)) ?_ h hothers hrun
  intro s a t hs hC ht ipv6
  cases a with
  | pass p =>
    obtain rfl := Option.some.inj ht
    exact orderly_pass hs p ipv6
  | others s' =>
    obtain rfl := Option.some.inj ht
    obtain ⟨hpresent, hown, _⟩ := hC ipv6
    refine ⟨hpresent, hown ▸ (hs ipv6).first, fun a ha => ?_⟩
    have hmem := mem_ownRules_unwanted ha
    rw [← count_own hmem, hown, count_own hmem]
    exact (hs ipv6).once a ha

/-- What a pass without failures leaves in a family. -/
structure Settled (cfg : NatCfg) (services : Snapshot) (ipv6 : Bool) (t : Chains) : Prop where
  chain : t hairpinChain = some (hairpinRulesForFamily services cfg.hairpinGlobal ipv6)
  first : ∃ rest, own cfg ipv6 t = hairpinJumpArgs :: rest
  mem : ∀ a, a ∈ own cfg ipv6 t ↔ a = hairpinJumpArgs ∨ a ∈ wantedRules cfg ipv6

theorem settled_pass {s : Tables} (h : ∀ ipv6, Orderly cfg ipv6 (s ipv6)) {p : Pass}
    (hclean : ∀ n, p.exits n = .normal)
    (hcidrs : ∀ m ∈ cfg.masquerade, ∀ c ∈ m.podCidrs, c ≠ "-j") :
    (passResult cfg s p).1 = .ok ⟨⟩ ∧
      ∀ ipv6 ∈ cfg.families, Settled cfg p.services ipv6 (afterPass cfg s p ipv6) := by
  have hsound : Sound cfg { tables := s } :=
    ⟨fun ipv6 => (h ipv6).present, fun ipv6 => (h ipv6).once⟩
  have hwp : wp (syncNat p.exits cfg p.services)
      (fun _ u => ∀ ipv6 ∈ cfg.families, u.tables ipv6 hairpinChain =
        some (hairpinRulesForFamily p.services cfg.hairpinGlobal ipv6) ∧
        Masqueraded cfg ipv6 (u.tables ipv6))
      (fun _ _ => False) { tables := s } := by
    unfold syncNat
    rw [wp_bind]
    refine wp_mono (syncHairpins_clean hclean p.services hsound) (fun _ u hu => ?_)
      (fun _ _ he => he)
    exact syncMasquerades_clean hclean hu.1 hu.2 hcidrs
  obtain ⟨⟨⟩, hok⟩ := wp_total (wp_mono hwp (fun _ _ hu => hu) (fun _ _ he => he))
  refine ⟨hok, fun ipv6 hipv6 => ?_⟩
  obtain ⟨hchain, hmasq⟩ := wp_ok hwp hok ipv6 hipv6
  have hjump : hairpinJumpArgs ∈ own cfg ipv6 (afterPass cfg s p ipv6) :=
    List.mem_filter.mpr ⟨(pass_ok hok ipv6 hipv6).jumps, by simpa using mem_ownRules_jump⟩
  refine ⟨hchain, ?_, fun a => ⟨fun ha => ?_, fun ha => ?_⟩⟩
  · obtain hnil | hfirst := (orderly_pass h p ipv6).first
    · rw [hnil] at hjump
      cases hjump
    · exact hfirst
  · obtain ⟨hpost, hown⟩ := List.mem_filter.mp ha
    obtain heq | hmem := List.mem_cons.mp (of_decide_eq_true hown)
    · exact .inl heq
    · obtain hmem | hmem := List.mem_append.mp hmem
      · exact .inr hmem
      · exact absurd hpost (hmasq.unwanted a hmem)
  · obtain rfl | ha := ha
    · exact hjump
    · exact List.mem_filter.mpr ⟨hmasq.wanted a ha, by simpa using mem_ownRules_wanted ha⟩

end Runs

/-! ## Packets -/

/-- What IPVS knows of the connection of a packet. -/
structure IpvsConn where
  vaddr : IpAddr
  vport : UInt16
  /-- From the client to the service. -/
  original : Bool
  /-- Forwarded by masquerading. -/
  masq : Bool
deriving DecidableEq, Repr

structure Packet where
  src : IpAddr
  dst : IpAddr
  ipvs : Option IpvsConn
deriving DecidableEq, Repr

inductive Cond where
  /-- `[!] -s <net>` -/
  | src (negated : Bool) (net : IpNet)
  /-- `[!] -d <net>` -/
  | dst (negated : Bool) (net : IpNet)
  /-- `--ipvs` -/
  | ipvs
  /-- `--vaddr <addr>` -/
  | vaddr (addr : IpAddr)
  /-- `--vport <port>` -/
  | vport (port : UInt16)
  /-- `--vdir ORIGINAL` -/
  | original
  /-- `--vmethod MASQ` -/
  | masq
deriving DecidableEq, Repr

inductive Target where
  | snat (source : IpAddr)
  | jump (chain : String)
deriving DecidableEq, Repr

def readSource : Args → Option Target
  | [source] => (IpAddr.parse source.toList).map .snat
  | [source, "--random-fully"] => (IpAddr.parse source.toList).map .snat
  | _ => none

/-- Conditions and target of a rule of a pass. -/
def readRule : Args → Option (List Cond × Target)
  | "-m" :: "ipvs" :: rest => readRule rest
  | "-s" :: net :: rest => do
    let net ← IpNet.parse net.toList
    (readRule rest).map fun r => (.src false net :: r.1, r.2)
  | "-d" :: net :: rest => do
    let net ← IpNet.parse net.toList
    (readRule rest).map fun r => (.dst false net :: r.1, r.2)
  | "!" :: "-s" :: net :: rest => do
    let net ← IpNet.parse net.toList
    (readRule rest).map fun r => (.src true net :: r.1, r.2)
  | "!" :: "-d" :: net :: rest => do
    let net ← IpNet.parse net.toList
    (readRule rest).map fun r => (.dst true net :: r.1, r.2)
  | "--ipvs" :: rest => (readRule rest).map fun r => (.ipvs :: r.1, r.2)
  | "--vaddr" :: addr :: rest => do
    let addr ← IpAddr.parse addr.toList
    (readRule rest).map fun r => (.vaddr addr :: r.1, r.2)
  | "--vport" :: port :: rest => do
    let port ← Text.parseU16 port.toList
    (readRule rest).map fun r => (.vport port :: r.1, r.2)
  | "--vdir" :: "ORIGINAL" :: rest => (readRule rest).map fun r => (.original :: r.1, r.2)
  | "--vmethod" :: "MASQ" :: rest => (readRule rest).map fun r => (.masq :: r.1, r.2)
  | "-j" :: "SNAT" :: "--to-source" :: rest => (readSource rest).map fun t => ([], t)
  | ["-j", chain] => if extensions.contains chain then none else some ([], .jump chain)
  | _ => none

/-- What becomes of a packet that a rule ends with. -/
inductive Fate where
  | accept
  | snat (source : IpAddr)
deriving DecidableEq, Repr

section Fate

/- `other` is what somebody else's rules do. -/
variable (other : Args → Option Fate) (pkt : Packet)

def Cond.holds : Cond → Bool
  | src negated net => net.contains pkt.src != negated
  | dst negated net => net.contains pkt.dst != negated
  | ipvs => pkt.ipvs.isSome
  | vaddr addr => pkt.ipvs.any (·.vaddr == addr)
  | vport port => pkt.ipvs.any (·.vport == port)
  | original => pkt.ipvs.any (·.original)
  | masq => pkt.ipvs.any (·.masq)

/-- None for a packet that goes on behind the rule. -/
def ruleFate (chain : String → Option Fate) (args : Args) : Option Fate :=
  match readRule args with
  | none => other args
  | some (conds, target) =>
    if conds.all (Cond.holds pkt) then
      match target with
      | .snat source => some (.snat source)
      | .jump c => chain c
    else none

/-- The rules of a chain in order, with jumps `n` deep. -/
def chainFate (t : Chains) : Nat → String → Option Fate
  | 0, _ => none
  | n + 1, chain => ((t chain).getD []).findSome? (ruleFate other pkt (chainFate t n))

end Fate

/-! ### What should become of a packet -/

/-- A packet that a local endpoint of a service sent to the service and that came back to it. -/
def comesBack (services : Snapshot) (global ipv6 : Bool) (pkt : Packet) (conn : IpvsConn) : Bool :=
  conn.original && pkt.src == pkt.dst && services.any fun s =>
    (global || s.1.hairpin) && conn.vport == s.1.port && (vipsOf s.1 ipv6).contains conn.vaddr &&
      s.2.any fun e => e.ip == pkt.src && e.isLocal && e.ready && e.ip.isIpv6 == ipv6

/-- A packet that has to come back through this node. -/
def needsReturn (all : Bool) (podCidrs : List IpNet) (pkt : Packet) (conn : IpvsConn) : Bool :=
  conn.original && conn.masq &&
    (all || podCidrs.any fun net => !net.contains pkt.src && !net.contains pkt.dst)

/-- The addresses and networks of a family. -/
def Settings.primaryOf (o : Settings) (ipv6 : Bool) : Option IpAddr :=
  o.primaryIp.filter (·.isIpv6 == ipv6)

def Settings.podCidrsOf (o : Settings) (ipv6 : Bool) : List IpNet :=
  o.podCidrs.filter (·.addr.isIpv6 == ipv6)

/-- The source address of a packet behind POSTROUTING, if it changes: the address of the service
for an endpoint that reached itself, else the address of the node. -/
def snatOf (o : Settings) (services : Snapshot) (ipv6 : Bool) (pkt : Packet) : Option Fate :=
  pkt.ipvs.bind fun conn =>
    if comesBack services o.hairpinMode ipv6 pkt conn then some (.snat conn.vaddr)
    else
      (o.primaryOf ipv6).bind fun primary =>
        if needsReturn o.masqueradeAll (o.podCidrsOf ipv6) pkt conn then some (.snat primary)
        else none

/-! ### What the rules do -/

theorem host_contains (ip pkt : IpAddr) : (host ip).contains pkt = (pkt == ip) := by
  rw [Bool.eq_iff_iff, beq_iff_eq]
  cases ip with
  | V4 a =>
    cases pkt with
    | V4 b => simpa [host, IpNet.contains, IpAddr.bits] using eq_comm
    | V6 b => simp [host, IpNet.contains]
  | V6 a =>
    cases pkt with
    | V4 b => simp [host, IpNet.contains]
    | V6 b => simpa [host, IpNet.contains, IpAddr.bits] using eq_comm

theorem readRule_hairpin (ep vip : IpAddr) (port : UInt16) :
    readRule (hairpinSnatArgs ep vip port) =
      some ([.src false (host ep), .dst false (host ep), .vaddr vip, .vport port], .snat vip) := by
  simp [hairpinSnatArgs, readRule, readSource, cidrSelf_eq, IpNet.parse_toText,
    IpAddr.parse_toText, Text.parseU16_toDigits]

theorem readRule_masquerade (primary : IpAddr) (net : Option IpNet) (randomFully : Bool) :
    readRule (masqueradeArgs primary (net.map (·.toText)) randomFully) =
      some ([.ipvs, .original, .masq] ++
        (net.map fun net => [Cond.src true net, Cond.dst true net]).getD [], .snat primary) := by
  cases net <;> cases randomFully <;>
    simp [masqueradeArgs, readRule, readSource, IpNet.parse_toText, IpAddr.parse_toText]

theorem readRule_jump : readRule hairpinJumpArgs = some ([.original], .jump hairpinChain) := rfl

section Rules

variable {other : Args → Option Fate} {pkt : Packet} {chain : String → Option Fate}

theorem ruleFate_none (h : pkt.ipvs = none) {a : Args} {conds : List Cond} {target : Target}
    (hread : readRule a = some (conds, target))
    (hipvs : conds.any fun c => c == .ipvs || c == .original || c matches .vaddr _) :
    ruleFate other pkt chain a = none := by
  obtain ⟨c, hc, hkind⟩ := List.any_eq_true.mp hipvs
  have hfalse : c.holds pkt = false := by
    cases c <;> simp [Cond.holds, h] at hkind ⊢
  have hall : conds.all (Cond.holds pkt) = false := List.all_eq_false.mpr ⟨c, hc, by simp [hfalse]⟩
  simp [ruleFate, hread, hall]

variable {conn : IpvsConn} (hconn : pkt.ipvs = some conn)

include hconn

theorem ruleFate_hairpin (ep vip : IpAddr) (port : UInt16) :
    ruleFate other pkt chain (hairpinSnatArgs ep vip port) =
      if pkt.src = ep ∧ pkt.dst = ep ∧ conn.vaddr = vip ∧ conn.vport = port then some (.snat vip)
      else none := by
  simp [ruleFate, readRule_hairpin, Cond.holds, host_contains, hconn]

theorem ruleFate_jump : ruleFate other pkt chain hairpinJumpArgs =
    if conn.original then chain hairpinChain else none := by
  simp [ruleFate, readRule_jump, Cond.holds, hconn]

theorem ruleFate_masquerade (primary : IpAddr) (net : Option IpNet) (randomFully : Bool) :
    ruleFate other pkt chain (masqueradeArgs primary (net.map (·.toText)) randomFully) =
      if (conn.original && conn.masq &&
          net.all fun net => !net.contains pkt.src && !net.contains pkt.dst) = true then
        some (.snat primary)
      else none := by
  unfold ruleFate
  rw [readRule_masquerade]
  cases net <;> simp [Cond.holds, hconn, and_assoc]

omit hconn in
theorem comesBack_iff {services : Snapshot} {global ipv6 : Bool} :
    comesBack services global ipv6 pkt conn = true ↔ conn.original = true ∧ pkt.src = pkt.dst ∧
      Hairpins services global ipv6 pkt.src conn.vaddr conn.vport := by
  simp only [comesBack, Hairpins, Bool.and_eq_true, beq_iff_eq, List.any_eq_true,
    List.contains_iff_mem, and_assoc]

/-- The hairpin chain gives a packet that comes back the address of the service. -/
theorem hairpinChain_fate {services : Snapshot} {global ipv6 : Bool} {t : Chains} (n : Nat)
    (hchain : t hairpinChain = some (hairpinRulesForFamily services global ipv6))
    (horiginal : conn.original = true) :
    chainFate other pkt t (n + 1) hairpinChain =
      if comesBack services global ipv6 pkt conn then some (.snat conn.vaddr) else none := by
  have hrule : ∀ a ∈ hairpinRulesForFamily services global ipv6, ∀ f,
      ruleFate other pkt (chainFate other pkt t n) a = some f → f = .snat conn.vaddr ∧
        comesBack services global ipv6 pkt conn = true := by
    intro a ha f hf
    obtain ⟨ep, vip, port, hwanted, rfl⟩ := mem_hairpinRulesForFamily.mp ha
    rw [ruleFate_hairpin hconn] at hf
    split at hf
    · next hfires =>
      obtain ⟨hsrc, hdst, hvip, hport⟩ := hfires
      refine ⟨by rw [hvip]; exact (Option.some.inj hf).symm, comesBack_iff.mpr ⟨horiginal, ?_, ?_⟩⟩
      · rw [hsrc, hdst]
      · rw [hsrc, hvip, hport]
        exact hwanted
    · cases hf
  show ((t hairpinChain).getD []).findSome? _ = _
  rw [hchain, Option.getD_some]
  by_cases hback : comesBack services global ipv6 pkt conn = true
  · rw [if_pos hback]
    refine Collect.findSome?_agree (fun a ha f hf => (hrule a ha f hf).1) ?_
    obtain ⟨_, hself, hwanted⟩ := comesBack_iff.mp hback
    refine ⟨hairpinSnatArgs pkt.src conn.vaddr conn.vport,
      mem_hairpinRulesForFamily.mpr ⟨_, _, _, hwanted, rfl⟩, ?_⟩
    rw [ruleFate_hairpin hconn, if_pos ⟨rfl, hself.symm, rfl, rfl⟩]
    simp
  · rw [if_neg hback, List.findSome?_eq_none_iff]
    intro a ha
    cases hf : ruleFate other pkt (chainFate other pkt t n) a with
    | none => rfl
    | some f => exact absurd (hrule a ha f hf).2 hback

end Rules

/-! ### The settings of the service proxy -/

section Settings

variable {o : Settings}

theorem contains_colon (net : IpNet) : net.toText.toList.contains ':' = net.addr.isIpv6 := by
  rw [IpNet.toList_toText, Bool.eq_iff_iff, List.contains_iff_mem, List.mem_append]
  have hlen : ':' ∉ '/' :: Nat.toDigits 10 net.prefixLen := by
    rw [List.mem_cons]
    rintro (h | h)
    · revert h
      decide
    · exact IpAddr.not_mem_toDigits (by decide) h
  cases haddr : net.addr with
  | V4 a =>
    simpa [IpAddr.toText, IpAddr.isIpv6, IpAddr.family, hlen] using IpAddr.colon_not_mem_v4Text a
  | V6 a =>
    simpa [IpAddr.toText, IpAddr.isIpv6, IpAddr.family, hlen] using IpAddr.colon_mem_v6Text a

/-- The masquerade rules that the service proxy wants, by the network they spare. -/
theorem mem_wantedRules {ipv6 : Bool} {a : Args} :
    a ∈ wantedRules o.cfg ipv6 ↔ ∃ primary, o.primaryOf ipv6 = some primary ∧
      ∃ net : Option IpNet, net.elim (o.masqueradeAll = true) (· ∈ o.podCidrsOf ipv6) ∧
        a = masqueradeArgs primary (net.map (·.toText)) true := by
  have hcidrs : (o.podCidrs.map (·.toText)).filter (fun c => c.toList.contains ':' == ipv6) =
      (o.podCidrsOf ipv6).map (·.toText) := by
    simp only [Settings.podCidrsOf, List.filter_map, Function.comp_def, contains_colon]
  have hof : masqueradeOf o.cfg ipv6 = (o.primaryOf ipv6).map fun primary =>
      (⟨o.masqueradeAll, true, (o.primaryIp.map fun ip => (ip.isIpv6, ip)).toList,
        o.podCidrs.map (·.toText)⟩, primary) := by
    cases hp : o.primaryIp with
    | none => simp [masqueradeOf, Settings.cfg, MasqueradeCfg.primaryOf, Settings.primaryOf, hp]
    | some primary =>
      by_cases hfamily : primary.isIpv6 = ipv6 <;>
        simp [masqueradeOf, Settings.cfg, MasqueradeCfg.primaryOf, Settings.primaryOf, hp, hfamily]
  rw [wantedRules, hof]
  cases o.primaryOf ipv6 with
  | none => simp
  | some primary =>
    simp only [Option.map_some, cidrRules, MasqueradeCfg.cidrsOf, hcidrs, List.map_map,
      List.mem_append, List.mem_map, allRule, Function.comp_apply]
    constructor
    · rintro (h | ⟨net, hnet, rfl⟩)
      · cases hall : o.masqueradeAll with
        | true =>
          rw [hall, if_pos rfl] at h
          exact ⟨primary, rfl, none, rfl, List.mem_singleton.mp h⟩
        | false => simp [hall] at h
      · exact ⟨primary, rfl, some net, hnet, rfl⟩
    · rintro ⟨p, hp, net, hnet, rfl⟩
      obtain rfl := Option.some.inj hp
      cases net with
      | none =>
        have hall : o.masqueradeAll = true := hnet
        rw [hall, if_pos rfl]
        exact .inl (List.mem_singleton.mpr rfl)
      | some net => exact .inr ⟨net, hnet, rfl⟩

section Fires

variable {ipv6 : Bool} {other : Args → Option Fate} {pkt : Packet} {conn : IpvsConn}
  {chain : String → Option Fate} (hconn : pkt.ipvs = some conn)

include hconn

/-- A masquerade rule fires only for what has to come back through this node. -/
theorem wanted_fires {a : Args} (ha : a ∈ wantedRules o.cfg ipv6) {f : Fate}
    (hf : ruleFate other pkt chain a = some f) :
    ∃ primary, o.primaryOf ipv6 = some primary ∧ f = .snat primary ∧
      needsReturn o.masqueradeAll (o.podCidrsOf ipv6) pkt conn = true := by
  obtain ⟨primary, hprimary, net, hnet, rfl⟩ := mem_wantedRules.mp ha
  rw [ruleFate_masquerade hconn] at hf
  split at hf
  · next hfires =>
    refine ⟨primary, hprimary, (Option.some.inj hf).symm, ?_⟩
    simp only [Bool.and_eq_true] at hfires
    obtain ⟨⟨horiginal, hmasq⟩, hspared⟩ := hfires
    simp only [needsReturn, horiginal, hmasq, Bool.and_self, Bool.true_and, Bool.or_eq_true]
    cases net with
    | none => exact .inl hnet
    | some net => exact .inr (List.any_eq_true.mpr ⟨net, hnet, by simpa using hspared⟩)
  · cases hf

/-- For that one of them does. -/
theorem wanted_hits {primary : IpAddr} (hprimary : o.primaryOf ipv6 = some primary)
    (hreturn : needsReturn o.masqueradeAll (o.podCidrsOf ipv6) pkt conn = true) :
    ∃ a ∈ wantedRules o.cfg ipv6, ruleFate other pkt chain a = some (.snat primary) := by
  simp only [needsReturn, Bool.and_eq_true, Bool.or_eq_true, List.any_eq_true] at hreturn
  obtain ⟨⟨horiginal, hmasq⟩, hall | ⟨net, hnet, hspared⟩⟩ := hreturn
  · refine ⟨_, mem_wantedRules.mpr ⟨primary, hprimary, none, hall, rfl⟩, ?_⟩
    rw [ruleFate_masquerade hconn]
    simp [horiginal, hmasq]
  · refine ⟨_, mem_wantedRules.mpr ⟨primary, hprimary, some net, hnet, rfl⟩, ?_⟩
    rw [ruleFate_masquerade hconn, if_pos]
    simpa [horiginal, hmasq] using hspared

end Fires

/-- POSTROUTING of a family that is settled, for a packet that no rule of somebody else is for. -/
theorem settled_fate {services : Snapshot} {ipv6 : Bool} {t : Chains} {other : Args → Option Fate}
    {pkt : Packet} (n : Nat) (h : Settled o.cfg services ipv6 t)
    (hothers : ∀ a ∈ postrouting t, a ∉ ownRules o.cfg ipv6 →
      ruleFate other pkt (chainFate other pkt t (n + 1)) a = none) :
    chainFate other pkt t (n + 2) "POSTROUTING" = snatOf o services ipv6 pkt := by
  obtain ⟨rest, hrest⟩ := h.first
  have hchain : t hairpinChain = some (hairpinRulesForFamily services o.hairpinMode ipv6) := h.chain
  have hown : chainFate other pkt t (n + 2) "POSTROUTING" =
      (hairpinJumpArgs :: rest).findSome? (ruleFate other pkt (chainFate other pkt t (n + 1))) := by
    rw [← hrest, own, Collect.findSome?_filter]
    · rfl
    · intro a ha hnot
      exact hothers a ha (by simpa using hnot)
  have hmem : ∀ a ∈ rest, a = hairpinJumpArgs ∨ a ∈ wantedRules o.cfg ipv6 :=
    fun a ha => (h.mem a).mp (hrest ▸ List.mem_cons_of_mem _ ha)
  rw [hown, snatOf]
  cases hconn : pkt.ipvs with
  | none =>
    -- every rule asks for a connection
    rw [Option.bind_none, List.findSome?_eq_none_iff]
    have hjump : ruleFate other pkt (chainFate other pkt t (n + 1)) hairpinJumpArgs = none :=
      ruleFate_none hconn readRule_jump rfl
    intro a ha
    obtain rfl | ha := List.mem_cons.mp ha
    · exact hjump
    obtain rfl | ha := hmem a ha
    · exact hjump
    obtain ⟨primary, _, net, _, rfl⟩ := mem_wantedRules.mp ha
    exact ruleFate_none hconn (readRule_masquerade primary net true) rfl
  | some conn =>
    rw [Option.bind_some, List.findSome?_cons, ruleFate_jump hconn]
    by_cases hback : comesBack services o.hairpinMode ipv6 pkt conn = true
    · have horiginal := (comesBack_iff.mp hback).1
      rw [if_pos horiginal, hairpinChain_fate hconn n hchain horiginal, if_pos hback, if_pos hback]
    · have hjump : (if conn.original then chainFate other pkt t (n + 1) hairpinChain else none) =
          none := by
        by_cases horiginal : conn.original = true
        · rw [if_pos horiginal, hairpinChain_fate hconn n hchain horiginal, if_neg hback]
        · rw [if_neg horiginal]
      have hfires : ∀ a ∈ rest, ∀ f,
          ruleFate other pkt (chainFate other pkt t (n + 1)) a = some f →
          ∃ primary, o.primaryOf ipv6 = some primary ∧ f = .snat primary ∧
            needsReturn o.masqueradeAll (o.podCidrsOf ipv6) pkt conn = true := by
        intro a ha f hf
        obtain rfl | ha := hmem a ha
        · rw [ruleFate_jump hconn, hjump] at hf
          cases hf
        · exact wanted_fires hconn ha hf
      rw [hjump, if_neg hback]
      show rest.findSome? _ = _
      -- the rules that fire all name the address of the node
      by_cases hhit : ∃ primary, o.primaryOf ipv6 = some primary ∧
          needsReturn o.masqueradeAll (o.podCidrsOf ipv6) pkt conn = true
      · obtain ⟨primary, hprimary, hreturn⟩ := hhit
        rw [hprimary, Option.bind_some, if_pos hreturn]
        refine Collect.findSome?_agree (fun a ha f hf => ?_) ?_
        · obtain ⟨p, hp, rfl, _⟩ := hfires a ha f hf
          rw [Option.some.inj (hprimary.symm.trans hp)]
        · obtain ⟨a, ha, hf⟩ : ∃ a ∈ wantedRules o.cfg ipv6,
              ruleFate other pkt (chainFate other pkt t (n + 1)) a = some (.snat primary) :=
            wanted_hits hconn hprimary hreturn
          have hin : a ∈ hairpinJumpArgs :: rest := hrest ▸ (h.mem a).mpr (.inr ha)
          refine ⟨a, (List.mem_cons.mp hin).resolve_left (ne_jump_of_wanted ha), ?_⟩
          rw [hf]
          simp
      · have hnone :
            rest.findSome? (ruleFate other pkt (chainFate other pkt t (n + 1))) = none := by
          rw [List.findSome?_eq_none_iff]
          intro a ha
          cases hf : ruleFate other pkt (chainFate other pkt t (n + 1)) a with
          | none => rfl
          | some f =>
            obtain ⟨p, hp, _, hreturn⟩ := hfires a ha f hf
            exact absurd ⟨p, hp, hreturn⟩ hhit
        rw [hnone]
        cases hp : o.primaryOf ipv6 with
        | none => rfl
        | some primary =>
          have hnot : ¬needsReturn o.masqueradeAll (o.podCidrsOf ipv6) pkt conn = true :=
            fun hreturn => hhit ⟨primary, hp, hreturn⟩
          rw [Option.bind_some, if_neg hnot]

end Settings

/-- Tables without a rule of the passes are in order. -/
theorem orderly_of_none {cfg : NatCfg} {ipv6 : Bool} {t : Chains} {post : List Args}
    (hpost : t "POSTROUTING" = some post) (h : ∀ a ∈ ownRules cfg ipv6, a ∉ post) :
    Orderly cfg ipv6 t := by
  have hrules : postrouting t = post := congrArg (Option.getD · []) hpost
  refine ⟨hpost ▸ rfl, .inl ?_, fun a ha => ?_⟩
  · rw [own, hrules, List.filter_eq_nil_iff]
    intro a ha hown
    exact h a (of_decide_eq_true hown) ha
  · rw [hrules, List.count_eq_zero_of_not_mem (h a (mem_ownRules_unwanted ha))]
    exact Nat.zero_le 1

/-- After any run in which somebody else leaves the rules of the passes alone, a pass in which no
command fails succeeds, and from then on POSTROUTING does what it should with every packet that
the rules of somebody else let through to the end. -/
theorem snat_exact (o : Settings) {s s' : Tables} {steps : List Step} {last : Pass}
    (hstart : ∀ ipv6, Orderly o.cfg ipv6 (s ipv6))
    (hothers : System.Meets (step o.cfg) (LeavesOwn o.cfg) s steps)
    (hrun : System.run (step o.cfg) s steps = some s') (hclean : ∀ n, last.exits n = .normal) :
    (passResult o.cfg s' last).1 = .ok ⟨⟩ ∧
    ∀ ipv6 ∈ o.cfg.families, ∀ (other : Args → Option Fate) (pkt : Packet) (n : Nat),
      (∀ a ∈ postrouting (afterPass o.cfg s' last ipv6), a ∉ ownRules o.cfg ipv6 →
        ruleFate other pkt (chainFate other pkt (afterPass o.cfg s' last ipv6) (n + 1)) a = none) →
      chainFate other pkt (afterPass o.cfg s' last ipv6) (n + 2) "POSTROUTING" =
        snatOf o last.services ipv6 pkt := by
  have hcidrs : ∀ m ∈ o.cfg.masquerade, ∀ c ∈ m.podCidrs, c ≠ "-j" := by
    intro m hm c hc
    obtain rfl := Option.some.inj hm
    obtain ⟨net, _, rfl⟩ := List.mem_map.mp hc
    exact netText_ne_j net
  obtain ⟨hok, hsettled⟩ := settled_pass (orderly_run hstart hothers hrun) hclean hcidrs
  exact ⟨hok, fun ipv6 hipv6 other pkt n h => settled_fate n (hsettled ipv6 hipv6) h⟩

section Pod

theorem podCidr_bits : 24 ≤ (IpAddr.ofOctets 10 244 0 0).bits := by decide

/-- A node with masquerading for what leaves its pods. -/
def node : Settings where
  enableIpv4 := true
  enableIpv6 := false
  hairpinMode := false
  masqueradeAll := false
  primaryIp := some (.ofOctets 192 168 1 10)
  podCidrs := [⟨.ofOctets 10 244 0 0, 24, podCidr_bits⟩]

/-- A service that asks for hairpin rules, with an endpoint on the node. -/
def web : Snapshot :=
  [({ ns := "default", name := "web", protocol := .Tcp, port := 80, nodePort := none,
      clusterIps := [.ofOctets 10 96 0 10], externalIps := [], loadBalancerIps := [],
      scheduler := .Rr, schedFlags := {}, sessionAffinity := false, affinityTimeout := 0,
      dsr := false, internalTrafficLocal := false, externalTrafficLocal := false,
      hairpin := true, hairpinExternalIps := false },
    [{ ip := .ofOctets 10 244 0 5, port := 8080, isLocal := true, ready := true }])]

/-- Somebody else's rule in a table without rules of the passes. -/
def fresh : Tables := fun _ =>
  Function.update (fun _ => none) "POSTROUTING" (some [["-s", "172.17.0.0/16", "-j", "MASQUERADE"]])

/-- A pass whose third command is lost, and one that goes through. -/
def interrupted : Pass := ⟨web, fun n => if n = 2 then .lost true "killed" else .normal⟩

def whole : Pass := ⟨web, fun _ => .normal⟩

def fromPod (dst : IpAddr) : Packet where
  src := .ofOctets 10 244 0 5
  dst := dst
  ipvs := some { vaddr := .ofOctets 10 96 0 10, vport := 80, original := true, masq := true }

theorem snat_exact_pod :
    (passResult node.cfg (afterPass node.cfg fresh interrupted) whole).1 = .ok ⟨⟩ ∧
    chainFate (fun _ => none) (fromPod (.ofOctets 10 244 0 5))
      (afterPass node.cfg (afterPass node.cfg fresh interrupted) whole false) 2 "POSTROUTING" =
      some (.snat (.ofOctets 10 96 0 10)) := by
  have hstart : ∀ ipv6, Orderly node.cfg ipv6 (fresh ipv6) := fun ipv6 =>
    orderly_of_none (Function.update_self ..) (by cases ipv6 <;> decide)
  have hothers : System.Meets (step node.cfg) (LeavesOwn node.cfg) fresh [.pass interrupted] :=
    System.meets_cons.mpr ⟨trivial, fun _ _ before a t hpre _ => by simp at hpre⟩
  have hclean : ∀ n, whole.exits n = .normal := fun _ => rfl
  obtain ⟨hok, hfate⟩ := snat_exact node hstart hothers rfl hclean
  refine ⟨hok, (hfate false (by decide) _ _ 0 fun a ha hown => ?_).trans (by decide)⟩
  -- the other rule is still the one from the start
  have hframe : Frame node.cfg false (fresh false)
      (afterPass node.cfg (afterPass node.cfg fresh interrupted) whole false) :=
    Frame.trans _ _ _ (afterPass_each node.cfg (syncNat_frame _ node.cfg _) fresh false)
      (afterPass_each node.cfg (syncNat_frame _ node.cfg _) _ false)
  have hforeign := hframe.foreign
  unfold postrouting at ha
  cases hpost : afterPass node.cfg (afterPass node.cfg fresh interrupted) whole false
      "POSTROUTING" with
  | none => simp [hpost] at ha
  | some post =>
    rw [hpost, Option.getD_some] at ha
    rw [hpost] at hforeign
    have hmem : a ∈ post.filter (· ∉ ownRules node.cfg false) :=
      List.mem_filter.mpr ⟨ha, by simpa using hown⟩
    rw [Option.some.inj hforeign] at hmem
    obtain rfl := List.mem_singleton.mp (List.mem_of_mem_filter hmem)
    rfl

end Pod

end KubeRouter.Proxy.Nat
