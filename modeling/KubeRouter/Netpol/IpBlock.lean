/-
  ipBlock peers in one hash:net set (`resolve_peers` of `netpol/src/translate.rs`).

  All blocks of a rule share one set: a CIDR is an entry, each of its exceptions a `nomatch`
  entry behind it. A lookup is decided by the longest stored net that contains the address, the
  last one added among equal nets, so an exception of one block also cuts addresses out of every
  wider block of the rule.

  Entries are kept in the order they were added. Read as a map from nets to flags (`netFlag`),
  a repeated net has the flag of its last occurrence, and a lookup depends on this map only
  (`hashNet_mem_congr`).

  Proved:
  * `decidingNet_longest`, `decidingNet_exists`: the entry that decides a lookup.
  * `hashNet_open_iff`: what a set with `nomatch` entries matches.
  * `ipBlocks_union_iff`: the set matches an address exactly as the union of the blocks does if
    and only if the address is admitted by no block, or every exception that contains it is
    outranked by a CIDR that does.
  * `exception_cuts_other_block`: an exception of one block cuts an address out of another.
-/
import KubeRouter.Netpol.Reference

namespace KubeRouter.Netpol

/-! ## The entry that decides -/

section Deciding

variable {nets : List (IpNet × Bool)} {x : IpAddr} {e : IpNet × Bool}

theorem decidingNet_append_singleton (nets : List (IpNet × Bool)) (a : IpNet × Bool) (x : IpAddr) :
    decidingNet (nets ++ [a]) x =
      if a.1.contains x && (decidingNet nets x).all (·.1.prefixLen ≤ a.1.prefixLen) then some a
      else decidingNet nets x := by
  simp [decidingNet]

/-- Some entry decides as soon as one contains the address. -/
theorem decidingNet_exists {a : IpNet × Bool} (ha : a ∈ nets) (hx : a.1.contains x = true) :
    ∃ e, decidingNet nets x = some e := by
  induction nets using List.reverseRecOn with
  | nil => cases ha
  | append_singleton nets b ih =>
    rw [decidingNet_append_singleton]
    split
    · exact ⟨b, rfl⟩
    · next hb =>
      rcases List.mem_append.mp ha with ha | ha
      · exact ih ha
      · rw [List.mem_singleton.mp ha] at hx
        cases hd : decidingNet nets x with
        | none => simp [hx, hd] at hb
        | some d => exact ⟨d, rfl⟩

/-- No stored net that contains the address is longer than the one that decides. -/
theorem decidingNet_longest (h : decidingNet nets x = some e) {a : IpNet × Bool} (ha : a ∈ nets)
    (hx : a.1.contains x = true) : a.1.prefixLen ≤ e.1.prefixLen := by
  induction nets using List.reverseRecOn generalizing e with
  | nil => cases ha
  | append_singleton nets b ih =>
    rw [decidingNet_append_singleton] at h
    split at h
    · next hb =>
      obtain rfl : b = e := Option.some.inj h
      rcases List.mem_append.mp ha with ha | ha
      · obtain ⟨d, hd⟩ := decidingNet_exists ha hx
        have hle := ih hd ha
        rw [hd, Bool.and_eq_true, Option.all_some, decide_eq_true_eq] at hb
        omega
      · rw [List.mem_singleton.mp ha]
    · next hb =>
      rcases List.mem_append.mp ha with ha | ha
      · exact ih h ha
      · rw [List.mem_singleton.mp ha] at hx ⊢
        rw [h, hx, Bool.true_and, Option.all_some, decide_eq_true_eq] at hb
        omega

/-- A lookup succeeds by a net no `nomatch` entry outranks: each one that contains the address is
    shorter, or as long and in front. -/
theorem hashNet_open_iff : (SetBody.hashNet nets).mem x = true ↔
    ∃ pre net post, nets = pre ++ (net, false) :: post ∧ net.contains x = true ∧
      (∀ e, (e, true) ∈ pre → e.contains x = true → e.prefixLen ≤ net.prefixLen) ∧
      ∀ e, (e, true) ∈ post → e.contains x = true → e.prefixLen < net.prefixLen := by
  simp only [SetBody.mem, Option.any_eq_true]
  constructor
  · rintro ⟨⟨net, flag⟩, hd, hflag⟩
    obtain rfl : flag = false := by simpa using hflag
    obtain ⟨hx, pre, post, hsplit, hpost⟩ := decidingNet_some hd
    refine ⟨pre, net, post, hsplit, hx, fun e he hc => ?_, fun e he hc => hpost _ he hc⟩
    exact decidingNet_longest hd (a := (e, true)) (by rw [hsplit]; simp [he]) hc
  · rintro ⟨pre, net, post, rfl, hx, hpre, hpost⟩
    obtain ⟨⟨e, flag⟩, hd⟩ := decidingNet_exists
      (show (net, false) ∈ pre ++ (net, false) :: post by simp) hx
    refine ⟨_, hd, ?_⟩
    cases flag with
    | false => rfl
    | true =>
      -- A `nomatch` entry that decides would stand in front of the net and be longer.
      exfalso
      obtain ⟨hc, pre', post', hsplit, hlater⟩ := decidingNet_some hd
      rcases List.append_eq_append_iff.mp hsplit with ⟨as, has, hrest⟩ | ⟨bs, hbs, hrest⟩
      · cases as with
        | nil => simp at hrest
        | cons a as =>
          rw [List.cons_append, List.cons.injEq] at hrest
          have hlt := hpost e (by rw [hrest.2]; simp) hc
          have hle := decidingNet_longest hd (a := (net, false)) (by simp) hx
          simp only at hle
          omega
      · cases bs with
        | nil => simp at hrest
        | cons b bs =>
          rw [List.cons_append, List.cons.injEq] at hrest
          have hle := hpre e (by rw [hbs, ← hrest.1]; simp) hc
          have hlt := hlater (net, false) (by rw [hrest.2]; simp) hx
          simp only at hlt
          omega

end Deciding

/-! ## A set of nets as a map -/

theorem shiftRight_eq_iff {w : Nat} (a b : BitVec w) (k : Nat) :
    a >>> k <<< k = b >>> k <<< k ↔ a >>> k = b >>> k := by
  constructor
  · intro h
    rw [← IpNet.shiftRight_shiftLeft_shiftRight a, h, IpNet.shiftRight_shiftLeft_shiftRight]
  · intro h
    rw [h]

/-- The same stored net: `hash:net` clears the host bits. -/
def sameNet (n m : IpNet) : Bool := n.prefixLen == m.prefixLen && n.network == m.network

/-- Two nets of one length that share an address are one net. -/
theorem sameNet_of_contains {n m : IpNet} {x : IpAddr} (hn : n.contains x = true)
    (hm : m.contains x = true) (hlen : n.prefixLen = m.prefixLen) : sameNet n m = true := by
  have hnet : n.network = m.network := by
    unfold IpNet.contains at hn hm
    unfold IpNet.network
    rw [← hlen] at hm ⊢
    cases hna : n.addr with
    | V4 a =>
      cases hma : m.addr with
      | V4 b =>
        cases x with
        | V4 c =>
          rw [hna, beq_iff_eq] at hn
          rw [hma, beq_iff_eq] at hm
          rw [IpAddr.V4.injEq, shiftRight_eq_iff, hn, hm]
        | V6 c => simp [hna] at hn
      | V6 b =>
        cases x with
        | V4 c => simp [hma] at hm
        | V6 c => simp [hna] at hn
    | V6 a =>
      cases hma : m.addr with
      | V4 b =>
        cases x with
        | V4 c => simp [hna] at hn
        | V6 c => simp [hma] at hm
      | V6 b =>
        cases x with
        | V4 c => simp [hna] at hn
        | V6 c =>
          rw [hna, beq_iff_eq] at hn
          rw [hma, beq_iff_eq] at hm
          rw [IpAddr.V6.injEq, shiftRight_eq_iff, hn, hm]
  simp [sameNet, hlen, hnet]

theorem contains_congr {n m : IpNet} (h : sameNet n m = true) (x : IpAddr) :
    n.contains x = m.contains x := by
  unfold sameNet at h
  rw [Bool.and_eq_true, beq_iff_eq, beq_iff_eq] at h
  obtain ⟨hlen, hnet⟩ := h
  unfold IpNet.network at hnet
  unfold IpNet.contains
  rw [hlen] at hnet ⊢
  cases hna : n.addr with
  | V4 a =>
    cases hma : m.addr with
    | V4 b =>
      rw [hna, hma, IpAddr.V4.injEq, shiftRight_eq_iff] at hnet
      cases x with
      | V4 c => simp only [hnet]
      | V6 c => rfl
    | V6 b => simp [hna, hma] at hnet
  | V6 a =>
    cases hma : m.addr with
    | V4 b => simp [hna, hma] at hnet
    | V6 b =>
      rw [hna, hma, IpAddr.V6.injEq, shiftRight_eq_iff] at hnet
      cases x with
      | V4 c => rfl
      | V6 c => simp only [hnet]

/-- The flag a net is stored with: that of its last occurrence. -/
def netFlag (nets : List (IpNet × Bool)) (n : IpNet) : Option Bool :=
  (nets.reverse.find? fun e => sameNet e.1 n).map (·.2)

theorem sameNet_iff {n m : IpNet} :
    sameNet n m = true ↔ n.prefixLen = m.prefixLen ∧ n.network = m.network := by
  simp [sameNet]

theorem netFlag_congr (nets : List (IpNet × Bool)) {n m : IpNet} (h : sameNet n m = true) :
    netFlag nets n = netFlag nets m := by
  obtain ⟨hlen, hnet⟩ := sameNet_iff.mp h
  unfold netFlag sameNet
  rw [hlen, hnet]

/-- The deciding entry is stored with its own flag. -/
theorem decidingNet_flag {nets : List (IpNet × Bool)} {x : IpAddr} {e : IpNet × Bool}
    (h : decidingNet nets x = some e) : netFlag nets e.1 = some e.2 := by
  obtain ⟨hx, pre, post, rfl, hpost⟩ := decidingNet_some h
  have hnone : post.reverse.find? (fun a => sameNet a.1 e.1) = none := by
    rw [List.find?_eq_none]
    intro a ha hsame
    have hlt := hpost a (List.mem_reverse.mp ha) ((contains_congr hsame x).trans hx)
    exact absurd (sameNet_iff.mp hsame).1 (Nat.ne_of_lt hlt)
  have hself : sameNet e.1 e.1 = true := sameNet_iff.mpr ⟨rfl, rfl⟩
  unfold netFlag
  rw [List.reverse_append, List.reverse_cons, List.append_assoc, List.find?_append, hnone,
    Option.none_or, List.singleton_append, List.find?_cons, hself]
  rfl

theorem exists_of_netFlag {nets : List (IpNet × Bool)} {n : IpNet} {b : Bool}
    (h : netFlag nets n = some b) : ∃ a ∈ nets, sameNet a.1 n = true := by
  unfold netFlag at h
  obtain ⟨a, ha, -⟩ := Option.map_eq_some_iff.mp h
  exact ⟨a, List.mem_reverse.mp (List.mem_of_find?_eq_some ha), by simpa using List.find?_some ha⟩

/-- A set that stores the nets of another one decides alike. -/
theorem decidingNet_follows {l l' : List (IpNet × Bool)} (h : ∀ n, netFlag l n = netFlag l' n)
    {x : IpAddr} {e : IpNet × Bool} (he : decidingNet l x = some e) :
    ∃ d, decidingNet l' x = some d ∧ e.1.prefixLen ≤ d.1.prefixLen := by
  obtain ⟨a, ha, hsame⟩ := exists_of_netFlag ((h e.1).symm.trans (decidingNet_flag he))
  have hx : a.1.contains x = true := (contains_congr hsame x).trans (decidingNet_some he).1
  obtain ⟨d, hd⟩ := decidingNet_exists ha hx
  exact ⟨d, hd, (sameNet_iff.mp hsame).1 ▸ decidingNet_longest hd ha hx⟩

/-- A lookup reads the map only. -/
theorem hashNet_mem_congr {l l' : List (IpNet × Bool)} (h : ∀ n, netFlag l n = netFlag l' n)
    (x : IpAddr) : (SetBody.hashNet l).mem x = (SetBody.hashNet l').mem x := by
  simp only [SetBody.mem]
  cases he : decidingNet l x with
  | none =>
    cases hd : decidingNet l' x with
    | none => rfl
    | some d =>
      obtain ⟨e, he', -⟩ := decidingNet_follows (fun n => (h n).symm) hd
      rw [he] at he'
      cases he'
  | some e =>
    obtain ⟨d, hd, hle⟩ := decidingNet_follows h he
    obtain ⟨e', he', hge⟩ := decidingNet_follows (fun n => (h n).symm) hd
    rw [he, Option.some_inj] at he'
    subst he'
    -- both nets contain the address and have one length, so they are one net with one flag
    have hsame : sameNet d.1 e.1 = true :=
      sameNet_of_contains (decidingNet_some hd).1 (decidingNet_some he).1 (Nat.le_antisymm hge hle)
    have hflag : some d.2 = some e.2 := by
      rw [← decidingNet_flag hd, ← h, netFlag_congr l hsame, decidingNet_flag he]
    rw [hd, Option.any_some, Option.any_some, Option.some_inj.mp hflag]

/-! ## Blocks of one rule -/

/-- A CIDR with its exceptions. -/
abbrev Block := IpNet × List IpNet

/-- The block admits the address. -/
def InBlock (b : Block) (x : IpAddr) : Prop :=
  b.1.contains x = true ∧ ∀ e ∈ b.2, e.contains x = false

instance (b : Block) (x : IpAddr) : Decidable (InBlock b x) :=
  inferInstanceAs (Decidable (_ ∧ _))

/-- The exception lies inside the CIDR. -/
def Inside (e cidr : IpNet) : Prop := cidr.contains e.addr = true ∧ cidr.prefixLen ≤ e.prefixLen

instance (e cidr : IpNet) : Decidable (Inside e cidr) := inferInstanceAs (Decidable (_ ∧ _))

def blockPeers (blocks : List Block) : List Peer := blocks.map fun b => .ipBlock b.1 b.2

/-- The hash:net set of a rule whose peers are the blocks. -/
def blockSet (blocks : List Block) (pods : List Pod) (namespaces : List Namespace) (ns : String)
    (family : IpFamily) : SetBody :=
  .hashNet (resolvePeers (blockPeers blocks) pods namespaces ns family).netEntries

/-- Some CIDR that contains the address is longer than the exception `e` of block `i`, or as
long and of a later block. -/
def Outranked (blocks : List Block) (x : IpAddr) (i : Nat) (e : IpNet) : Prop :=
  ∃ k b, blocks[k]? = some b ∧ b.1.contains x = true ∧
    (e.prefixLen < b.1.prefixLen ∨ e.prefixLen = b.1.prefixLen ∧ i < k)

/-- No exception has the last word on an address that some block admits. -/
def ExceptionsOutranked (blocks : List Block) (x : IpAddr) : Prop :=
  (∃ b ∈ blocks, InBlock b x) →
    ∀ i b, blocks[i]? = some b → ∀ e ∈ b.2, e.contains x = true → Outranked blocks x i e

section Union

variable {blocks : List Block} {family : IpFamily} {x : IpAddr}

/-- The entries of a block. -/
def blockEntries (family : IpFamily) (b : Block) : List (IpNet × Bool) :=
  (Peer.ipBlock b.1 b.2).netEntries family

theorem blockSet_eq (blocks : List Block) (pods : List Pod) (namespaces : List Namespace)
    (ns : String) (family : IpFamily) :
    blockSet blocks pods namespaces ns family =
      .hashNet (blocks.flatMap (blockEntries family)) := by
  unfold blockSet resolvePeers blockPeers
  cases blocks with
  | nil => rfl
  | cons b blocks =>
    rw [if_neg (by simp)]
    simp only [List.flatMap_map]
    rfl

theorem mem_blockEntries {b : Block} {e : IpNet} {excluded : Bool} :
    (e, excluded) ∈ blockEntries family b ↔ b.1.family = family ∧
      (excluded = false ∧ e = b.1 ∨ excluded = true ∧ e ∈ b.2) := by
  unfold blockEntries
  simp only [Peer.netEntries, beq_iff_eq]
  split
  · next hf =>
    cases excluded <;> simp [hf]
  · next hf =>
    simp [hf]

/-- What the set matches, some block admits. -/
theorem union_of_blockSet (hinside : ∀ b ∈ blocks, ∀ e ∈ b.2, Inside e b.1)
    (h : (SetBody.hashNet (blocks.flatMap (blockEntries family))).mem x = true) :
    ∃ b ∈ blocks, InBlock b x := by
  have hpeers : blocks.flatMap (blockEntries family) =
      (blockPeers blocks).flatMap (·.netEntries family) := by
    rw [blockPeers, List.flatMap_map]
    rfl
  rw [hpeers] at h
  have hany : ∃ peer ∈ blockPeers blocks, peer.Admits {} "" x := hashNet_admits h
  obtain ⟨peer, hp, hadmits⟩ := hany
  obtain ⟨b, hb, rfl⟩ := List.mem_map.mp hp
  obtain ⟨hx, hex⟩ := hadmits
  exact ⟨b, hb, hx, fun e he => hex e he (hinside b hb e he).2⟩

/-- A block's CIDR is stored when it contains an address of the family. -/
theorem cidr_stored {b : Block} (hb : b ∈ blocks) (hx : x.family = family)
    (hc : b.1.contains x = true) : (b.1, false) ∈ blocks.flatMap (blockEntries family) := by
  refine List.mem_flatMap.mpr ⟨b, hb, mem_blockEntries.mpr ⟨?_, Or.inl ⟨rfl, rfl⟩⟩⟩
  rw [← hx, IpNet.contains_family hc]

/-- Where an exception decides, no CIDR outranks it. -/
theorem not_outranked_of_decides {blocks' blocks'' : List Block} {b : Block} {e : IpNet}
    {v : List (IpNet × Bool)} (hx : x.family = family)
    (hd : decidingNet ((blocks' ++ b :: blocks'').flatMap (blockEntries family)) x = some (e, true))
    (hlater : ∀ a ∈ v ++ blocks''.flatMap (blockEntries family), a.1.contains x = true →
      a.1.prefixLen < e.prefixLen) :
    ¬ Outranked (blocks' ++ b :: blocks'') x blocks'.length e := by
  intro ⟨k, c, hk, hc, hrank⟩
  have hmem : c ∈ blocks' ++ b :: blocks'' := List.mem_of_getElem? hk
  have hlong := decidingNet_longest hd (cidr_stored hmem hx hc) hc
  simp only at hlong
  rcases hrank with hlt | ⟨heq, hik⟩
  · omega
  · -- the CIDR of a later block would be stored behind the exception
    have hlate : c ∈ blocks'' := by
      rw [List.getElem?_append_right (by omega), List.getElem?_cons] at hk
      rw [if_neg (by omega)] at hk
      exact List.mem_of_getElem? hk
    have hlt := hlater _ (List.mem_append_right _ (cidr_stored hlate hx hc)) hc
    simp only at hlt
    omega

theorem blockSet_of_outranked (hx : x.family = family) (hclear : ExceptionsOutranked blocks x)
    (hunion : ∃ b ∈ blocks, InBlock b x) :
    (SetBody.hashNet (blocks.flatMap (blockEntries family))).mem x = true := by
  have hout := hclear hunion
  obtain ⟨b, hb, hin⟩ := hunion
  obtain ⟨⟨e, excluded⟩, hd⟩ := decidingNet_exists (cidr_stored hb hx hin.1) hin.1
  simp only [SetBody.mem, hd, Option.any_some]
  cases excluded with
  | false => rfl
  | true =>
    exfalso
    obtain ⟨he, pre, post, hsplit, hpost⟩ := decidingNet_some hd
    obtain ⟨l₁, a, l₂, u, v, rfl, hentries, -, rfl⟩ := flatMap_eq_append_cons hsplit
    have hex : e ∈ a.2 := by
      have hm : (e, true) ∈ blockEntries family a := by rw [hentries]; simp
      simpa using (mem_blockEntries.mp hm).2
    exact not_outranked_of_decides hx hd hpost
      (hout l₁.length a (by simp) e hex he)

theorem outranked_of_blockSet (hinside : ∀ b ∈ blocks, ∀ e ∈ b.2, Inside e b.1)
    (h : (SetBody.hashNet (blocks.flatMap (blockEntries family))).mem x = true)
    (hx : x.family = family) {i : Nat} {b : Block} (hi : blocks[i]? = some b) {e : IpNet}
    (he : e ∈ b.2) (hex : e.contains x = true) : Outranked blocks x i e := by
  simp only [SetBody.mem, Option.any_eq_true] at h
  obtain ⟨⟨c, excluded⟩, hd, hflag⟩ := h
  obtain rfl : excluded = false := by simpa using hflag
  obtain ⟨hc, pre, post, hsplit, hpost⟩ := decidingNet_some hd
  obtain ⟨l₁, a, l₂, u, v, rfl, hentries, -, rfl⟩ := flatMap_eq_append_cons hsplit
  obtain ⟨except, ha, rfl⟩ := Peer.netEntries_open hentries
  obtain ⟨rfl, rfl⟩ : a.1 = c ∧ a.2 = except := by simpa using ha
  have hstored : (e, true) ∈ blockEntries family b := by
    refine mem_blockEntries.mpr ⟨?_, Or.inr ⟨rfl, he⟩⟩
    have hin := hinside b (List.mem_of_getElem? hi) e he
    rw [← IpNet.contains_family hin.1, ← hx, IpNet.contains_family hex]
    rfl
  have hlong := decidingNet_longest hd
    (List.mem_flatMap.mpr ⟨b, List.mem_of_getElem? hi, hstored⟩) hex
  simp only at hlong
  refine ⟨l₁.length, a, by simp, hc, ?_⟩
  rcases Nat.lt_or_eq_of_le hlong with hlt | heq
  · exact Or.inl hlt
  · refine Or.inr ⟨heq, ?_⟩
    -- an exception of this or a later block is stored behind the CIDR, hence shorter
    by_contra hge
    have hbehind : (e, true) ∈ a.2.map (·, true) ++ l₂.flatMap (blockEntries family) := by
      rcases Nat.lt_or_eq_of_le (Nat.le_of_not_lt hge) with hlt | hsame
      · rw [List.getElem?_append_right (by omega), List.getElem?_cons, if_neg (by omega)] at hi
        exact List.mem_append_right _ (List.mem_flatMap.mpr ⟨b, List.mem_of_getElem? hi, hstored⟩)
      · rw [← hsame, List.getElem?_append_right (Nat.le_refl _), Nat.sub_self,
          List.getElem?_cons_zero, Option.some_inj] at hi
        subst hi
        exact List.mem_append_left _ (List.mem_map.mpr ⟨e, he, rfl⟩)
    have hlt := hpost _ hbehind hex
    simp only at hlt
    omega

end Union

/-- The set of a rule's blocks matches an address as their union does exactly when no exception
has the last word on an address that some block admits. -/
theorem ipBlocks_union_iff {blocks : List Block}
    (hinside : ∀ b ∈ blocks, ∀ e ∈ b.2, Inside e b.1) (pods : List Pod)
    (namespaces : List Namespace) (ns : String) {family : IpFamily} {x : IpAddr}
    (hx : x.family = family) :
    ((blockSet blocks pods namespaces ns family).mem x = true ↔ ∃ b ∈ blocks, InBlock b x) ↔
      ExceptionsOutranked blocks x := by
  rw [blockSet_eq]
  constructor
  · intro h hunion i b hi e he hex
    exact outranked_of_blockSet hinside (h.mpr hunion) hx hi he hex
  · intro h
    exact ⟨union_of_blockSet hinside, blockSet_of_outranked hx h⟩

section Sample

def tenNet : IpNet := ⟨.ofOctets 10 0 0 0, 8, by decide⟩

def tenOneNet : IpNet := ⟨.ofOctets 10 1 0 0, 16, by decide⟩

/-- 10.0.0.0/8 without 10.1.0.0/16, and 10.1.0.0/16 again from a later peer. -/
def reopened : List Block := [(tenNet, [tenOneNet]), (tenOneNet, [])]

/-- The later peer outranks the exception. -/
theorem reopened_union :
    (blockSet reopened [] [] "shop" .V4).mem (.ofOctets 10 1 0 7) = true ↔
      ∃ b ∈ reopened, InBlock b (.ofOctets 10 1 0 7) := by
  refine (ipBlocks_union_iff (by decide) [] [] "shop" rfl).mpr ?_
  intro _ i b hi e he _
  have hcases : i = 0 ∧ b = (tenNet, [tenOneNet]) ∨ i = 1 ∧ b = (tenOneNet, []) := by
    rcases i with _ | _ | n
    · exact Or.inl ⟨rfl, (Option.some.inj hi).symm⟩
    · exact Or.inr ⟨rfl, (Option.some.inj hi).symm⟩
    · simp [reopened] at hi
  rcases hcases with ⟨rfl, rfl⟩ | ⟨rfl, rfl⟩
  · rw [List.mem_singleton.mp he]
    exact ⟨1, (tenOneNet, []), rfl, by decide, Or.inr ⟨rfl, by decide⟩⟩
  · cases he

/-- An exception of one block cuts an address out of a block without exceptions. -/
theorem exception_cuts_other_block :
    ¬ ∀ (blocks : List Block) (pods : List Pod) (namespaces : List Namespace) (ns : String)
      (family : IpFamily) (x : IpAddr), (∀ b ∈ blocks, ∀ e ∈ b.2, Inside e b.1) →
      (∀ b ∈ blocks, 1 ≤ b.1.prefixLen) → x.family = family →
      ((blockSet blocks pods namespaces ns family).mem x = true ↔ ∃ b ∈ blocks, InBlock b x) := by
  intro h
  have hset := (h [(tenNet, [tenOneNet]), (tenNet, [])] [] [] "shop" .V4 (.ofOctets 10 1 0 7)
    (by decide) (by decide) rfl).mpr (by decide)
  exact absurd hset (by decide)

end Sample

end KubeRouter.Netpol
