/-
  The graceful queue when calls fail (`process_graceful_queue` in `proxy/src/sync.rs`,
  `GracefulQueue` in `proxy/src/graceful.rs`).

  The loop takes all entries out of the queue first and puts those back that still drain. An
  error ends it at once: the entry whose call failed and all entries behind it are then neither
  queued nor deleted, and nothing else knows of them. The kernel keeps them with weight 0.

  Proved:
  * `queue_settled_iff`: every entry is still queued with its deadline, deleted, or desired
    again, if and only if every question the loop puts to the kernel is answered.
  * `runPasses_distinct`: the queue of every run, with any calls failing, has one entry for a
    destination, which is what this rests on.
  * `drained_forgotten`: one failed question loses two drained destinations.
-/
import KubeRouter.Proxy.Tables

namespace KubeRouter.Proxy

open Program

/-! ## Settled entries -/

/-- Between `w` and `t` the entry stayed queued or its destination was deleted, or the
destination is desired. -/
def Settled (w t : World) (p : PendingRemoval) : Prop :=
  p ∈ t.sync.gqueue ∨ .delDestination p.svc p.dst ∈ t.calls.drop w.calls.length ∨
    readded w.sync.applied p = true

instance (w t : World) (p : PendingRemoval) : Decidable (Settled w t p) :=
  inferInstanceAs (Decidable (_ ∨ _ ∨ _))

/-- No call of the loop over the queue fails. -/
def AllAnswered (b : Backend) (w : World) : Prop :=
  (w.sync.gqueue.foldlM (answered b w.sync.applied (b.now w.asked)) (w.asked + 1)).isSome = true

instance (b : Backend) (w : World) : Decidable (AllAnswered b w) :=
  inferInstanceAs (Decidable (_ = true))

theorem sameDst_self (p : PendingRemoval) : p.sameDst p.svc p.dst = true := by
  simp [PendingRemoval.sameDst, IpvsDestination.same_self]

theorem Swept.drop_calls {b : Backend} {applied : ServiceTable} {items : List PendingRemoval}
    {w t : World} {cs : List Call} (h : Swept b applied items w t cs) :
    t.calls.drop w.calls.length = cs := by
  rw [h.calls, List.drop_left]

theorem Swept.all_settled {b : Backend} {w t : World} {cs : List Call}
    (h : Swept b w.sync.applied w.sync.gqueue w t cs) :
    ∀ p ∈ w.sync.gqueue, Settled w t p := by
  intro p hp
  unfold Settled
  rw [h.drop_calls]
  cases hre : readded w.sync.applied p with
  | true => exact Or.inr (Or.inr rfl)
  | false => exact (h.settled p hp hre).imp_right Or.inl

/-- An entry the loop did not get to is lost. -/
theorem Swept.not_settled {b : Backend} {w t : World} {cs : List Call}
    {done rest : List PendingRemoval} {p : PendingRemoval}
    (h : Swept b w.sync.applied done w t cs) (hq : QueueDistinct w.sync.gqueue)
    (heq : w.sync.gqueue = done ++ p :: rest) (hre : readded w.sync.applied p = false) :
    ¬Settled w t p := by
  have hbefore : ∀ q ∈ done, q.sameDst p.svc p.dst = false := by
    unfold QueueDistinct at hq
    rw [heq, List.pairwise_append] at hq
    intro q hq'
    exact hq.2.2 q hq' p List.mem_cons_self
  rintro (hqueued | hdeleted | hdesired)
  · have hdone := hbefore p (h.sublist.subset hqueued)
    rw [sameDst_self] at hdone
    cases hdone
  · rw [h.drop_calls] at hdeleted
    obtain hinert | ⟨q, hq', hcall, -⟩ := h.written _ hdeleted
    · cases hinert.2.1
    · obtain ⟨hsvc, hdst⟩ := Call.delDestination.inj hcall
      have hdone := hbefore q hq'
      rw [hsvc, hdst, sameDst_self] at hdone
      cases hdone
  · rw [hre] at hdesired
    cases hdesired

/-- After the loop every entry is settled exactly when none of its calls failed. -/
theorem queue_settled_iff (b : Backend) (w : World) (hq : QueueDistinct w.sync.gqueue) :
    (∀ p ∈ w.sync.gqueue, Settled w (Prog.exec (processGracefulQueue b) w).2 p) ↔
      AllAnswered b w := by
  have hwp : wp (processGracefulQueue b)
      (fun _ t => (∀ p ∈ w.sync.gqueue, Settled w t p) ∧ AllAnswered b w)
      (fun _ t => ¬(∀ p ∈ w.sync.gqueue, Settled w t p) ∧ ¬AllAnswered b w) w := by
    unfold processGracefulQueue
    rw [wp_bind, wp_get]
    split
    · next hempty =>
      have hnil : w.sync.gqueue = [] := List.isEmpty_iff.mp hempty
      rw [wp_pure, AllAnswered, hnil]
      exact ⟨fun p hp => absurd hp List.not_mem_nil, rfl⟩
    · unfold clockNow ask modifySync
      simp only [wp_bind, wp_get, wp_modify, wp_pure]
      refine wp_mono (wp_sweep b w) (fun _ t ht => ?_) (fun e t ht => ?_)
      · obtain ⟨⟨n, hn⟩, cs, hswept⟩ := ht
        refine ⟨hswept.all_settled, ?_⟩
        rw [AllAnswered, hn]
        rfl
      · obtain ⟨done, p, rest, heq, hnone, hre, -, cs, hswept⟩ := ht
        refine ⟨fun hall => ?_, ?_⟩
        · have hmem : p ∈ w.sync.gqueue := heq ▸ List.mem_append_right done List.mem_cons_self
          exact hswept.not_settled hq heq hre (hall p hmem)
        · rw [AllAnswered, hnone]
          simp
  have hiff := wp_state (P := fun t => (∀ p ∈ w.sync.gqueue, Settled w t p) ↔ AllAnswered b w)
    (wp_mono hwp (fun _ t ht => iff_of_true ht.1 ht.2) (fun _ t ht => iff_of_false ht.1 ht.2))
  exact hiff

/-! ## Queues of runs -/

theorem Swept.distinct {b : Backend} {w t : World} {cs : List Call}
    {items : List PendingRemoval} (h : Swept b w.sync.applied items w t cs)
    (hitems : items.Sublist w.sync.gqueue) (hq : QueueDistinct w.sync.gqueue) :
    QueueDistinct t.sync.gqueue :=
  List.Pairwise.sublist (h.sublist.trans hitems) hq

theorem sweep_distinct (b : Backend) (w : World) (hq : QueueDistinct w.sync.gqueue) :
    wp (processGracefulQueue b) (fun _ t => QueueDistinct t.sync.gqueue)
      (fun _ t => QueueDistinct t.sync.gqueue) w := by
  unfold processGracefulQueue
  rw [wp_bind, wp_get]
  split
  · exact hq
  · unfold clockNow ask modifySync
    simp only [wp_bind, wp_get, wp_modify, wp_pure]
    refine wp_mono (wp_sweep b w) (fun _ t ht => ?_) (fun e t ht => ?_)
    · obtain ⟨-, cs, hswept⟩ := ht
      exact hswept.distinct (List.Sublist.refl _) hq
    · obtain ⟨done, p, rest, heq, -, -, -, cs, hswept⟩ := ht
      exact hswept.distinct (heq ▸ List.sublist_append_left done _) hq

theorem pass_distinct (b : Backend) (cfg : Config) (w : World) (pass : Bool × Snapshot)
    (hq : QueueDistinct w.sync.gqueue) : QueueDistinct (passWorld b cfg w pass).sync.gqueue := by
  have hissued : ∀ t es, Issued b w t es → QueueDistinct t.sync.gqueue := by
    intro t es ht
    obtain ⟨timed, -, hqueue⟩ := ht.gqueue
    rw [hqueue]
    exact enqueueAll_distinct hq timed
  refine wp_state (P := fun t => QueueDistinct t.sync.gqueue)
    (wp_reconcileInner b cfg pass.1 pass.2 w (fun e t ht => ?_) (fun t ht => ?_))
  · obtain ⟨done, -, hdone⟩ := ht.part
    exact hissued t done hdone
  · rw [wp_bind]
    refine wp_mono (sweep_distinct b _ (hissued t _ ht)) (fun _ u hu => ?_) (fun _ _ hu => hu)
    refine wp_mono (quiet_laterStages b cfg _ u) (fun _ v hv => ?_) (fun _ v hv => ?_)
    · rw [hv.gqueue]
      exact hu
    · rw [hv.gqueue]
      exact hu

theorem runPasses_distinct (b : Backend) (cfg : Config)
    (passes : List (Bool × Snapshot)) {w : World}
    (hq : QueueDistinct w.sync.gqueue) : QueueDistinct (runPasses b cfg passes w).sync.gqueue := by
  induction passes generalizing w with
  | nil => exact hq
  | cons pass passes ih => exact ih (pass_distinct b cfg w pass hq)

/-! ## A question that fails -/

section Sample

/-- A service with two drained destinations, neither desired any more. -/
def drainedQueue : List PendingRemoval :=
  [⟨⟨.ofOctets 10 96 0 10, .Tcp, 80, .Rr, {}, none⟩, ⟨.ofOctets 10 244 0 5, 8080, 0, false⟩, 30⟩,
    ⟨⟨.ofOctets 10 96 0 10, .Tcp, 80, .Rr, {}, none⟩, ⟨.ofOctets 10 244 0 6, 8080, 0, false⟩, 30⟩]

def drainedWorld : World := { sync := { gqueue := drainedQueue } }

/-- Every destination is idle; `failing` is the number of the question that fails. -/
def idleBackend (failing : Option Nat) : Backend where
  fails n := if some n = failing then some "netlink timeout" else none
  connStats _ := some (0, 0)

end Sample

theorem drained_settled :
    QueueDistinct drainedWorld.sync.gqueue ∧ ∀ p ∈ drainedQueue,
      Settled drainedWorld (Prog.exec
        (processGracefulQueue (idleBackend none)) drainedWorld).2 p := by
  have hq : QueueDistinct drainedWorld.sync.gqueue := by
    unfold QueueDistinct
    decide +kernel
  exact ⟨hq, (queue_settled_iff (idleBackend none) drainedWorld hq).mpr (by decide +kernel)⟩

/-- The question about the first destination fails, and both are lost. -/
theorem drained_forgotten :
    ¬∀ (b : Backend) (w : World), QueueDistinct w.sync.gqueue →
      ∀ p ∈ w.sync.gqueue, Settled w (Prog.exec (processGracefulQueue b) w).2 p := by
  intro h
  have hall := h (idleBackend (some 1)) drainedWorld (by unfold QueueDistinct; decide +kernel)
  revert hall
  decide +kernel

end KubeRouter.Proxy
