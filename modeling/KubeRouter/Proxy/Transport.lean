/-
  `SystemIpvs` (`proxy/src/ipvs.rs`): a call goes to the kernel as a netlink message and, where that
  does not work, as a run of `ipvsadm`.

  A message may find no socket, may be refused, or may be carried out with the reply lost; in all
  three cases the binary is run, in the last one a second time over. `Kernel.serve` answers a
  request whichever way it comes, with the errors of the IPVS family. The words of `ipvsadm` for
  them are a parameter (`AdmTexts`). A refusal with the errno of an object that is there, or is not,
  counts as done (`systemIpvs_refused`); there is none in the runs below (`Fate.Truthful`).

  Kernels are compared by their services and destinations (`Alike`).

  Proved:
  * `systemIpvs_step`: a call that succeeds has had its effect once, whatever became of the message;
    one that fails has had it or not.
  * `run_grounded`: in every run without graceful termination, the service of every destination that
    is written is there.
  * `systemIpvs_refines`: so over these runs the two ways together are the kernel of
    `SystemKernel.lean`, up to the call that fails, and no call fails unless the binary does.
-/
import KubeRouter.Proxy.Claims
import KubeRouter.Proxy.IpvsWire
import KubeRouter.Proxy.Resync

namespace KubeRouter.Proxy

open Program

/-! ## The kernel's side -/

/-- The errors of the IPVS family for objects that are there or are not. -/
inductive Errno where
  | ENOENT
  | ESRCH
  | EEXIST
deriving DecidableEq, Repr

def Errno.code : Errno → UInt32
  | ENOENT => 2
  | ESRCH => 3
  | EEXIST => 17

namespace Kernel

def serve (K : Kernel) : Request → Except Errno Kernel
  | .newService svc =>
    if (K.services[svcKey svc]?).isSome then .error .EEXIST else .ok (K.upsert (.addService svc))
  | .setService svc =>
    if (K.services[svcKey svc]?).isSome then .ok (K.upsert (.editService svc)) else .error .ESRCH
  | .delService key =>
    if (K.services[keyText key]?).isSome then .ok (K.upsert (.delService (rowService key)))
    else .error .ESRCH
  | .newDest key dst =>
    if (K.services[keyText key]?).isSome then
      if (K.dest (keyText key) dst.addr dst.port).isSome then .error .EEXIST
      else .ok (K.upsert (.addDestination (rowService key) dst))
    else .error .ESRCH
  | .setDest key dst =>
    if (K.services[keyText key]?).isSome then
      if (K.dest (keyText key) dst.addr dst.port).isSome then
        .ok (K.upsert (.updateDestination (rowService key) dst))
      else .error .ENOENT
    else .error .ESRCH
  | .delDest key addr port =>
    if (K.services[keyText key]?).isSome then
      if (K.dest (keyText key) addr port).isSome then
        .ok (K.upsert (.delDestination (rowService key) ⟨addr, port, 0, false⟩))
      else .error .ENOENT
    else .error .ESRCH

/-- A message arrives: the kernel after it and the errno of the answer. -/
def receive (K : Kernel) (family : UInt16) (msg : List UInt8) : Kernel × UInt32 :=
  match readMessage family msg with
  | none => (K, 22)
  | some req =>
    match K.serve req with
    | .ok K' => (K', 0)
    | .error e => (K, e.code)

/-- The same services, and the same destinations of each. -/
structure Alike (K L : Kernel) : Prop where
  services : ∀ k : String, K.services[k]? = L.services[k]?
  dests : ∀ k a p, K.dest k a p = L.dest k a p

/-- No destination without its service. -/
def Rooted (K : Kernel) : Prop :=
  ∀ k a p, K.services[k]? = none → K.dest k a p = none

end Kernel

/-! ## The ways to the kernel -/

/-- The errno of a request that was not carried out. -/
structure Refusal where
  code : UInt32
  small : code.toNat < 2 ^ 31
  nonzero : code ≠ 0

inductive GenlFate where
  /-- `Genl::open` fails. -/
  | unavailable
  | refused (errno : Refusal)
  /-- Carried out, but no reply is read. -/
  | lost
  | answered

/-- The words `run` looks for. -/
def toleratedText (stderr : String) : Bool :=
  decide ("already exists".toList <:+: stderr.toList) ||
      decide ("No such".toList <:+: stderr.toList)

inductive AdmFate where
  | spawnFails (msg : String)
  /-- It ends without having asked the kernel. -/
  | fails (stderr : String) (h : toleratedText stderr = false)
  | runs

structure Fate where
  genl : GenlFate
  adm : AdmFate

/-- A request that is refused is not answered with ENOENT or EEXIST. -/
def Fate.Truthful (fate : Fate) : Prop :=
  ∀ e, fate.genl = .refused e → e.code ≠ 2 ∧ e.code ≠ 17

/-- What `ipvsadm` says of an error: an object that exists, or one that does not, is named so, but
for a destination whose service is missing. -/
structure AdmTexts where
  stderr : Request → Errno → String
  newService_text : ∀ svc, toleratedText (stderr (.newService svc) .EEXIST) = true
  newDest_text : ∀ key dst, toleratedText (stderr (.newDest key dst) .EEXIST) = true
  setService_text : ∀ svc, toleratedText (stderr (.setService svc) .ESRCH) = true
  delService_text : ∀ key, toleratedText (stderr (.delService key) .ESRCH) = true
  setDest_text : ∀ key dst, toleratedText (stderr (.setDest key dst) .ENOENT) = true
  delDest_text : ∀ key a p, toleratedText (stderr (.delDest key a p) .ENOENT) = true

/-- `via_genl`: `raw_os_error` 17 and 2 count as handled. -/
def handledError : Option Int → Bool
  | none => true
  | some e => e == 17 || e == 2

section System

variable (texts : AdmTexts) (family : UInt16)

/-- `via_genl` on a fresh socket: its first message asked for the family. -/
def viaGenl (K : Kernel) (fate : GenlFate) (cmd : UInt8) (payload : List UInt8) : Kernel × Bool :=
  let msg := requestBytes family 2 cmd payload
  match fate with
  | .unavailable => (K, false)
  | .refused e => (K, handledError (replyError (replyBytes e.code 2 msg)))
  | .lost => ((K.receive family msg).1, false)
  | .answered =>
    let (K, errno) := K.receive family msg
    (K, handledError (replyError (replyBytes errno 2 msg)))

/-- `run`. -/
def runAdm (K : Kernel) (fate : AdmFate) (args : List String) : Kernel × Except String Unit :=
  match fate with
  | .spawnFails msg => (K, .error ("spawn ipvsadm: " ++ msg))
  | .fails stderr _ => (K, if toleratedText stderr then .ok () else .error stderr)
  | .runs =>
    match readArgs args with
    | none => (K, .error "ipvsadm: usage")
    | some req =>
      match K.serve req with
      | .ok K => (K, .ok ())
      | .error e =>
        let stderr := texts.stderr req e
        (K, if toleratedText stderr then .ok () else .error stderr)

/-- A call to `SystemIpvs`; calls that are not for services or destinations go their own way. -/
def systemIpvs (K : Kernel) (fate : Fate) (c : Call) : Kernel × Except String Unit :=
  match c.args with
  | none => (K.system c, .ok ())
  | some args =>
    match c.genl with
    | none => runAdm texts K fate.adm args
    | some (cmd, payload) =>
      let (K, handled) := viaGenl family K fate.genl cmd payload
      if handled then (K, .ok ()) else runAdm texts K fate.adm args

/-- Calls one after the other, up to the first that fails. -/
def runCalls (fates : Nat → Fate) : Nat → Kernel → List Call → Kernel × Except String Unit
  | _, K, [] => (K, .ok ())
  | n, K, c :: cs =>
    match systemIpvs texts family K (fates n) c with
    | (K, .ok ()) => runCalls fates (n + 1) K cs
    | (K, .error msg) => (K, .error msg)

end System

/-! ## One request -/

namespace Kernel

theorem Alike.refl (K : Kernel) : Alike K K := ⟨fun _ => rfl, fun _ _ _ => rfl⟩

theorem Alike.symm {K L : Kernel} (h : Alike K L) : Alike L K :=
  ⟨fun k => (h.services k).symm, fun k a p => (h.dests k a p).symm⟩

theorem Alike.trans {K L M : Kernel} (h : Alike K L) (h' : Alike L M) : Alike K M :=
  ⟨fun k => (h.services k).trans (h'.services k),
    fun k a p => (h.dests k a p).trans (h'.dests k a p)⟩

theorem system_service (K : Kernel) (c : Call) (k : String) :
    (K.system c).services[k]? = (serviceMove k c).run K.services[k]? := moves_service k K c

theorem system_dest (K : Kernel) (c : Call) (k : String) (a : IpAddr) (p : UInt16) :
    (K.system c).dest k a p = (destMove k a p c).run (K.dest k a p) := moves_dest k a p K c

theorem Alike.system {K L : Kernel} (h : Alike K L) (c : Call) :
    Alike (K.system c) (L.system c) where
  services := fun k => by
    rw [system_service, system_service, h.services k]
  dests := fun k a p => by
    rw [system_dest, system_dest, h.dests k a p]

theorem system_idem (K : Kernel) (c : Call) : Alike ((K.system c).system c) (K.system c) where
  services := fun k => by
    rw [system_service, system_service, Move.run_idem]
  dests := fun k a p => by
    rw [system_dest, system_dest, Move.run_idem]

theorem Rooted.alike {K L : Kernel} (h : Rooted K) (halike : Alike K L) : Rooted L := by
  intro k a p hk
  rw [← halike.dests]
  exact h k a p ((halike.services k).trans hk)

/-- The service a destination is written for. -/
def destKey : Call → Option String
  | .addDestination svc _ | .updateDestination svc _ | .delDestination svc _ => some (svcKey svc)
  | _ => none

/-- The service of a destination that is written is there. -/
def Grounded (K : Kernel) (c : Call) : Prop :=
  ∀ k, destKey c = some k → (K.services[k]?).isSome

theorem Grounded.alike {K L : Kernel} {c : Call} (h : Grounded K c) (halike : Alike K L) :
    Grounded L c := by
  intro k hk
  rw [← halike.services k]
  exact h k hk

/-- A destination is written without touching the services. -/
theorem serviceMove_of_destKey {c : Call} {k : String} (h : destKey c = some k) (k' : String) :
    serviceMove k' c = .keep := by
  cases c with
  | addDestination svc dst | updateDestination svc dst | delDestination svc dst => rfl
  | _ => cases h

theorem Grounded.system {K : Kernel} {c : Call} (h : Grounded K c) : Grounded (K.system c) c := by
  intro k hk
  rw [system_service, serviceMove_of_destKey hk]
  exact h k hk

/-- A service that goes takes its destinations along. -/
theorem Rooted.system {K : Kernel} {c : Call} (h : Rooted K) (hc : Grounded K c) :
    Rooted (K.system c) := by
  intro k a p hk
  rw [system_service] at hk
  rw [system_dest]
  cases c with
  | addDestination svc dst | updateDestination svc dst | delDestination svc dst =>
    have hnone : K.services[k]? = none := hk
    have hne : svcKey svc ≠ k := by
      rintro rfl
      have hsome := hc _ rfl
      rw [hnone] at hsome
      cases hsome
    simpa [destMove, hne, Move.run] using h k a p hnone
  | addService svc =>
    by_cases hkey : svcKey svc = k
    · simp only [serviceMove, hkey, if_true, Move.run] at hk
      cases hold : K.services[k]? with
      | none => simp [hold] at hk
      | some x => simp [hold] at hk
    · simp only [serviceMove, if_neg hkey, Move.run] at hk
      exact h k a p hk
  | editService svc =>
    refine h k a p ?_
    by_cases hkey : svcKey svc = k
    · simpa [serviceMove, hkey, Move.run] using hk
    · simpa [serviceMove, hkey, Move.run] using hk
  | delService svc =>
    by_cases hkey : svcKey svc = k
    · simp [destMove, hkey, Move.run]
    · simp only [serviceMove, if_neg hkey, Move.run] at hk
      simpa [destMove, hkey, Move.run] using h k a p hk
  | _ => exact h k a p hk

/-- The answer to a request: it has the effect of the call, or an error says that there is nothing
to do, in words that `run` knows. -/
theorem serve_call {K : Kernel} {c : Call} {req : Request} (hreq : c.request = some req)
    (hroot : Rooted K) (hc : Grounded K c) :
    (∃ K', K.serve req = .ok K' ∧ Alike K' (K.system c)) ∨
      ∃ e, K.serve req = .error e ∧ Alike K (K.system c) ∧
        ∀ texts : AdmTexts, toleratedText (texts.stderr req e) = true := by
  cases c with
  | addService svc =>
    cases hreq
    by_cases hold : (K.services[svcKey svc]?).isSome
    · refine Or.inr ⟨.EEXIST, if_pos hold, ?_, fun texts => texts.newService_text svc⟩
      rw [Kernel.system, if_pos hold]
      exact Alike.refl K
    · refine Or.inl ⟨_, if_neg hold, ?_⟩
      rw [Kernel.system, if_neg hold]
      exact Alike.refl _
  | editService svc =>
    cases hreq
    by_cases hold : (K.services[svcKey svc]?).isSome
    · refine Or.inl ⟨_, if_pos hold, ?_⟩
      rw [Kernel.system, if_pos hold]
      exact Alike.refl _
    · refine Or.inr ⟨.ESRCH, if_neg hold, ?_, fun texts => texts.setService_text svc⟩
      rw [Kernel.system, if_neg hold]
      exact Alike.refl K
  | delService svc =>
    cases hreq
    by_cases hold : (K.services[svcKey svc]?).isSome
    · exact Or.inl ⟨_, if_pos hold, Alike.refl _⟩
    · refine Or.inr ⟨.ESRCH, if_neg hold, ⟨fun k => ?_, fun k a p => ?_⟩,
        fun texts => texts.delService_text _⟩
      · rw [system_service]
        by_cases hkey : svcKey svc = k
        · subst hkey
          simpa [serviceMove, Move.run] using hold
        · simp [serviceMove, hkey, Move.run]
      · rw [system_dest]
        by_cases hkey : svcKey svc = k
        · subst hkey
          simpa [destMove, Move.run] using hroot _ a p (by simpa using hold)
        · simp [destMove, hkey, Move.run]
  | addDestination svc dst =>
    cases hreq
    have hsvc : (K.services[keyText svc.key]?).isSome := hc _ rfl
    by_cases hold : (K.dest (svcKey svc) dst.addr dst.port).isSome
    · refine Or.inr ⟨.EEXIST, (if_pos hsvc).trans (if_pos hold), ?_,
        fun texts => texts.newDest_text _ _⟩
      rw [Kernel.system, if_pos hold]
      exact Alike.refl K
    · refine Or.inl ⟨_, (if_pos hsvc).trans (if_neg hold), ?_⟩
      rw [Kernel.system, if_neg hold]
      exact Alike.refl _
  | updateDestination svc dst =>
    cases hreq
    have hsvc : (K.services[keyText svc.key]?).isSome := hc _ rfl
    by_cases hold : (K.dest (svcKey svc) dst.addr dst.port).isSome
    · refine Or.inl ⟨_, (if_pos hsvc).trans (if_pos hold), ?_⟩
      rw [Kernel.system, if_pos hold]
      exact Alike.refl _
    · refine Or.inr ⟨.ENOENT, (if_pos hsvc).trans (if_neg hold), ?_,
        fun texts => texts.setDest_text _ _⟩
      rw [Kernel.system, if_neg hold]
      exact Alike.refl K
  | delDestination svc dst =>
    cases hreq
    have hsvc : (K.services[keyText svc.key]?).isSome := hc _ rfl
    by_cases hold : (K.dest (svcKey svc) dst.addr dst.port).isSome
    · exact Or.inl ⟨_, (if_pos hsvc).trans (if_pos hold), Alike.refl _⟩
    · refine Or.inr ⟨.ENOENT, (if_pos hsvc).trans (if_neg hold), ⟨fun k => ?_, fun k a p => ?_⟩,
        fun texts => texts.delDest_text _ _ _⟩
      · rw [system_service]
        rfl
      · rw [system_dest]
        by_cases hkey : svcKey svc = k ∧ dst.addr = a ∧ dst.port = p
        · obtain ⟨rfl, rfl, rfl⟩ := hkey
          simpa [destMove, Move.run] using hold
        · simp [destMove, hkey, Move.run]
  | _ => cases hreq

end Kernel

open Kernel (Alike Rooted Grounded)

/-! ## One call -/

/-- What comes of a call: `ok` says it has had its effect. -/
structure Outcome (K : Kernel) (c : Call) (fate : AdmFate) (r : Kernel × Except String Unit) :
    Prop where
  done : r.2 = .ok () → Alike r.1 (K.system c)
  atomic : Alike r.1 K ∨ Alike r.1 (K.system c)
  runs : fate = .runs → r.2 = .ok ()

section Call

variable (texts : AdmTexts) (family : UInt16) {K : Kernel} {c : Call}

theorem Call.args_request {args : List String} (h : c.args = some args) :
    ∃ req, c.request = some req := by
  cases c with
  | addService svc | editService svc | delService svc | addDestination svc dst
  | updateDestination svc dst | delDestination svc dst => exact ⟨_, rfl⟩
  | _ => cases h

theorem Call.Plain.sendable (h : c.Plain) : c.Sendable := by
  cases c with
  | addDestination svc dst | updateDestination svc dst => exact h
  | _ => trivial

variable (hplain : c.Plain) (hroot : Rooted K) (hground : Grounded K c)

include hplain hroot hground

theorem runAdm_outcome {args : List String} (h : c.args = some args) (fate : AdmFate) :
    Outcome K c fate (runAdm texts K fate args) := by
  cases fate with
  | spawnFails msg =>
    exact ⟨fun hok => (by cases hok), Or.inl (Alike.refl K), fun h => (by cases h)⟩
  | fails stderr hstderr =>
    refine ⟨fun hok => ?_, Or.inl (Alike.refl K), fun h => (by cases h)⟩
    simp [runAdm, hstderr] at hok
  | runs =>
    obtain ⟨req, hreq⟩ := Call.args_request h
    have hread : readArgs args = some req := (readArgs_args hplain h).trans hreq
    rcases Kernel.serve_call hreq hroot hground with
      ⟨K', hserve, halike⟩ | ⟨e, hserve, halike, htext⟩
    · have hrun : runAdm texts K .runs args = (K', .ok ()) := by
        simp [runAdm, hread, hserve]
      rw [hrun]
      exact ⟨fun _ => halike, Or.inr halike, fun _ => rfl⟩
    · have hrun : runAdm texts K .runs args = (K, .ok ()) := by
        simp [runAdm, hread, hserve, htext texts]
      rw [hrun]
      exact ⟨fun _ => halike, Or.inr halike, fun _ => rfl⟩

/-- The binary run over a kernel that has carried out the message. -/
theorem runAdm_again {L : Kernel} (hL : Alike L (K.system c)) {args : List String}
    (h : c.args = some args) (fate : AdmFate) : Outcome K c fate (runAdm texts L fate args) := by
  have hagain := runAdm_outcome texts hplain ((hroot.system hground).alike hL.symm)
    (hground.system.alike hL.symm) h fate
  have hidem : Alike (L.system c) (K.system c) := (hL.system c).trans (Kernel.system_idem K c)
  refine ⟨fun hok => (hagain.done hok).trans hidem, Or.inr ?_, hagain.runs⟩
  rcases hagain.atomic with h | h
  · exact h.trans hL
  · exact h.trans hidem

/-- The kernel's answer to the message. -/
theorem receive_call {cmd : UInt8} {payload : List UInt8} (h : c.genl = some (cmd, payload))
    {req : Request} (hreq : c.request = some req) :
    let r := K.receive family (requestBytes family 2 cmd payload)
    Alike r.1 (K.system c) ∧
      (r.2 = 0 ∨ r.1 = K ∧ ∃ e : Errno, r.2 = e.code) := by
  have hread : readMessage family (requestBytes family 2 cmd payload) = some req :=
    (readMessage_request hplain.sendable h (genl_length h) family 2).trans hreq
  rcases Kernel.serve_call hreq hroot hground with ⟨K', hserve, halike⟩ | ⟨e, hserve, halike, -⟩
  · have hreceive : K.receive family (requestBytes family 2 cmd payload) = (K', 0) := by
      rw [Kernel.receive, hread]
      dsimp only
      rw [hserve]
    rw [hreceive]
    exact ⟨halike, Or.inl rfl⟩
  · have hreceive : K.receive family (requestBytes family 2 cmd payload) = (K, e.code) := by
      rw [Kernel.receive, hread]
      dsimp only
      rw [hserve]
    rw [hreceive]
    exact ⟨halike, Or.inr ⟨rfl, e, rfl⟩⟩

omit hplain hroot hground in
theorem handledError_zero (msg : List UInt8) :
    handledError (replyError (replyBytes 0 2 msg)) = true := by
  rw [replyError_reply (by decide), if_pos rfl]
  rfl

omit hplain hroot hground in
theorem viaGenl_answered (cmd : UInt8) (payload : List UInt8) :
    viaGenl family K .answered cmd payload =
      let msg := requestBytes family 2 cmd payload
      let r := K.receive family msg
      (r.1, handledError (replyError (replyBytes r.2 2 msg))) := rfl

omit hplain hroot hground in
/-- An answer of the kernel; a missing service is left to the binary. -/
theorem answered_outcome {L : Kernel} {errno : UInt32} {msg : List UInt8} {args : List String}
    {fate : AdmFate} (halike : Alike L (K.system c))
    (hanswer : errno = 0 ∨ L = K ∧ ∃ e : Errno, errno = e.code)
    (hadm : Outcome K c fate (runAdm texts K fate args)) :
    Outcome K c fate (if handledError (replyError (replyBytes errno 2 msg)) then (L, .ok ())
      else runAdm texts L fate args) := by
  have hhandled : Outcome K c fate (L, .ok ()) := ⟨fun _ => halike, Or.inr halike, fun _ => rfl⟩
  rcases hanswer with rfl | ⟨rfl, e, rfl⟩
  · rw [handledError_zero, if_pos rfl]
    exact hhandled
  · have hsmall : e.code.toNat < 2 ^ 31 := by
      cases e <;> decide
    rw [replyError_reply hsmall]
    cases e with
    | ENOENT => exact hhandled
    | EEXIST => exact hhandled
    | ESRCH => exact hadm

omit hplain hroot hground in
/-- The answer to a request that was refused. -/
theorem viaGenl_refused (e : Refusal) (cmd : UInt8) (payload : List UInt8) :
    viaGenl family K (.refused e) cmd payload = (K, e.code == 2 || e.code == 17) := by
  have hcode : ∀ n : UInt32, (((e.code.toNat : Int) == n.toNat) : Bool) = (e.code == n) := by
    intro n
    rw [Bool.eq_iff_iff, beq_iff_eq, beq_iff_eq, Int.natCast_inj, UInt32.toNat_inj]
  simp only [viaGenl]
  rw [replyError_reply e.small, if_neg e.nonzero, handledError, Bool.or_comm (e.code == 2),
    ← hcode 2, ← hcode 17]
  rfl

omit hplain hroot hground in
/-- A call counts as done when its request is refused with ENOENT or EEXIST. -/
theorem systemIpvs_refused {e : Refusal} (he : e.code = 2 ∨ e.code = 17) {m : UInt8 × List UInt8}
    (hgenl : c.genl = some m) {args : List String} (hargs : c.args = some args) (adm : AdmFate) :
    systemIpvs texts family K ⟨.refused e, adm⟩ c = (K, .ok ()) := by
  have hhandled : (e.code == 2 || e.code == 17) = true := by simpa using he
  simp [systemIpvs, hargs, hgenl, viaGenl_refused, hhandled]

/-- A call over `SystemIpvs`. -/
theorem systemIpvs_step {fate : Fate} (htrue : fate.Truthful) :
    Outcome K c fate.adm (systemIpvs texts family K fate c) := by
  cases hargs : c.args with
  | none =>
    have hother : systemIpvs texts family K fate c = (K.system c, .ok ()) := by
      simp [systemIpvs, hargs]
    rw [hother]
    exact ⟨fun _ => Alike.refl _, Or.inr (Alike.refl _), fun _ => rfl⟩
  | some args =>
    obtain ⟨req, hreq⟩ := Call.args_request hargs
    have hadm := runAdm_outcome texts hplain hroot hground hargs fate.adm
    cases hgenl : c.genl with
    | none =>
      have hrun : systemIpvs texts family K fate c = runAdm texts K fate.adm args := by
        simp [systemIpvs, hargs, hgenl]
      rw [hrun]
      exact hadm
    | some m =>
      obtain ⟨cmd, payload⟩ := m
      have hsystem : systemIpvs texts family K fate c =
          if (viaGenl family K fate.genl cmd payload).2 then
            ((viaGenl family K fate.genl cmd payload).1, .ok ())
          else runAdm texts (viaGenl family K fate.genl cmd payload).1 fate.adm args := by
        simp [systemIpvs, hargs, hgenl]
      obtain ⟨halike, hanswer⟩ := receive_call family hplain hroot hground hgenl hreq
      rw [hsystem]
      cases hfate : fate.genl with
      | unavailable => exact hadm
      | refused e =>
        have hunhandled : (e.code == 2 || e.code == 17) = false := by simpa using htrue e hfate
        rw [viaGenl_refused, hunhandled]
        exact hadm
      | lost => exact runAdm_again texts hplain hroot hground halike hargs fate.adm
      | answered =>
        rw [viaGenl_answered]
        exact answered_outcome texts halike hanswer hadm

end Call

/-! ## Calls in a row -/

/-- Every call finds the service it needs. -/
def GroundedAll : Kernel → List Call → Prop
  | _, [] => True
  | K, c :: cs => Grounded K c ∧ GroundedAll (K.system c) cs

theorem groundedAll_append {K : Kernel} {cs ds : List Call} :
    GroundedAll K (cs ++ ds) ↔ GroundedAll K cs ∧ GroundedAll (cs.foldl Kernel.system K) ds := by
  induction cs generalizing K with
  | nil => simp [GroundedAll]
  | cons c cs ih =>
    rw [List.cons_append, GroundedAll, GroundedAll, ih, List.foldl_cons, and_assoc]

/-- Calls that write no destination need nothing. -/
theorem groundedAll_of_none {K : Kernel} {cs : List Call}
    (h : ∀ c ∈ cs, Kernel.destKey c = none) : GroundedAll K cs := by
  induction cs generalizing K with
  | nil => trivial
  | cons c cs ih =>
    obtain ⟨hc, hcs⟩ := List.forall_mem_cons.mp h
    refine ⟨fun k hk => ?_, ih hcs⟩
    rw [hc] at hk
    cases hk

section Runs

variable (texts : AdmTexts) (family : UInt16) (fates : Nat → Fate)

/-- `c` is the first of the calls that fails; those of `done` come before it. -/
def FailsAt (n : Nat) (K : Kernel) (cs done : List Call) (c : Call) (msg : String) : Prop :=
  ∃ rest K', cs = done ++ c :: rest ∧ runCalls texts family fates n K done = (K', .ok ()) ∧
    (systemIpvs texts family K' (fates (n + done.length)) c).2 = .error msg

variable {texts family fates}

theorem FailsAt.cons {n : Nat} {K K' : Kernel} {c : Call} {cs done : List Call} {c' : Call}
    {msg : String} (h : FailsAt texts family fates (n + 1) K' cs done c' msg)
    (hc : systemIpvs texts family K (fates n) c = (K', .ok ())) :
    FailsAt texts family fates n K (c :: cs) (c :: done) c' msg := by
  obtain ⟨rest, K'', rfl, hdone, hfail⟩ := h
  refine ⟨rest, K'', rfl, ?_, ?_⟩
  · rw [runCalls, hc]
    exact hdone
  · rw [List.length_cons, show n + (done.length + 1) = n + 1 + done.length by omega]
    exact hfail

/-- A row of calls over kernels that look alike: all have had their effect, or those before the one
that fails, which itself has had it or not. -/
theorem runCalls_outcome (htrue : ∀ i, (fates i).Truthful) {cs : List Call}
    (hplain : ∀ c ∈ cs, c.Plain) {n : Nat} {K L : Kernel}
    (halike : Alike K L) (hroot : Rooted L) (hground : GroundedAll L cs) :
    let r := runCalls texts family fates n K cs
    (r.2 = .ok () → Alike r.1 (cs.foldl Kernel.system L)) ∧
      (∀ msg, r.2 = .error msg → ∃ done c, FailsAt texts family fates n K cs done c msg ∧
        (Alike r.1 (done.foldl Kernel.system L) ∨
          Alike r.1 ((done ++ [c]).foldl Kernel.system L))) ∧
      ((∀ i, (fates i).adm = .runs) → r.2 = .ok ()) := by
  induction cs generalizing n K L with
  | nil => exact ⟨fun _ => halike, fun msg herr => (by cases herr), fun _ => rfl⟩
  | cons c cs ih =>
    obtain ⟨hc, hcs⟩ := List.forall_mem_cons.mp hplain
    obtain ⟨hgc, hgcs⟩ := hground
    have hstep := systemIpvs_step texts family hc (hroot.alike halike.symm)
      (hgc.alike halike.symm) (htrue n)
    rw [runCalls]
    cases hcall : systemIpvs texts family K (fates n) c with
    | mk K' res =>
      rw [hcall] at hstep
      cases res with
      | ok _ =>
        have hK' : Alike K' (L.system c) := (hstep.done rfl).trans (halike.system c)
        obtain ⟨hall, hfails, hruns⟩ := ih hcs (n := n + 1) hK' (hroot.system hgc) hgcs
        refine ⟨hall, fun msg herr => ?_, hruns⟩
        obtain ⟨done, c', hat, hkernel⟩ := hfails msg herr
        exact ⟨c :: done, c', hat.cons hcall, hkernel⟩
      | error msg =>
        refine ⟨fun hok => (by cases hok), fun msg' herr => ?_, fun hruns => ?_⟩
        · refine ⟨[], c, ⟨cs, K, rfl, rfl, ?_⟩, ?_⟩
          · show (systemIpvs texts family K (fates n) c).2 = .error msg'
            rw [hcall]
            exact herr
          · exact hstep.atomic.imp (fun h => h.trans halike) fun h => h.trans (halike.system c)
        · cases hstep.runs (hruns n)

end Runs

/-! ## The calls of a pass -/

section Pass

/-- The kernel has the service of every key that satisfies `P`. -/
def HasServices (P : String → Prop) (K : Kernel) : Prop := ∀ k, P k → (K.services[k]?).isSome

/-- No service goes. -/
def Call.Keeping (c : Call) : Prop := ∀ k, Kernel.serviceMove k c ≠ .clear

theorem HasServices.system {P : String → Prop} {K : Kernel} (h : HasServices P K) {c : Call}
    (hc : c.Keeping) : HasServices P (K.system c) := by
  intro k hk
  have hsome := h k hk
  rw [Kernel.system_service]
  cases hmove : Kernel.serviceMove k c with
  | keep => exact hsome
  | put v =>
    cases hold : K.services[k]? with
    | none => rfl
    | some x => rfl
  | edit v =>
    cases hold : K.services[k]? with
    | none =>
      rw [hold] at hsome
      cases hsome
    | some x => rfl
  | clear => exact absurd hmove (hc k)

theorem HasServices.foldl {P : String → Prop} {K : Kernel} (h : HasServices P K) {cs : List Call}
    (hcs : ∀ c ∈ cs, c.Keeping) : HasServices P (cs.foldl Kernel.system K) := by
  induction cs generalizing K with
  | nil => exact h
  | cons c cs ih =>
    obtain ⟨hc, hrest⟩ := List.forall_mem_cons.mp hcs
    exact ih (h.system hc) hrest

/-- Calls for destinations of services that are there, and stay. -/
theorem HasServices.grounded {P : String → Prop} {K : Kernel} (h : HasServices P K) {cs : List Call}
    (hcs : ∀ c ∈ cs, c.Keeping ∧ ∀ k, Kernel.destKey c = some k → P k) : GroundedAll K cs := by
  induction cs generalizing K with
  | nil => trivial
  | cons c cs ih =>
    obtain ⟨⟨hkeep, hdest⟩, hrest⟩ := List.forall_mem_cons.mp hcs
    exact ⟨fun k hk => h k (hdest k hk), ih (h.system hkeep) hrest⟩

theorem keeping_of_destKey {c : Call} {k : String} (h : Kernel.destKey c = some k) : c.Keeping := by
  intro k' hclear
  rw [Kernel.serviceMove_of_destKey h] at hclear
  cases hclear

theorem keeping_flush (a : IpAddr) (p : UInt16) : (Call.flushConntrackUdp a p).Keeping := by
  intro k hclear
  cases hclear

variable {cfg : Config} {full : Bool} {s : ServiceSync} {D : Desired}

/-- The calls for the destinations of an entry. -/
theorem destEvents_key {isvc : IpvsService} {prev ds : List IpvsDestination} {c : Call}
    (h : c ∈ callsOf (ds.flatMap (destEvents full isvc prev))) :
    Kernel.destKey c = some (svcKey isvc) := by
  obtain ⟨d, -, h⟩ := List.mem_flatMap.mp (mem_callsOf.mp h)
  unfold destEvents at h
  split at h
  · cases List.mem_singleton.mp h
    rfl
  · split at h
    · split at h
      · cases h
      · cases List.mem_singleton.mp h
        rfl
    · cases List.mem_singleton.mp h
      rfl

/-- The service call of an entry: the service is there behind it, if every recorded one was. -/
theorem serviceEvents_has (full : Bool) {P : String → Prop} {K : Kernel} (hK : HasServices P K)
    (hrecorded : ∀ k : String, (serviceAt s.applied k).isSome → P k) {k : String}
    {isvc : IpvsService} (hkey : svcKey isvc = k) :
    HasServices (fun k' => P k' ∨ k' = k)
        ((callsOf (serviceEvents full s.applied k isvc)).foldl Kernel.system K) ∧
      ∀ c ∈ callsOf (serviceEvents full s.applied k isvc), Kernel.destKey c = none := by
  have hmono : ∀ c : Call, c.Keeping → HasServices P (K.system c) := fun c hc => hK.system hc
  have hadd : (Call.addService isvc).Keeping := by
    intro k' hclear
    simp only [Kernel.serviceMove] at hclear
    split at hclear <;> cases hclear
  have hedit : (Call.editService isvc).Keeping := by
    intro k' hclear
    simp only [Kernel.serviceMove] at hclear
    split at hclear <;> cases hclear
  have hold : ∀ L : Kernel, HasServices P L → (serviceAt s.applied k).isSome →
      HasServices (fun k' => P k' ∨ k' = k) L := by
    intro L hL hsome k' hk'
    rcases hk' with h | rfl
    · exact hL k' h
    · exact hL k' (hrecorded k' hsome)
  unfold serviceEvents
  cases happ : s.applied[k]? with
  | some prev =>
    have hsome : (serviceAt s.applied k).isSome := by
      rw [serviceAt_eq_some happ]
      rfl
    dsimp only
    split
    · refine ⟨hold _ (hmono _ hedit) hsome, fun c hc => ?_⟩
      rw [List.mem_singleton.mp hc]
      rfl
    · split
      · refine ⟨hold _ (hmono _ hadd) hsome, fun c hc => ?_⟩
        rw [List.mem_singleton.mp hc]
        rfl
      · exact ⟨hold _ hK hsome, fun c hc => absurd hc List.not_mem_nil⟩
  | none =>
    refine ⟨fun k' hk' => ?_, fun c hc => ?_⟩
    · rcases hk' with h | rfl
      · exact hmono _ hadd k' h
      · show ((K.system (.addService isvc)).services[k']?).isSome
        rw [Kernel.system_service]
        simp only [Kernel.serviceMove, hkey, if_true, Move.run]
        cases K.services[k']? <;> rfl
    · rw [List.mem_singleton.mp hc]
      rfl

/-- The add/update loop. -/
theorem entryEvents_grounded (full : Bool) {items : List (String × Entry)}
    (hkeys : ∀ item ∈ items, svcKey item.2.1 = item.1) {P : String → Prop} {K : Kernel}
    (hK : HasServices P K) (hrecorded : ∀ k : String, (serviceAt s.applied k).isSome → P k) :
    GroundedAll K (callsOf (items.flatMap (entryEvents full s.applied))) ∧
      HasServices (fun k => P k ∨ ∃ e, (k, e) ∈ items)
        ((callsOf (items.flatMap (entryEvents full s.applied))).foldl Kernel.system K) := by
  induction items generalizing P K with
  | nil => exact ⟨trivial, fun k hk => hK k (hk.resolve_right (by simp))⟩
  | cons item items ih =>
    obtain ⟨hkey, hrest⟩ := List.forall_mem_cons.mp hkeys
    obtain ⟨hsvc, hnone⟩ := serviceEvents_has full hK hrecorded hkey
    have hdest : ∀ c ∈ callsOf (item.2.2.flatMap
        (destEvents full item.2.1 (destsOf s.applied item.1))), c.Keeping ∧
          ∀ k, Kernel.destKey c = some k → (P k ∨ k = item.1) := by
      intro c hc
      have hk := destEvents_key hc
      refine ⟨keeping_of_destKey hk, fun k hk' => Or.inr ?_⟩
      rw [hk, hkey] at hk'
      exact (Option.some.inj hk').symm
    have hsplit : callsOf ((item :: items).flatMap (entryEvents full s.applied)) =
        callsOf (serviceEvents full s.applied item.1 item.2.1) ++
          (callsOf (item.2.2.flatMap (destEvents full item.2.1 (destsOf s.applied item.1))) ++
            callsOf (items.flatMap (entryEvents full s.applied))) := by
      simp [callsOf, entryEvents, List.filterMap_append]
    have htail := ih hrest (hsvc.foldl fun c hc => (hdest c hc).1)
      (fun k hk => Or.inl (hrecorded k hk))
    rw [hsplit]
    simp only [groundedAll_append, List.foldl_append]
    refine ⟨⟨groundedAll_of_none hnone, hsvc.grounded hdest, htail.1⟩, fun k hk => htail.2 k ?_⟩
    rcases hk with h | ⟨e, he⟩
    · exact Or.inl (Or.inl h)
    · rcases List.mem_cons.mp he with rfl | he
      · exact Or.inl (Or.inr rfl)
      · exact Or.inr ⟨e, he⟩

theorem callsOf_append (es fs : List Event) : callsOf (es ++ fs) = callsOf es ++ callsOf fs :=
  List.filterMap_append

/-- Without graceful termination, the script of a pass over a kernel that has the recorded
services. -/
theorem script_grounded (hg : cfg.graceful = false) (hD : TableWF D.services) {K : Kernel}
    (hK : HasServices (fun k => (serviceAt s.applied k).isSome) K) :
    GroundedAll K (callsOf (script cfg full s D)) := by
  have hlink : (Call.ensureDummyLink dummyIf).Keeping := by
    intro k hclear
    cases hclear
  have hkeys : ∀ item ∈ D.services.toList, svcKey item.2.1 = item.1 := fun item hitem =>
    (hD item.1 item.2 (Std.TreeMap.mem_toList_iff_getElem?_eq_some.mp hitem)).key
  obtain ⟨hentries, hservices⟩ := entryEvents_grounded full hkeys (hK.system hlink)
    (fun k hk => hk)
  have hstale : ∀ c ∈ callsOf ((staleDests s.applied D.services).flatMap (removeEvents cfg)),
      c.Keeping ∧ ∀ k, Kernel.destKey c = some k →
        ((serviceAt s.applied k).isSome ∨ ∃ e, (k, e) ∈ D.services.toList) := by
    intro c hc
    obtain ⟨⟨svc, old⟩, hitem, hc⟩ := List.mem_flatMap.mp (mem_callsOf.mp hc)
    obtain ⟨k, e, he, rfl, -, -⟩ := mem_staleDests.mp hitem
    simp only [removeEvents, hg, Bool.false_eq_true, if_false, List.mem_append] at hc
    rcases hc with hc | hc
    · cases List.mem_singleton.mp hc
      refine ⟨keeping_of_destKey rfl, fun k' hk' => Or.inr ⟨e, ?_⟩⟩
      obtain rfl : svcKey e.1 = k' := Option.some.inj hk'
      rw [(hD k e he).key]
      exact Std.TreeMap.mem_toList_iff_getElem?_eq_some.mpr he
    · rw [mem_flushEvents hc]
      exact ⟨keeping_flush _ _, fun k' hk' => (by cases hk')⟩
  have hrest : ∀ c ∈ callsOf ((removedSvcs s.applied D.services).flatMap removeServiceEvents ++
      (D.wantVips.toList.flatMap (bindEvents s.boundVips) ++
        (s.boundVips.toList.filter fun v => !D.wantVips.contains v).flatMap unbindEvents)),
      Kernel.destKey c = none := by
    intro c hc
    simp only [mem_callsOf, List.mem_append, List.mem_flatMap] at hc
    rcases hc with ⟨svc, -, hc⟩ | ⟨v, -, hc⟩ | ⟨v, -, hc⟩
    · rcases List.mem_cons.mp hc with hc | hc
      · cases hc
        rfl
      · rw [mem_flushEvents hc]
        rfl
    · unfold bindEvents at hc
      split at hc
      · cases List.mem_singleton.mp hc
        rfl
      · cases hc
    · cases List.mem_singleton.mp hc
      rfl
  have hsplit : callsOf (script cfg full s D) = .ensureDummyLink dummyIf ::
      (callsOf (D.services.toList.flatMap (entryEvents full s.applied)) ++
        (callsOf ((staleDests s.applied D.services).flatMap (removeEvents cfg)) ++
          callsOf ((removedSvcs s.applied D.services).flatMap removeServiceEvents ++
            (D.wantVips.toList.flatMap (bindEvents s.boundVips) ++
              (s.boundVips.toList.filter fun v => !D.wantVips.contains v).flatMap
                unbindEvents)))) := by
    unfold script passEvents
    rw [← callsOf_append, ← callsOf_append]
    rfl
  rw [hsplit]
  refine ⟨fun k hk => (by cases hk), ?_⟩
  rw [groundedAll_append, groundedAll_append]
  exact ⟨hentries, hservices.grounded hstale, groundedAll_of_none hrest⟩

/-- A service port that `ipvsadm` can program. -/
structure PlainPort (svc : ServiceInfo) : Prop where
  flags : svc.schedFlags = {}
  timeout : ∀ t, persistentOf svc = some t → 1 ≤ t.toNat ∧ t.toNat ≤ maxTimeout

theorem desired_plain {snapshot : Snapshot} (h : ∀ item ∈ snapshot, PlainPort item.1) {k : String}
    {e : Entry} (he : (desired cfg snapshot).services[k]? = some e) : e.1.Plain := by
  obtain ⟨c, hlast, -, rfl⟩ := services_iff.mp he
  obtain ⟨item, hitem, hc⟩ := List.mem_flatMap.mp hlast.mem
  have hsvc : c.svc = item.1 := by
    unfold ipvsClaims at hc
    split at hc
    · rcases List.mem_append.mp hc with hc | hc
      · exact (internalClaims_of hc).svc
      · exact (externalClaims_of (mem_externalClaims.mpr (Or.inr hc))).svc
    · rcases List.mem_append.mp hc with hc | hc
      · exact (internalClaims_of hc).svc
      · exact (externalClaims_of hc).svc
  have hport := h item hitem
  rw [← hsvc] at hport
  exact ⟨hport.flags, hport.timeout⟩

/-- Without graceful termination, what a pass over such ports calls can be put into arguments. -/
theorem script_plain (hg : cfg.graceful = false) {snapshot : Snapshot}
    (h : ∀ item ∈ snapshot, PlainPort item.1) {c : Call}
    (hc : c ∈ callsOf (script cfg full s (desired cfg snapshot))) : c.Plain := by
  have hD := desired_wf cfg snapshot
  have hone : ∀ {k : String} {e : Entry} {d : IpvsDestination},
      (desired cfg snapshot).services[k]? = some e → d ∈ e.2 → 0 ≤ d.weight ∧ d.weight < 65536 := by
    intro k e d he hd
    rw [(hD k e he).weight d hd]
    decide
  cases scripted_of_mem hc with
  | add he hnew => exact desired_plain h he
  | edit he hp hne => exact desired_plain h he
  | addDest he hd hnew => exact hone he hd
  | updateDest he hd hevent ho hne => exact hone he hd
  | drain he hold hgone hg' =>
    rw [hg] at hg'
    cases hg'
  | _ => trivial

theorem Call.Inert.plain {c : Call} (h : c.Inert) : Kernel.destKey c = none ∧ c.Plain := by
  cases c with
  | addService svc | editService svc => cases h.1
  | addDestination svc dst | updateDestination svc dst | delDestination svc dst => cases h.2.1
  | _ => exact ⟨rfl, trivial⟩

end Pass

/-! ## Runs -/

section Run

variable (cfg : Config) (hg : cfg.graceful = false) (connStats : Nat → Option (UInt32 × UInt32))
  (now : Nat → Nat) (sysctl : Nat → Bool)

include hg

/-- What a pass calls, and what that makes of the kernel. -/
theorem passWorld_grounded (pass : Bool × Snapshot) {w : World} (hw : Tracked cfg w) :
    ∃ cs, (passWorld (.system connStats now sysctl) cfg w pass).calls = w.calls ++ cs ∧
      (passWorld (.system connStats now sysctl) cfg w pass).kernel =
        cs.foldl Kernel.system w.kernel ∧
      GroundedAll w.kernel cs ∧ ((∀ item ∈ pass.2, PlainPort item.1) → ∀ c ∈ cs, c.Plain) := by
  have hnever : ¬∃ n msg, (Backend.system connStats now sysctl).fails n = some msg := by
    intro ⟨n, msg, h⟩
    cases h
  have hD := desired_wf cfg pass.2
  unfold passWorld
  refine wp_state (P := fun v => ∃ cs, v.calls = w.calls ++ cs ∧
      v.kernel = cs.foldl Kernel.system w.kernel ∧ GroundedAll w.kernel cs ∧
      ((∀ item ∈ pass.2, PlainPort item.1) → ∀ c ∈ cs, c.Plain))
    (wp_reconcileInner _ cfg pass.1 pass.2 w (fun _ t ht => absurd ht.fails hnever) fun t ht => ?_)
  have hscript : Tracked cfg (commit (desired cfg pass.2) t) := script_tracked rfl hD hw ht
  rw [wp_bind]
  refine wp_mono (wp_processGracefulQueue _ _) (fun _ u hu => ?_) (fun _ _ he => absurd he hnever)
  obtain ⟨cs, hswept⟩ := hu
  have hsweep : ∀ c ∈ cs, c.Inert := by
    intro c hc
    obtain hinert | ⟨r, hr, -⟩ := hswept.written c hc
    · exact hinert
    · rw [hscript.off hg] at hr
      exact absurd hr List.not_mem_nil
  have hrecorded : HasServices (fun k => (serviceAt w.sync.applied k).isSome) w.kernel := by
    intro k hk
    rw [hw.services k]
    exact hk
  have hdone : ∀ v, Quiet (.system connStats now sysctl) u v → ∃ cs, v.calls = w.calls ++ cs ∧
      v.kernel = cs.foldl Kernel.system w.kernel ∧ GroundedAll w.kernel cs ∧
      ((∀ item ∈ pass.2, PlainPort item.1) → ∀ c ∈ cs, c.Plain) := by
    intro v hv
    obtain ⟨ds, hinert, hcalls, hkernel⟩ := hv.calls
    have hlater : ∀ c ∈ cs ++ ds, c.Inert := fun c hc =>
      (List.mem_append.mp hc).elim (hsweep c) (hinert c)
    refine ⟨callsOf (script cfg pass.1 w.sync (desired cfg pass.2)) ++ (cs ++ ds), ?_, ?_, ?_, ?_⟩
    · rw [hcalls, hswept.calls]
      show t.calls ++ cs ++ ds = _
      rw [ht.calls]
      simp
    · rw [hkernel, hswept.kernel]
      show ds.foldl Kernel.system (cs.foldl Kernel.system t.kernel) = _
      rw [ht.kernel, List.foldl_append, List.foldl_append]
      rfl
    · rw [groundedAll_append]
      exact ⟨script_grounded hg hD hrecorded,
        groundedAll_of_none fun c hc => (hlater c hc).plain.1⟩
    · intro hplain c hc
      rcases List.mem_append.mp hc with hc | hc
      · exact script_plain hg hplain hc
      · exact (hlater c hc).plain.2
  exact wp_mono (quiet_laterStages _ cfg _ u) (fun _ v hv => hdone v hv) (fun _ v hv => hdone v hv)

theorem run_grounded {passes : List (Bool × Snapshot)}
    (hplain : ∀ pass ∈ passes, ∀ item ∈ pass.2, PlainPort item.1) :
    let w := runPasses (.system connStats now sysctl) cfg passes {}
    w.kernel = w.calls.foldl Kernel.system {} ∧ GroundedAll {} w.calls ∧
      ∀ c ∈ w.calls, c.Plain := by
  induction passes using List.reverseRecOn with
  | nil => exact ⟨rfl, trivial, fun c hc => absurd hc List.not_mem_nil⟩
  | append_singleton passes pass ih =>
    have hinit := ih fun p hp => hplain p (List.mem_append_left _ hp)
    have hw := run_tracked cfg connStats now sysctl passes
    obtain ⟨cs, hcalls, hkernel, hground, hcs⟩ :=
      passWorld_grounded cfg hg connStats now sysctl pass hw
    obtain ⟨hkernel₀, hground₀, hplain₀⟩ := hinit
    rw [runPasses_concat]
    refine ⟨?_, ?_, fun c hc => ?_⟩
    · rw [hkernel, hcalls, List.foldl_append, ← hkernel₀]
    · rw [hcalls, groundedAll_append, ← hkernel₀]
      exact ⟨hground₀, hground⟩
    · rw [hcalls] at hc
      rcases List.mem_append.mp hc with hc | hc
      · exact hplain₀ c hc
      · exact hcs (hplain pass (List.mem_append_right _ (List.mem_singleton_self pass))) c hc

end Run

/-- The calls of any run, made one after the other over `SystemIpvs`; `fates` says what becomes of
each. -/
theorem systemIpvs_refines (cfg : Config) (hg : cfg.graceful = false)
    (connStats : Nat → Option (UInt32 × UInt32)) (now : Nat → Nat) (sysctl : Nat → Bool)
    (passes : List (Bool × Snapshot))
    (hplain : ∀ pass ∈ passes, ∀ item ∈ pass.2, PlainPort item.1)
    (texts : AdmTexts) (family : UInt16) (fates : Nat → Fate) (htrue : ∀ i, (fates i).Truthful) :
    let w := runPasses (.system connStats now sysctl) cfg passes {}
    let r := runCalls texts family fates 0 {} w.calls
    (r.2 = .ok () → Alike r.1 w.kernel) ∧
      (∀ msg, r.2 = .error msg → ∃ done c, FailsAt texts family fates 0 {} w.calls done c msg ∧
        (Alike r.1 (done.foldl Kernel.system {}) ∨
          Alike r.1 ((done ++ [c]).foldl Kernel.system {}))) ∧
      ((∀ i, (fates i).adm = .runs) → r.2 = .ok ()) := by
  intro w r
  obtain ⟨hkernel, hground, hcalls⟩ := run_grounded cfg hg connStats now sysctl hplain
  have hroot : Rooted {} := by
    intro k a p _
    simp [Kernel.dest, Kernel.dests]
  obtain ⟨hall, hrest⟩ := runCalls_outcome htrue hcalls (n := 0) (Alike.refl {}) hroot hground
  refine ⟨fun hok => ?_, hrest⟩
  show Alike r.1 w.kernel
  rw [hkernel]
  exact hall hok

/-! ## A first pass that loses replies -/

section Sample

/-- The messages of `libipvs`; any other error is put as the C library has it. -/
def libipvsText : Request → Errno → String
  | .newService _, .EEXIST => "Service already exists"
  | .setService _, .ESRCH | .delService _, .ESRCH => "No such service"
  | .newDest _ _, .EEXIST => "Destination already exists"
  | .newDest _ _, .ESRCH | .setDest _ _, .ESRCH | .delDest _ _ _, .ESRCH => "Service not defined"
  | .setDest _ _, .ENOENT | .delDest _ _ _, .ENOENT => "No such destination"
  | _, .ENOENT => "No such file or directory"
  | _, .ESRCH => "No such process"
  | _, .EEXIST => "File exists"

def libipvsTexts : AdmTexts where
  stderr := libipvsText
  newService_text := fun _ => (by decide : toleratedText "Service already exists" = true)
  newDest_text := fun _ _ => (by decide : toleratedText "Destination already exists" = true)
  setService_text := fun _ => (by decide : toleratedText "No such service" = true)
  delService_text := fun _ => (by decide : toleratedText "No such service" = true)
  setDest_text := fun _ _ => (by decide : toleratedText "No such destination" = true)
  delDest_text := fun _ _ _ => (by decide : toleratedText "No such destination" = true)

/-- Every second reply is lost, and the socket does not open for the rest. -/
def everyOther (i : Nat) : Fate where
  genl := if i % 2 = 0 then .lost else .unavailable
  adm := .runs

theorem everyOther_truthful (i : Nat) : (everyOther i).Truthful := by
  intro e he
  unfold everyOther at he
  by_cases h : i % 2 = 0 <;> simp [h] at he

theorem systemIpvs_refines_web :
    let w := runPasses (.system (fun _ => none) (fun n => n) fun _ => true) {}
      [(true, webSnapshot)] {}
    let r := runCalls libipvsTexts 36 everyOther 0 {} w.calls
    r.2 = .ok () ∧ Alike r.1 w.kernel := by
  have hplain : ∀ pass ∈ [(true, webSnapshot)], ∀ item ∈ pass.2, PlainPort item.1 := by
    intro pass hpass item hitem
    obtain rfl := List.mem_singleton.mp hpass
    obtain rfl := List.mem_singleton.mp hitem
    exact ⟨rfl, fun t ht => (by cases ht)⟩
  obtain ⟨hdone, -, hruns⟩ := systemIpvs_refines {} rfl (fun _ => none) (fun n => n) (fun _ => true)
    [(true, webSnapshot)] hplain libipvsTexts 36 everyOther everyOther_truthful
  have hok := hruns fun _ => rfl
  exact ⟨hok, hdone hok⟩

end Sample

end KubeRouter.Proxy
