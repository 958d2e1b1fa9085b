/-
  The BGP policy of a node, read from its annotations (`routing/src/bgp_policy.rs`).

  The communities, the AS-path prepend and the rejected prefixes are read together; the first
  malformed value of the export annotations is the result. `parseNet` is `from_str` of `IpNet`.

  Proved:
  * `fromAnnotations_isOk_iff`: when the annotations are read.
  * `fromAnnotations_eq_ok_iff`: what they give.
-/
import KubeRouter.Common.Ip
import KubeRouter.Common.Text
import KubeRouter.Lib.Collect

namespace KubeRouter.Routing

open Text

structure PolicyParseError where
  value : String
deriving DecidableEq, Repr

/-- `map_err`: a value, or the error that names it. -/
def orPolicyError {α : Type} (value : String) : Option α → Except PolicyParseError α
  | some a => .ok a
  | none => .error ⟨value⟩

/-- One community: `asn:value` or a plain number. -/
def parseCommunity (s : List Char) : Except PolicyParseError UInt32 :=
  let s := trim s
  match Split.once (· == ':') s with
  | some (hi, lo) => do
    let high ← orPolicyError ("community high part: " ++ String.ofList hi) (parseU16 hi)
    let low ← orPolicyError ("community low part: " ++ String.ofList lo) (parseU16 lo)
    return high.toUInt32 <<< 16 ||| low.toUInt32
  | none => orPolicyError ("community: " ++ String.ofList s) (parseU32 s)

theorem parseCommunity_ok {s : List Char} {v : UInt32} (h : parseCommunity s = .ok v) :
    (∃ hi lo, Split.once (· == ':') (trim s) = some (hi, lo) ∧ (parseU16 hi).isSome = true ∧
      (parseU16 lo).isSome = true) ∨
    Split.once (· == ':') (trim s) = none ∧ (parseU32 (trim s)).isSome = true := by
  unfold parseCommunity at h
  dsimp only at h
  split at h
  · next hi lo hcut =>
    refine .inl ⟨hi, lo, hcut, ?_⟩
    cases hhi : parseU16 hi with
    | none =>
      rw [hhi] at h
      cases h
    | some high =>
      cases hlo : parseU16 lo with
      | none =>
        rw [hhi, hlo] at h
        cases h
      | some low => exact ⟨rfl, rfl⟩
  · next hcut =>
    refine .inr ⟨hcut, ?_⟩
    cases hnum : parseU32 (trim s) with
    | none =>
      rw [hnum] at h
      cases h
    | some n => rfl

/-- There is no blank in a community. -/
theorem blank_not_mem_of_parseCommunity {s : List Char} {v : UInt32}
    (h : parseCommunity s = .ok v) : ' ' ∉ trim s := by
  have hnumber : ∀ {limit : Nat} {text : List Char}, (parseUnsigned limit text).isSome = true →
      ' ' ∉ text := by
    intro limit text hsome hin
    obtain ⟨n, hn⟩ := Option.isSome_iff_exists.mp hsome
    exact absurd (parseUnsigned_chars hn ' ' hin) (by decide)
  obtain ⟨hi, lo, hcut, hhi, hlo⟩ | ⟨-, hnum⟩ := parseCommunity_ok h
  · obtain ⟨c, heq, hc, -⟩ := Split.once_eq_some_iff.mp hcut
    rw [heq, List.mem_append, List.mem_cons]
    rintro (hin | hin | hin)
    · exact hnumber (by simpa [parseU16] using hhi) hin
    · rw [← hin] at hc
      cases hc
    · exact hnumber (by simpa [parseU16] using hlo) hin
  · exact hnumber (by simpa [parseU32] using hnum)

/-- The entries of a list with commas, without the blanks around them and the empty ones. -/
def commaEntries (s : List Char) : List (List Char) :=
  ((s.splitOn ',').map trim).filter (!·.isEmpty)

def parseCommunities (s : List Char) : Except PolicyParseError (List UInt32) :=
  (commaEntries s).mapM parseCommunity

def parseImportReject (parseNet : List Char → Option IpNet) (s : List Char) : List IpNet :=
  (commaEntries s).filterMap parseNet

structure BgpPolicyConfig where
  communities : List UInt32 := []
  pathPrepend : Option (UInt32 × UInt8) := none
  importReject : List IpNet := []
deriving DecidableEq, Repr

/-- The AS-path prepend: the repeat count is one when it is not given. -/
def parsePrepend (prependAs prependRepeat : Option (List Char)) :
    Except PolicyParseError (Option (UInt32 × UInt8)) :=
  match prependAs with
  | some text => do
    let asn ← orPolicyError ("path-prepend.as: " ++ String.ofList text) (parseU32 (trim text))
    let times ← match prependRepeat with
      | some r => orPolicyError "path-prepend.repeat-n" (parseU8 (trim r))
      | none => pure 1
    return if times > 0 then some (asn, times) else none
  | none => return none

/-- The communities, none when they are not given. -/
def communitiesOf : Option (List Char) → Except PolicyParseError (List UInt32)
  | some s => parseCommunities s
  | none => .ok []

theorem parsePrepend_eq_ok {prependAs prependRepeat : Option (List Char)}
    {prep : Option (UInt32 × UInt8)} (h : parsePrepend prependAs prependRepeat = .ok prep) :
    (prependAs = none ∧ prep = none) ∨
      ∃ text asn times, prependAs = some text ∧ parseU32 (trim text) = some asn ∧
        (prependRepeat = none ∧ times = 1 ∨
          ∃ r, prependRepeat = some r ∧ parseU8 (trim r) = some times) ∧
        prep = if times > 0 then some (asn, times) else none := by
  unfold parsePrepend at h
  cases prependAs with
  | none => exact .inl ⟨rfl, (Except.ok.inj h).symm⟩
  | some text =>
    right
    cases hasn : parseU32 (trim text) with
    | none =>
      simp only [hasn, orPolicyError] at h
      cases h
    | some asn =>
      cases prependRepeat with
      | none =>
        simp only [hasn, orPolicyError] at h
        exact ⟨text, asn, 1, rfl, hasn, .inl ⟨rfl, rfl⟩, (Except.ok.inj h).symm⟩
      | some r =>
        cases htimes : parseU8 (trim r) with
        | none =>
          simp only [hasn, htimes, orPolicyError] at h
          cases h
        | some times =>
          simp only [hasn, htimes, orPolicyError] at h
          exact ⟨text, asn, times, rfl, hasn, .inr ⟨r, rfl, htimes⟩, (Except.ok.inj h).symm⟩

namespace BgpPolicyConfig

def fromAnnotations (parseNet : List Char → Option IpNet)
    (communities prependAs prependRepeat importReject : Option (List Char)) :
    Except PolicyParseError BgpPolicyConfig := do
  let communities ← communitiesOf communities
  let importReject := (importReject.map (parseImportReject parseNet)).getD []
  let pathPrepend ← parsePrepend prependAs prependRepeat
  return { communities, pathPrepend, importReject }

/-! ## Well-formed annotations -/

/-- Every entry of the communities is one, and so are the prepend values that are given. -/
def ExportWellFormed (communities prependAs prependRepeat : Option (List Char)) : Prop :=
  (∀ s, communities = some s → ∀ e ∈ commaEntries s, ∃ v, parseCommunity e = .ok v) ∧
    ∀ text, prependAs = some text → (parseU32 (trim text)).isSome = true ∧
      ∀ r, prependRepeat = some r → (parseU8 (trim r)).isSome = true

section

variable {parseNet : List Char → Option IpNet}
  {communities prependAs prependRepeat importReject : Option (List Char)}

theorem fromAnnotations_eq_ok_iff {policy : BgpPolicyConfig} :
    fromAnnotations parseNet communities prependAs prependRepeat importReject = .ok policy ↔
      communitiesOf communities = .ok policy.communities ∧
        parsePrepend prependAs prependRepeat = .ok policy.pathPrepend ∧
          policy.importReject = (importReject.map (parseImportReject parseNet)).getD [] := by
  unfold fromAnnotations
  cases hcomm : communitiesOf communities with
  | error e => simp [bind, Except.bind]
  | ok cs =>
    cases hprep : parsePrepend prependAs prependRepeat with
    | error e => simp [bind, Except.bind]
    | ok prep =>
      obtain ⟨cs', prep', reject⟩ := policy
      simp [bind, Except.bind, pure, Except.pure]
      exact fun _ _ => eq_comm

theorem parsePrepend_isOk_iff :
    (∃ prep, parsePrepend prependAs prependRepeat = .ok prep) ↔
      ∀ text, prependAs = some text → (parseU32 (trim text)).isSome = true ∧
        ∀ r, prependRepeat = some r → (parseU8 (trim r)).isSome = true := by
  unfold parsePrepend
  cases prependAs with
  | none => simp [pure, Except.pure]
  | some text =>
    cases hasn : parseU32 (trim text) with
    | none => simp [hasn, orPolicyError, bind, Except.bind]
    | some asn =>
      cases prependRepeat with
      | none => simp [hasn, orPolicyError, bind, Except.bind, pure, Except.pure]
      | some r =>
        cases htimes : parseU8 (trim r) <;>
          simp [hasn, htimes, orPolicyError, bind, Except.bind, pure, Except.pure]

theorem communitiesOf_isOk_iff :
    (∃ cs, communitiesOf communities = .ok cs) ↔
      ∀ s, communities = some s → ∀ e ∈ commaEntries s, ∃ v, parseCommunity e = .ok v := by
  cases communities with
  | none => simp [communitiesOf]
  | some s =>
    simp only [Option.some.injEq, forall_eq']
    exact Collect.mapM_isOk_iff

/-- The annotations are read exactly when the export annotations are well-formed. -/
theorem fromAnnotations_isOk_iff (parseNet : List Char → Option IpNet)
    (importReject : Option (List Char)) :
    (∃ policy, fromAnnotations parseNet communities prependAs prependRepeat importReject =
      .ok policy) ↔ ExportWellFormed communities prependAs prependRepeat := by
  unfold ExportWellFormed
  rw [← communitiesOf_isOk_iff, ← parsePrepend_isOk_iff]
  simp only [fromAnnotations_eq_ok_iff]
  constructor
  · rintro ⟨policy, hcomm, hprep, -⟩
    exact ⟨⟨_, hcomm⟩, _, hprep⟩
  · rintro ⟨⟨cs, hcomm⟩, prep, hprep⟩
    exact ⟨⟨cs, prep, _⟩, hcomm, hprep, rfl⟩

end

end BgpPolicyConfig

end KubeRouter.Routing
