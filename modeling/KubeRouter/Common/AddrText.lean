/-
  The text of an address tells the address (`Display` of `std::net::IpAddr`).

  A text is cut at its separators. The dotted quad gives back four numbers. An IPv6 text that
  holds a dot is IPv4-mapped; any other one is cut at its colons into hexadecimal numbers, with
  an empty part where a run of zero segments was folded. The numbers in front of the first and
  behind the last empty part are the segments outside the run, and eight segments in all leave
  one length for the run.

  Proved:
  * `toText_injective`: no two addresses have the same text.
-/
import Std.Data.String.ToNat
import KubeRouter.Common.Ip

namespace KubeRouter

namespace IpAddr

/-! ## Numbers -/

theorem digitChar_injective {m n : Nat} (hm : m < 16) (hn : n < 16)
    (h : Nat.digitChar m = Nat.digitChar n) : m = n := by
  have hall : ∀ m < 16, ∀ n < 16, Nat.digitChar m = Nat.digitChar n → m = n := by decide
  exact hall m hm n hn h

theorem hexDigits_injective : Function.Injective (Nat.toDigits 16) := by
  intro m
  induction m using Nat.strongRecOn with
  | ind m ih =>
    intro n h
    rw [Nat.toDigits_eq_if (by decide), Nat.toDigits_eq_if (n := n) (by decide)] at h
    by_cases hm : m < 16
    · rw [if_pos hm] at h
      by_cases hn : n < 16
      · rw [if_pos hn, List.cons.injEq] at h
        exact digitChar_injective hm hn h.1
      · rw [if_neg hn] at h
        have hlen := congrArg List.length h
        have hpos : 0 < (Nat.toDigits 16 (n / 16)).length := Nat.length_toDigits_pos
        simp at hlen
    · rw [if_neg hm] at h
      by_cases hn : n < 16
      · rw [if_pos hn] at h
        have hlen := congrArg List.length h
        simp at hlen
      · rw [if_neg hn] at h
        obtain ⟨hdiv, hmod⟩ := List.append_inj' h rfl
        have hdiv : m / 16 = n / 16 := ih (m / 16) (by omega) hdiv
        have hmod : m % 16 = n % 16 :=
          digitChar_injective (Nat.mod_lt m (by decide)) (Nat.mod_lt n (by decide))
            (List.cons.inj hmod).1
        omega

/-! ## Dotted quads -/

def octets (a : BitVec 32) : List Nat := [24, 16, 8, 0].map fun i => (a >>> i).toNat % 256

theorem octets_injective : Function.Injective octets := by
  intro a b h
  simp only [octets, List.map_cons, List.map_nil, List.cons.injEq, and_true,
    BitVec.toNat_ushiftRight, Nat.shiftRight_eq_div_pow] at h
  have ha := a.isLt
  have hb := b.isLt
  exact BitVec.eq_of_toNat_eq (by omega)

theorem toList_v4Text (a : BitVec 32) :
    (v4Text a).toList = ['.'].intercalate ((octets a).map (Nat.toDigits 10)) := by
  unfold v4Text octets
  rw [String.toList_intercalate, List.map_map, List.map_map]
  have hdot : ".".toList = ['.'] := rfl
  rw [hdot]
  congr 1
  exact List.map_congr_left fun i _ => Nat.toList_repr

theorem not_mem_toDigits {n : Nat} {c : Char} (hc : c.isDigit = false) : c ∉ Nat.toDigits 10 n := by
  intro h
  rw [Nat.isDigit_of_mem_toDigits (by decide) (by decide) h] at hc
  cases hc

theorem splitOn_v4Text (a : BitVec 32) :
    (v4Text a).toList.splitOn '.' = (octets a).map (Nat.toDigits 10) := by
  rw [toList_v4Text]
  refine List.splitOn_intercalate '.' (fun l hl => ?_) (by simp [octets])
  obtain ⟨n, _, rfl⟩ := List.mem_map.mp hl
  exact not_mem_toDigits rfl

theorem decDigits_injective : Function.Injective (Nat.toDigits 10) := by
  intro m n h
  rw [← Nat.ofDigitChars_ten_toDigits (n := m), h, Nat.ofDigitChars_ten_toDigits]

theorem v4Text_injective : Function.Injective v4Text := by
  intro a b h
  have hsplit : (octets a).map (Nat.toDigits 10) = (octets b).map (Nat.toDigits 10) := by
    rw [← splitOn_v4Text, ← splitOn_v4Text, h]
  exact octets_injective (List.map_injective_iff.mpr decDigits_injective hsplit)

theorem mem_of_mem_intercalate {c : Char} {sep : List Char} {l : List (List Char)}
    (h : c ∈ sep.intercalate l) : c ∈ sep ∨ ∃ x ∈ l, c ∈ x := by
  induction l with
  | nil => exact absurd h List.not_mem_nil
  | cons x l ih =>
    cases l with
    | nil =>
      rw [List.intercalate_singleton] at h
      exact Or.inr ⟨x, List.mem_cons_self, h⟩
    | cons y l =>
      rw [List.intercalate_cons_cons, List.mem_append, List.mem_append] at h
      obtain (h | h) | h := h
      · exact Or.inr ⟨x, List.mem_cons_self, h⟩
      · exact Or.inl h
      · exact (ih h).imp_right fun ⟨z, hz, hc⟩ => ⟨z, List.mem_cons_of_mem x hz, hc⟩

theorem not_mem_v4Text {c : Char} (hdigit : c.isDigit = false) (hdot : c ≠ '.') (a : BitVec 32) :
    c ∉ (v4Text a).toList := by
  intro h
  rw [toList_v4Text] at h
  obtain h | ⟨l, hl, h⟩ := mem_of_mem_intercalate h
  · exact hdot (List.mem_singleton.mp h)
  · obtain ⟨n, _, rfl⟩ := List.mem_map.mp hl
    exact not_mem_toDigits hdigit h

theorem colon_not_mem_v4Text (a : BitVec 32) : ':' ∉ (v4Text a).toList :=
  not_mem_v4Text rfl (by decide) a

theorem dot_mem_v4Text (a : BitVec 32) : '.' ∈ (v4Text a).toList := by
  rw [toList_v4Text]
  simp [octets, List.intercalate]

/-! ## Segments -/

/-- One more segment of two numbers that agree above it. -/
theorem div_eq_of_segment {m n i : Nat} (hhigh : m / 2 ^ (i + 16) = n / 2 ^ (i + 16))
    (hseg : m / 2 ^ i % 65536 = n / 2 ^ i % 65536) : m / 2 ^ i = n / 2 ^ i := by
  rw [Nat.pow_add, ← Nat.div_div_eq_div_mul, ← Nat.div_div_eq_div_mul] at hhigh
  omega

theorem segments_injective : Function.Injective segments := by
  intro a b h
  simp only [segments, List.map_cons, List.map_nil, List.cons.injEq, and_true,
    BitVec.toNat_ushiftRight, Nat.shiftRight_eq_div_pow] at h
  obtain ⟨h7, h6, h5, h4, h3, h2, h1, h0⟩ := h
  have hhigh : a.toNat / 2 ^ 128 = b.toNat / 2 ^ 128 := by
    rw [Nat.div_eq_of_lt a.isLt, Nat.div_eq_of_lt b.isLt]
  have hlow := div_eq_of_segment (div_eq_of_segment (div_eq_of_segment (div_eq_of_segment
    (div_eq_of_segment (div_eq_of_segment (div_eq_of_segment (div_eq_of_segment hhigh h7) h6) h5)
      h4) h3) h2) h1) h0
  rw [Nat.pow_zero, Nat.div_one, Nat.div_one] at hlow
  exact BitVec.eq_of_toNat_eq hlow

theorem length_segments (a : BitVec 128) : (segments a).length = 8 := rfl

/-- The body of the scan for runs of zero segments. -/
def scanZeros (state : (Nat × Nat) × (Nat × Nat)) (item : Nat × Nat) :
    (Nat × Nat) × (Nat × Nat) :=
  if item.1 == 0 then
    let cur := if state.2.2 == 0 then (item.2, 1) else (state.2.1, state.2.2 + 1)
    (if cur.2 > state.1.2 then cur else state.1, cur)
  else (state.1, (0, 0))

/-- The segments from `run.1` on, `run.2` of them, are there and are zero. -/
def ZeroRun (segs : List Nat) (run : Nat × Nat) : Prop :=
  ∀ i, run.1 ≤ i → i < run.1 + run.2 → segs[i]? = some 0

/-- The state of the scan behind `segs`: the best run, and the one that ends here. -/
structure Scanned (segs : List Nat) (state : (Nat × Nat) × (Nat × Nat)) : Prop where
  best : ZeroRun segs state.1
  cur : ZeroRun segs state.2
  ends : state.2.2 = 0 ∨ state.2.1 + state.2.2 = segs.length

theorem zeroRun_empty (segs : List Nat) : ZeroRun segs (0, 0) := by
  intro i hi hlt
  dsimp only at hlt
  omega

theorem ZeroRun.append {segs : List Nat} {run : Nat × Nat} (h : ZeroRun segs run) (seg : Nat) :
    ZeroRun (segs ++ [seg]) run := by
  intro i hi hlt
  have hrun := h i hi hlt
  rw [List.getElem?_append_left (List.getElem?_eq_some_iff.mp hrun).1]
  exact hrun

theorem scanned_step {segs : List Nat} {state : (Nat × Nat) × (Nat × Nat)}
    (h : Scanned segs state) (seg : Nat) :
    Scanned (segs ++ [seg]) (scanZeros state (seg, segs.length)) := by
  unfold scanZeros
  by_cases hseg : seg = 0
  · subst hseg
    -- the run that ends here takes the new segment
    have hlast : (segs ++ [0])[segs.length]? = some 0 := by simp
    have hcur : ZeroRun (segs ++ [0])
        (if state.2.2 == 0 then (segs.length, 1) else (state.2.1, state.2.2 + 1)) ∧
        (if state.2.2 == 0 then (segs.length, 1) else (state.2.1, state.2.2 + 1)).1 +
          (if state.2.2 == 0 then (segs.length, 1) else (state.2.1, state.2.2 + 1)).2 =
            (segs ++ [0]).length := by
      by_cases hzero : state.2.2 = 0
      · simp only [hzero, BEq.rfl, if_true, List.length_append, List.length_singleton, and_true]
        intro i hi hlt
        have hi : i = segs.length := by
          dsimp only at hi hlt
          omega
        rw [hi]
        exact hlast
      · have hends := h.ends.resolve_left hzero
        have hne : (state.2.2 == 0) = false := by simpa using hzero
        simp only [hne, Bool.false_eq_true, if_false, List.length_append, List.length_singleton]
        refine ⟨fun i hi hlt => ?_, by omega⟩
        by_cases hi' : i < segs.length
        · exact h.cur.append 0 i hi (by omega)
        · have hi : i = segs.length := by
            dsimp only at hi hlt
            omega
          rw [hi]
          exact hlast
    generalize (if state.2.2 == 0 then (segs.length, 1) else (state.2.1, state.2.2 + 1)) = cur at *
    simp only [BEq.rfl, if_true]
    refine ⟨?_, hcur.1, Or.inr hcur.2⟩
    dsimp only
    split
    · exact hcur.1
    · exact h.best.append 0
  · have hne : (seg == 0) = false := by simpa using hseg
    simp only [hne, Bool.false_eq_true, if_false]
    exact ⟨h.best.append seg, zeroRun_empty _, Or.inl rfl⟩

theorem scanned_zipIdx (segs : List Nat) :
    Scanned segs (segs.zipIdx.foldl scanZeros ((0, 0), (0, 0))) := by
  induction segs using List.reverseRecOn with
  | nil => exact ⟨zeroRun_empty _, zeroRun_empty _, Or.inl rfl⟩
  | append_singleton segs seg ih =>
    rw [List.zipIdx_append, List.foldl_append]
    simp only [List.zipIdx_singleton, Nat.zero_add, List.foldl_cons, List.foldl_nil]
    exact scanned_step ih seg

/-- The segments around the run that the text folds. -/
theorem segs_eq_around (segs : List Nat) :
    segs = segs.take (longestZeros segs).1 ++ (List.replicate (longestZeros segs).2 0 ++
      segs.drop ((longestZeros segs).1 + (longestZeros segs).2)) := by
  have hrun : ZeroRun segs (longestZeros segs) := (scanned_zipIdx segs).best
  generalize longestZeros segs = run at hrun ⊢
  obtain ⟨start, len⟩ := run
  have hmid : (segs.drop start).take len = List.replicate len 0 := by
    refine List.ext_getElem? fun i => ?_
    rw [List.getElem?_take, List.getElem?_replicate, List.getElem?_drop]
    by_cases hi : i < len
    · rw [if_pos hi, if_pos hi]
      exact hrun (start + i) (Nat.le_add_right _ _) (by dsimp only; omega)
    · rw [if_neg hi, if_neg hi]
  rw [← hmid, ← List.drop_drop, List.take_append_drop, List.take_append_drop]

/-! ## IPv6 texts -/

theorem toList_hexJoin (segs : List Nat) :
    (hexJoin segs).toList = [':'].intercalate (segs.map (Nat.toDigits 16)) := by
  unfold hexJoin
  rw [String.toList_intercalate, List.map_map]
  have hcolon : ":".toList = [':'] := rfl
  rw [hcolon]
  congr 1
  exact List.map_congr_left fun seg _ => String.toList_ofList

theorem not_mem_hexDigits {n : Nat} {c : Char} (hc : ∀ d < 16, Nat.digitChar d ≠ c) :
    c ∉ Nat.toDigits 16 n := by
  induction n using Nat.strongRecOn with
  | ind n ih =>
    rw [Nat.toDigits_eq_if (by decide)]
    by_cases hn : n < 16
    · rw [if_pos hn, List.mem_singleton]
      exact fun h => hc n hn h.symm
    · rw [if_neg hn, List.mem_append, List.mem_singleton]
      rintro (h | h)
      · exact ih (n / 16) (by omega) h
      · exact hc (n % 16) (Nat.mod_lt n (by decide)) h.symm

theorem not_mem_hexJoin {c : Char} (hdigit : ∀ d < 16, Nat.digitChar d ≠ c) (hcolon : c ≠ ':')
    (segs : List Nat) : c ∉ (hexJoin segs).toList := by
  intro h
  rw [toList_hexJoin] at h
  obtain h | ⟨l, hl, h⟩ := mem_of_mem_intercalate h
  · exact hcolon (List.mem_singleton.mp h)
  · obtain ⟨n, _, rfl⟩ := List.mem_map.mp hl
    exact not_mem_hexDigits hdigit h

/-- The parts of the text of some segments between the colons. -/
def hexParts (segs : List Nat) : List (List Char) :=
  if segs = [] then [[]] else segs.map (Nat.toDigits 16)

theorem splitOn_hexJoin (segs : List Nat) : (hexJoin segs).toList.splitOn ':' = hexParts segs := by
  rw [toList_hexJoin]
  unfold hexParts
  split
  · next h =>
    rw [h]
    rfl
  · next h =>
    refine List.splitOn_intercalate ':' (fun l hl => ?_) (by simpa using h)
    obtain ⟨n, _, rfl⟩ := List.mem_map.mp hl
    exact not_mem_hexDigits (by decide)

theorem hexParts_reverse (segs : List Nat) : (hexParts segs).reverse = hexParts segs.reverse := by
  unfold hexParts
  by_cases h : segs = []
  · simp [h]
  · simp [h]

/-- The numbers in front of the first empty part. -/
theorem takeWhile_hexParts (segs : List Nat) (rest : List (List Char)) :
    (hexParts segs ++ [] :: rest).takeWhile (fun l => !l.isEmpty) = segs.map (Nat.toDigits 16) := by
  unfold hexParts
  by_cases h : segs = []
  · simp [h]
  · rw [if_neg h, List.takeWhile_append_of_pos]
    · simp
    · intro l hl
      obtain ⟨n, _, rfl⟩ := List.mem_map.mp hl
      simp

theorem empty_not_mem_map (segs : List Nat) : [] ∉ segs.map (Nat.toDigits 16) := by
  intro h
  obtain ⟨n, _, hn⟩ := List.mem_map.mp h
  exact Nat.toDigits_ne_nil hn

theorem splitOn_colons (l m : List Char) :
    (l ++ [':', ':'] ++ m).splitOn ':' = l.splitOn ':' ++ [] :: m.splitOn ':' := by
  rw [List.append_assoc]
  show (l ++ ':' :: ([] ++ ':' :: m)).splitOn ':' = _
  rw [List.splitOn_append_cons_of_beq _ _ BEq.rfl, List.splitOn_append_cons_of_beq _ _ BEq.rfl]
  rfl

/-- An IPv4-mapped address. -/
def isMapped (a : BitVec 128) : Bool := (segments a).take 6 == [0, 0, 0, 0, 0, 0xffff]

/-- The parts between the colons of the text of an address that is not IPv4-mapped. -/
theorem splitOn_v6Text {a : BitVec 128} (h : isMapped a = false) :
    (v6Text a).toList.splitOn ':' =
      if (longestZeros (segments a)).2 > 1 then
        hexParts ((segments a).take (longestZeros (segments a)).1) ++ [] ::
          hexParts ((segments a).drop
            ((longestZeros (segments a)).1 + (longestZeros (segments a)).2))
      else (segments a).map (Nat.toDigits 16) := by
  unfold isMapped at h
  unfold v6Text
  simp only [h, Bool.false_eq_true, if_false]
  split
  · have hcolons : "::".toList = [':', ':'] := rfl
    rw [String.toList_append, String.toList_append, hcolons, splitOn_colons, splitOn_hexJoin,
      splitOn_hexJoin]
  · exact (splitOn_hexJoin _).trans (if_neg (by simp [segments]))

/-- Addresses that are not IPv4-mapped. -/
theorem plain_injective {a b : BitVec 128} (ha : isMapped a = false) (hb : isMapped b = false)
    (h : v6Text a = v6Text b) : a = b := by
  have hparts : (v6Text a).toList.splitOn ':' = (v6Text b).toList.splitOn ':' := by rw [h]
  rw [splitOn_v6Text ha, splitOn_v6Text hb] at hparts
  have hmap := List.map_injective_iff.mpr hexDigits_injective
  have hsegsA := segs_eq_around (segments a)
  have hsegsB := segs_eq_around (segments b)
  have hlenA := congrArg List.length hsegsA
  have hlenB := congrArg List.length hsegsB
  split at hparts
  · split at hparts
    · -- both fold a run: the segments in front of it and behind it agree
      have hpre := congrArg (List.takeWhile fun l => !l.isEmpty) hparts
      rw [takeWhile_hexParts, takeWhile_hexParts] at hpre
      have hpre := hmap hpre
      have hpost := congrArg (fun l => List.takeWhile (fun l => !l.isEmpty) l.reverse) hparts
      simp only [List.reverse_append, List.reverse_cons, List.append_assoc, List.singleton_append,
        hexParts_reverse, takeWhile_hexParts] at hpost
      have hpost := List.reverse_injective (hmap hpost)
      have hrun : (longestZeros (segments a)).2 = (longestZeros (segments b)).2 := by
        rw [List.length_append, List.length_append, List.length_replicate, hpre, hpost,
          length_segments] at hlenA
        rw [List.length_append, List.length_append, List.length_replicate, length_segments] at hlenB
        omega
      apply segments_injective
      rw [hsegsA, hsegsB, hpre, hpost, hrun]
    · refine absurd ?_ (empty_not_mem_map (segments b))
      rw [← hparts]
      simp
  · split at hparts
    · refine absurd ?_ (empty_not_mem_map (segments a))
      rw [hparts]
      simp
    · exact segments_injective (hmap hparts)

theorem v6Text_mapped {a : BitVec 128} (h : isMapped a = true) :
    v6Text a = "::ffff:" ++ v4Text (a.setWidth 32) := by
  unfold isMapped at h
  unfold v6Text
  simp only [h, if_true]

theorem mapped_injective {a b : BitVec 128} (ha : isMapped a = true) (hb : isMapped b = true)
    (h : v6Text a = v6Text b) : a = b := by
  rw [v6Text_mapped ha, v6Text_mapped hb] at h
  have hlow : a.setWidth 32 = b.setWidth 32 := v4Text_injective (String.append_right_inj _ |>.mp h)
  have hlow := congrArg BitVec.toNat hlow
  rw [BitVec.toNat_setWidth, BitVec.toNat_setWidth] at hlow
  unfold isMapped segments at ha hb
  simp only [List.map_cons, List.map_nil, List.take_succ_cons, List.take_zero, beq_iff_eq,
    List.cons.injEq, and_true, BitVec.toNat_ushiftRight, Nat.shiftRight_eq_div_pow] at ha hb
  have hlta := a.isLt
  have hltb := b.isLt
  exact BitVec.eq_of_toNat_eq (by omega)

theorem not_mem_v6Text {c : Char} (hdigit : ∀ d < 16, Nat.digitChar d ≠ c) (hcolon : c ≠ ':')
    {a : BitVec 128} (h : isMapped a = false) : c ∉ (v6Text a).toList := by
  have hjoin := not_mem_hexJoin hdigit hcolon
  unfold isMapped at h
  unfold v6Text
  simp only [h, Bool.false_eq_true, if_false]
  split
  · rw [String.toList_append, String.toList_append, List.mem_append, List.mem_append]
    rintro ((hc | hc) | hc)
    · exact hjoin _ hc
    · simp at hc
      exact hcolon hc
    · exact hjoin _ hc
  · exact hjoin _

theorem dot_not_mem_v6Text {a : BitVec 128} (h : isMapped a = false) : '.' ∉ (v6Text a).toList :=
  not_mem_v6Text (by decide) (by decide) h

theorem colon_mem_v6Text (a : BitVec 128) : ':' ∈ (v6Text a).toList := by
  by_contra hcolon
  cases h : isMapped a with
  | true =>
    rw [v6Text_mapped h, String.toList_append, List.mem_append] at hcolon
    exact hcolon (Or.inl (by decide))
  | false =>
    -- without a colon the text would be one part
    have hone := congrArg List.length (List.splitOn_eq_singleton hcolon)
    rw [splitOn_v6Text h] at hone
    split at hone
    · have hpos : 0 < (hexParts ((segments a).take (longestZeros (segments a)).1)).length := by
        unfold hexParts
        split
        · exact Nat.one_pos
        · next hne =>
          rw [List.length_map]
          exact List.length_pos_iff.mpr hne
      rw [List.length_append, List.length_cons, List.length_singleton] at hone
      omega
    · rw [List.length_map, length_segments] at hone
      cases hone

theorem v6Text_injective : Function.Injective v6Text := by
  intro a b h
  -- only the text of an IPv4-mapped address has a dot
  have hdiff : ∀ a b : BitVec 128, isMapped a = true → isMapped b = false →
      v6Text a ≠ v6Text b := by
    intro a b ha hb hab
    have hdot := dot_not_mem_v6Text hb
    rw [← hab, v6Text_mapped ha, String.toList_append] at hdot
    exact hdot (List.mem_append_right _ (dot_mem_v4Text _))
  cases ha : isMapped a with
  | true =>
    cases hb : isMapped b with
    | true => exact mapped_injective ha hb h
    | false => exact absurd h (hdiff a b ha hb)
  | false =>
    cases hb : isMapped b with
    | true => exact absurd h.symm (hdiff b a hb ha)
    | false => exact plain_injective ha hb h

theorem v4Text_ne_v6Text (a : BitVec 32) (b : BitVec 128) : v4Text a ≠ v6Text b := by
  intro h
  have hcolon := colon_mem_v6Text b
  rw [← h] at hcolon
  exact colon_not_mem_v4Text a hcolon

theorem toText_injective : Function.Injective toText := by
  intro x y h
  cases x with
  | V4 a =>
    cases y with
    | V4 b => exact congrArg V4 (v4Text_injective h)
    | V6 b => exact absurd h (v4Text_ne_v6Text a b)
  | V6 a =>
    cases y with
    | V4 b => exact absurd h.symm (v4Text_ne_v6Text b a)
    | V6 b => exact congrArg V6 (v6Text_injective h)

/-- A text has hexadecimal digits, dots and colons only. -/
theorem not_mem_toText {c : Char} (hdigit : c.isDigit = false)
    (hhex : ∀ d < 16, Nat.digitChar d ≠ c)
    (hdot : c ≠ '.') (hcolon : c ≠ ':') (ip : IpAddr) : c ∉ ip.toText.toList := by
  cases ip with
  | V4 a => exact not_mem_v4Text hdigit hdot a
  | V6 a =>
    cases h : isMapped a with
    | true =>
      have hfront : ∀ d ∈ "::ffff:".toList, d = ':' ∨ d = Nat.digitChar 15 := by
        intro d hd
        have hall : ("::ffff:".toList.all fun d => d == ':' || d == Nat.digitChar 15) = true := by
          decide
        simpa only [Bool.or_eq_true, beq_iff_eq] using List.all_eq_true.mp hall d hd
      have htext : (V6 a).toText = "::ffff:" ++ v4Text (a.setWidth 32) := v6Text_mapped h
      rw [htext, String.toList_append, List.mem_append]
      rintro (hc | hc)
      · obtain rfl | rfl := hfront c hc
        · exact hcolon rfl
        · exact hhex 15 (by decide) rfl
      · exact not_mem_v4Text hdigit hdot _ hc
    | false => exact not_mem_v6Text hhex hcolon h

end IpAddr

end KubeRouter
