/-
  `FromStr` of `std::net::IpAddr`.

  A reader takes a value off the front of a text, or fails and takes nothing. An address is read
  as a dotted quad if the text starts with one, else as colon-separated groups: eight of them, or
  a head, `::` and a tail, with a dotted quad in the place of the last two. All of the text has to
  be read.

  Proved:
  * `parse_toText`: an address is read back from its text.
-/
import Mathlib.Data.List.TakeWhile
import KubeRouter.Common.AddrText

namespace KubeRouter

/-! ## Readers -/

/-- What is read, and the text behind it. -/
abbrev Reader (α : Type) := List Char → Option (α × List Char)

namespace Reader

/-- `char::to_digit`. -/
def digitValue (radix : Nat) (c : Char) : Option Nat :=
  let n := if '0' ≤ c ∧ c ≤ '9' then some (c.toNat - '0'.toNat)
    else if 'a' ≤ c ∧ c ≤ 'z' then some (c.toNat - 'a'.toNat + 10)
    else if 'A' ≤ c ∧ c ≤ 'Z' then some (c.toNat - 'A'.toNat + 10)
    else none
  n.filter (· < radix)

def isDigitOf (radix : Nat) (c : Char) : Bool := (digitValue radix c).isSome

/-- The number some digits stand for. -/
def ofDigits (radix : Nat) (digits : List Char) : Nat :=
  digits.foldl (fun n c => n * radix + (digitValue radix c).getD 0) 0

/-- `read_number`: at most `maxDigits` digits, of a number below `limit`. -/
def readNumber (radix maxDigits limit : Nat) (allowZeroPrefix : Bool) : Reader Nat := fun text =>
  let digits := text.takeWhile (isDigitOf radix)
  let n := ofDigits radix digits
  if digits.length > maxDigits then none
  else if digits.isEmpty then none
  else if !allowZeroPrefix && digits.head? == some '0' && digits.length > 1 then none
  else if n < limit then some (n, text.dropWhile (isDigitOf radix)) else none

/-- `read_separator`: the separator stands in front of all but the first value. -/
def readSeparator {α : Type} (sep : Char) (i : Nat) (inner : Reader α) : Reader α := fun text =>
  if i = 0 then inner text
  else match text with
    | c :: rest => if c = sep then inner rest else none
    | [] => none

/-- `read_ipv4_addr`: the four octets. -/
def readOctets : Nat → Nat → Reader (List Nat)
  | _, 0, text => some ([], text)
  | i, left + 1, text => do
    let (octet, rest) ← readSeparator '.' i (readNumber 10 3 256 false) text
    let (octets, rest) ← readOctets (i + 1) left rest
    return (octet :: octets, rest)

/-- The two segments of a dotted quad. -/
def quadGroups : List Nat → List Nat
  | [a, b, c, d] => [a * 256 + b, c * 256 + d]
  | _ => []

/-- `read_groups`: groups from the `i`-th on, at most `left` of them, whether a dotted quad was
among them, and the text behind. -/
def readGroups : Nat → Nat → List Char → List Nat × Bool × List Char
  | _, 0, text => ([], false, text)
  | i, left + 1, text =>
    -- a dotted quad takes two groups
    match (if left = 0 then none else readSeparator ':' i (readOctets 0 4) text) with
    | some (octets, rest) => (quadGroups octets, true, rest)
    | none =>
      match readSeparator ':' i (readNumber 16 4 65536 true) text with
      | some (group, rest) =>
        let (groups, quad, rest) := readGroups (i + 1) left rest
        (group :: groups, quad, rest)
      | none => ([], false, text)

/-- `read_ipv6_addr`: the eight segments. -/
def readSegments : Reader (List Nat) := fun text =>
  let (front, quad, rest) := readGroups 0 8 text
  if front.length = 8 then some (front, rest)
  else if quad then none
  else match rest with
    | ':' :: ':' :: rest =>
      let (back, _, rest) := readGroups 0 (7 - front.length) rest
      some (front ++ List.replicate (8 - front.length - back.length) 0 ++ back, rest)
    | _ => none

end Reader

namespace IpAddr

open Reader

def ofOctetList (octets : List Nat) : BitVec 32 :=
  BitVec.ofNat 32 (octets.foldl (fun n o => n * 256 + o) 0)

def ofSegmentList (segs : List Nat) : BitVec 128 :=
  BitVec.ofNat 128 (segs.foldl (fun n s => n * 65536 + s) 0)

/-- `read_ip_addr`. -/
def readAddr : Reader IpAddr := fun text =>
  match readOctets 0 4 text with
  | some (octets, rest) => some (.V4 (ofOctetList octets), rest)
  | none => (readSegments text).map fun (segs, rest) => (.V6 (ofSegmentList segs), rest)

/-- `IpAddr::from_str`. -/
def parse (text : List Char) : Option IpAddr :=
  match readAddr text with
  | some (ip, []) => some ip
  | _ => none

/-! ## Numbers -/

theorem digitValue_digitChar {radix d : Nat} (hradix : radix ≤ 16) (hd : d < radix) :
    digitValue radix (Nat.digitChar d) = some d := by
  have hbase : ∀ d < 16, ∀ radix ≤ 16, d < radix → digitValue radix (Nat.digitChar d) = some d := by
    decide
  exact hbase d (by omega) radix hradix hd

theorem ofDigits_toDigits {radix : Nat} (hbase : 1 < radix) (hradix : radix ≤ 16) (n : Nat) :
    ofDigits radix (Nat.toDigits radix n) = n := by
  induction n using Nat.strongRecOn with
  | ind n ih =>
    rw [Nat.toDigits_eq_if hbase]
    split
    · next hn =>
      simp [ofDigits, digitValue_digitChar hradix hn]
    · next hn =>
      have hdiv := ih (n / radix) (Nat.div_lt_self (by omega) hbase)
      unfold ofDigits at hdiv ⊢
      rw [List.foldl_append, hdiv, List.foldl_cons, List.foldl_nil,
        digitValue_digitChar hradix (Nat.mod_lt n (by omega)), Option.getD_some,
        Nat.div_add_mod']

theorem isDigitOf_of_mem_toDigits {radix n : Nat} (hbase : 1 < radix) (hradix : radix ≤ 16)
    {c : Char} (hc : c ∈ Nat.toDigits radix n) : isDigitOf radix c = true := by
  induction n using Nat.strongRecOn with
  | ind n ih =>
    rw [Nat.toDigits_eq_if hbase] at hc
    split at hc
    · next hn =>
      rw [List.mem_singleton.mp hc, isDigitOf, digitValue_digitChar hradix hn]
      rfl
    · next hn =>
      obtain hc | hc := List.mem_append.mp hc
      · exact ih (n / radix) (Nat.div_lt_self (by omega) hbase) hc
      · rw [List.mem_singleton.mp hc, isDigitOf,
          digitValue_digitChar hradix (Nat.mod_lt n (by omega))]
        rfl

/-- The text does not start with a digit. -/
def NoDigit (radix : Nat) (text : List Char) : Prop :=
  ∀ c rest, text = c :: rest → isDigitOf radix c = false

theorem noDigit_nil (radix : Nat) : NoDigit radix [] := fun _ _ h => by cases h

theorem noDigit_cons {radix : Nat} {c : Char} (hc : isDigitOf radix c = false) (rest : List Char) :
    NoDigit radix (c :: rest) := by
  intro c' rest' h
  cases h
  exact hc

theorem takeWhile_digits {radix : Nat} {digits rest : List Char}
    (hdigits : ∀ c ∈ digits, isDigitOf radix c = true) (hrest : NoDigit radix rest) :
    (digits ++ rest).takeWhile (isDigitOf radix) = digits ∧
      (digits ++ rest).dropWhile (isDigitOf radix) = rest := by
  rw [List.takeWhile_append_of_pos hdigits, List.dropWhile_append_of_pos hdigits]
  cases rest with
  | nil => simp
  | cons c rest =>
    have hc : ¬isDigitOf radix c = true := by simp [hrest c rest rfl]
    rw [List.takeWhile_cons_of_neg hc, List.dropWhile_cons_of_neg hc, List.append_nil]
    exact ⟨rfl, rfl⟩

/-- A number is read back from its digits. -/
theorem readNumber_toDigits {radix maxDigits limit n : Nat} {allowZeroPrefix : Bool}
    (hbase : 1 < radix) (hradix : radix ≤ 16) (hn : n < limit)
    (hlen : (Nat.toDigits radix n).length ≤ maxDigits)
    (hzero : allowZeroPrefix = true ∨ (Nat.toDigits radix n).head? ≠ some '0' ∨
      (Nat.toDigits radix n).length = 1) {rest : List Char} (hrest : NoDigit radix rest) :
    readNumber radix maxDigits limit allowZeroPrefix (Nat.toDigits radix n ++ rest) =
      some (n, rest) := by
  obtain ⟨htake, hdrop⟩ :=
    takeWhile_digits (fun c => isDigitOf_of_mem_toDigits (n := n) hbase hradix) hrest
  unfold readNumber
  simp only [htake, hdrop, ofDigits_toDigits hbase hradix, if_pos hn]
  rw [if_neg (by omega), if_neg (by simp), if_neg]
  intro hprefix
  simp only [Bool.and_eq_true, Bool.not_eq_true', beq_iff_eq, decide_eq_true_eq] at hprefix
  obtain ⟨⟨hallow, hhead⟩, hlong⟩ := hprefix
  obtain h | h | h := hzero
  · rw [hallow] at h
    cases h
  · exact h hhead
  · omega

theorem readNumber_group {group : Nat} (h : group < 65536) {rest : List Char}
    (hrest : NoDigit 16 rest) :
    readNumber 16 4 65536 true (Nat.toDigits 16 group ++ rest) = some (group, rest) := by
  refine readNumber_toDigits (by decide) (by decide) h ?_ (Or.inl rfl) hrest
  exact (Nat.length_toDigits_le_iff (by decide) (by decide)).mpr h

theorem readNumber_octet {octet : Nat} (h : octet < 256) {rest : List Char}
    (hrest : NoDigit 10 rest) :
    readNumber 10 3 256 false (Nat.toDigits 10 octet ++ rest) = some (octet, rest) := by
  have hform : ∀ octet < 256, (Nat.toDigits 10 octet).length ≤ 3 ∧
      ((Nat.toDigits 10 octet).head? ≠ some '0' ∨ (Nat.toDigits 10 octet).length = 1) := by
    decide +kernel
  obtain ⟨hlen, hzero⟩ := hform octet h
  exact readNumber_toDigits (by decide) (by decide) h hlen (Or.inr hzero) hrest

/-- What is not a digit is no number. -/
theorem readNumber_eq_none {radix maxDigits limit : Nat} {allowZeroPrefix : Bool} {text : List Char}
    (h : NoDigit radix text) : readNumber radix maxDigits limit allowZeroPrefix text = none := by
  have htake : text.takeWhile (isDigitOf radix) = [] := by
    cases text with
    | nil => rfl
    | cons c rest => exact List.takeWhile_cons_of_neg (by simp [h c rest rfl])
  unfold readNumber
  simp [htake]

theorem readNumber_eq_some {radix maxDigits limit n : Nat} {allowZeroPrefix : Bool}
    {text rest : List Char}
    (h : readNumber radix maxDigits limit allowZeroPrefix text = some (n, rest)) :
    ∃ digits, text = digits ++ rest ∧ ∀ c ∈ digits, isDigitOf radix c = true := by
  unfold readNumber at h
  dsimp only at h
  split at h
  · cases h
  · split at h
    · cases h
    · split at h
      · cases h
      · split at h
        · cases h
          exact ⟨text.takeWhile (isDigitOf radix), List.takeWhile_append_dropWhile.symm,
            fun c hc => List.mem_takeWhile_imp hc⟩
        · cases h

theorem readSeparator_first {α : Type} (sep : Char) (inner : Reader α) (text : List Char) :
    readSeparator sep 0 inner text = inner text := rfl

theorem readSeparator_next {α : Type} (sep : Char) (i : Nat) (inner : Reader α) (text : List Char) :
    readSeparator sep (i + 1) inner (sep :: text) = inner text := if_pos rfl

/-! ## Dotted quads -/

/-- The text of the octets behind the `i`-th, with their dots. -/
def quadText (i : Nat) : List Nat → List Char
  | [] => []
  | octet :: octets =>
    (if i = 0 then [] else ['.']) ++ Nat.toDigits 10 octet ++ quadText (i + 1) octets

theorem readSeparator_quadText {α : Type} (inner : Reader α) (i octet : Nat) (octets : List Nat)
    (rest : List Char) : readSeparator '.' i inner (quadText i (octet :: octets) ++ rest) =
      inner (Nat.toDigits 10 octet ++ (quadText (i + 1) octets ++ rest)) := by
  rw [quadText]
  unfold readSeparator
  split
  · rw [List.nil_append, List.append_assoc]
  · rw [List.singleton_append, List.cons_append, List.cons_append, List.append_assoc]
    exact if_pos rfl

theorem readOctets_quadText {octets : List Nat} (h : ∀ o ∈ octets, o < 256) (i : Nat)
    {rest : List Char} (hrest : NoDigit 10 rest) :
    readOctets i octets.length (quadText i octets ++ rest) = some (octets, rest) := by
  induction octets generalizing i with
  | nil => rfl
  | cons octet octets ih =>
    obtain ⟨hoctet, hoctets⟩ := List.forall_mem_cons.mp h
    have hnext : NoDigit 10 (quadText (i + 1) octets ++ rest) := by
      cases octets with
      | nil => exact hrest
      | cons o os => exact noDigit_cons (by decide) _
    rw [List.length_cons, readOctets, readSeparator_quadText, readNumber_octet hoctet hnext]
    simp only [Option.bind_eq_bind, Option.bind_some, ih hoctets (i + 1)]
    rfl

/-- Where no dot comes directly behind digits, there is no dotted quad. -/
theorem readOctets_eq_none {text : List Char}
    (h : ∀ x y, text = x ++ '.' :: y → ∃ c ∈ x, isDigitOf 10 c = false) (left : Nat) :
    readOctets 0 (left + 2) text = none := by
  rw [readOctets]
  cases hfirst : readSeparator '.' 0 (readNumber 10 3 256 false) text with
  | none => rfl
  | some read =>
    obtain ⟨octet, rest⟩ := read
    obtain ⟨digits, rfl, hdigits⟩ := @readNumber_eq_some 10 3 256 octet false text rest hfirst
    have hdot : readSeparator '.' 1 (readNumber 10 3 256 false) rest = none := by
      unfold readSeparator
      rw [if_neg Nat.one_ne_zero]
      cases rest with
      | nil => rfl
      | cons c rest =>
        refine if_neg fun hc => ?_
        obtain ⟨d, hd, hout⟩ := h digits rest (by rw [hc])
        rw [hdigits d hd] at hout
        cases hout
    simp only [Option.bind_eq_bind, Option.bind_some]
    rw [readOctets, Nat.zero_add, hdot]
    rfl

theorem toList_v4Text_quad (a : BitVec 32) : (v4Text a).toList = quadText 0 (octets a) := by
  rw [toList_v4Text]
  simp [octets, quadText, List.intercalate]

theorem octets_lt (a : BitVec 32) : ∀ o ∈ octets a, o < 256 := by
  intro o ho
  obtain ⟨i, -, rfl⟩ := List.mem_map.mp ho
  exact Nat.mod_lt _ (by decide)

theorem ofOctetList_octets (a : BitVec 32) : ofOctetList (octets a) = a := by
  apply BitVec.eq_of_toNat_eq
  have ha := a.isLt
  simp only [ofOctetList, octets, List.map_cons, List.map_nil, List.foldl_cons, List.foldl_nil,
    BitVec.toNat_ofNat, BitVec.toNat_ushiftRight, Nat.shiftRight_eq_div_pow]
  omega

/-! ## Groups -/

/-- The text of the groups behind the `i`-th, with their colons. -/
def groupText (i : Nat) : List Nat → List Char
  | [] => []
  | group :: groups =>
    (if i = 0 then [] else [':']) ++ Nat.toDigits 16 group ++ groupText (i + 1) groups

/-- Behind the groups there is nothing, or a double colon. -/
def AtEnd (rest : List Char) : Prop := rest = [] ∨ ∃ tail, rest = ':' :: ':' :: tail

theorem AtEnd.noDigit {rest : List Char} (h : AtEnd rest) (radix : Nat) (hradix : radix ≤ 16) :
    NoDigit radix rest := by
  obtain rfl | ⟨tail, rfl⟩ := h
  · exact noDigit_nil radix
  · have hcolon : ∀ radix ≤ 16, isDigitOf radix ':' = false := by decide
    exact noDigit_cons (hcolon radix hradix) _

/-- Neither a group nor a dotted quad is read there. -/
theorem AtEnd.readSeparator_eq_none {rest : List Char} (h : AtEnd rest) (i : Nat) {α : Type}
    {inner : Reader α} (hinner : ∀ text, NoDigit 16 text → inner text = none) :
    readSeparator ':' i inner rest = none := by
  unfold readSeparator
  split
  · exact hinner rest (h.noDigit 16 (Nat.le_refl 16))
  · obtain rfl | ⟨tail, rfl⟩ := h
    · rfl
    · exact (if_pos rfl).trans (hinner _ (noDigit_cons (by decide) _))

theorem noDigit_ten_of_sixteen {text : List Char} (h : NoDigit 16 text) : NoDigit 10 text := by
  intro c rest heq
  have hout := h c rest heq
  unfold isDigitOf digitValue at hout ⊢
  rw [Option.isSome_eq_false_iff, Option.isNone_iff_eq_none] at hout ⊢
  rw [Option.filter_eq_none_iff] at hout ⊢
  intro n hn hlt
  refine hout n hn ?_
  simp only [decide_eq_true_eq] at hlt ⊢
  omega

theorem readOctets_of_noDigit {text : List Char} (h : NoDigit 16 text) :
    readOctets 0 4 text = none := by
  rw [readOctets]
  have hnone : readSeparator '.' 0 (readNumber 10 3 256 false) text = none :=
    readNumber_eq_none (noDigit_ten_of_sixteen h)
  rw [hnone]
  rfl

theorem readGroups_atEnd {rest : List Char} (h : AtEnd rest) (i left : Nat) :
    readGroups i left rest = ([], false, rest) := by
  cases left with
  | zero => rfl
  | succ left =>
    rw [readGroups, h.readSeparator_eq_none i fun _ => readOctets_of_noDigit, ite_self,
      h.readSeparator_eq_none i fun _ => readNumber_eq_none]

/-- The text behind a group. -/
theorem noDigit_groupText {rest : List Char} (h : AtEnd rest) (i : Nat) (groups : List Nat) :
    NoDigit 16 (groupText (i + 1) groups ++ rest) := by
  cases groups with
  | nil => exact h.noDigit 16 (Nat.le_refl 16)
  | cons group groups => exact noDigit_cons (by decide) _

/-- A group is not the start of a dotted quad. -/
theorem readOctets_group {group : Nat} {text : List Char}
    (h : text = [] ∨ ∃ tail, text = ':' :: tail) :
    readOctets 0 4 (Nat.toDigits 16 group ++ text) = none := by
  have hdigits : '.' ∉ Nat.toDigits 16 group := not_mem_hexDigits (by decide)
  refine readOctets_eq_none (fun x y hxy => ?_) 2
  obtain rfl | ⟨tail, rfl⟩ := h
  · rw [List.append_nil] at hxy
    exact absurd (hxy ▸ List.mem_append_right x List.mem_cons_self) hdigits
  · -- the dot comes behind the colon
    obtain ⟨m, rfl, hm⟩ | ⟨m, hdig, hm⟩ := List.append_eq_append_iff.mp hxy
    · cases m with
      | nil => cases hm
      | cons c m =>
        cases hm
        exact ⟨':', by simp, by decide⟩
    · cases m with
      | nil => cases hm
      | cons c m =>
        cases hm
        exact absurd (hdig ▸ List.mem_append_right x List.mem_cons_self) hdigits

theorem groupText_head {rest : List Char} (h : AtEnd rest) (i : Nat) (groups : List Nat) :
    groupText (i + 1) groups ++ rest = [] ∨
      ∃ tail, groupText (i + 1) groups ++ rest = ':' :: tail := by
  cases groups with
  | nil =>
    obtain rfl | ⟨tail, rfl⟩ := h
    · exact Or.inl rfl
    · exact Or.inr ⟨_, rfl⟩
  | cons group groups => exact Or.inr ⟨_, rfl⟩

theorem readSeparator_groupText {α : Type} (inner : Reader α) (i group : Nat) (groups : List Nat)
    (rest : List Char) : readSeparator ':' i inner (groupText i (group :: groups) ++ rest) =
      inner (Nat.toDigits 16 group ++ (groupText (i + 1) groups ++ rest)) := by
  rw [groupText]
  unfold readSeparator
  split
  · rw [List.nil_append, List.append_assoc]
  · rw [List.singleton_append, List.cons_append, List.cons_append, List.append_assoc]
    exact if_pos rfl

/-- Groups are read back from their text, as long as there is room for them. -/
theorem readGroups_groupText {groups : List Nat} (hgroups : ∀ g ∈ groups, g < 65536)
    {rest : List Char}
    (hrest : AtEnd rest) (i : Nat) {left : Nat} (hleft : groups.length ≤ left) :
    readGroups i left (groupText i groups ++ rest) = (groups, false, rest) := by
  induction groups generalizing i left with
  | nil => exact readGroups_atEnd hrest i left
  | cons group groups ih =>
    obtain ⟨hgroup, hgroups⟩ := List.forall_mem_cons.mp hgroups
    obtain ⟨left, rfl⟩ : ∃ l, left = l + 1 := ⟨left - 1, by simp at hleft; omega⟩
    rw [readGroups, readSeparator_groupText, readSeparator_groupText,
      readOctets_group (groupText_head hrest i groups), ite_self,
      readNumber_group hgroup (noDigit_groupText hrest i groups)]
    simp only [ih hgroups (i + 1) (Nat.le_of_succ_le_succ hleft)]

theorem toList_hexJoin_groups (segs : List Nat) : (hexJoin segs).toList = groupText 0 segs := by
  -- from the second group on, every one comes with its colon
  have htail : ∀ (groups : List Nat) (i group : Nat),
      [':'].intercalate ((group :: groups).map (Nat.toDigits 16)) =
        Nat.toDigits 16 group ++ groupText (i + 1) groups := by
    intro groups
    induction groups with
    | nil =>
      intro i group
      simp [groupText]
    | cons g groups ih =>
      intro i group
      rw [List.map_cons, List.map_cons, List.intercalate_cons_cons, ← List.map_cons, ih (i + 1) g]
      simp [groupText]
  rw [toList_hexJoin]
  cases segs with
  | nil => rfl
  | cons group groups =>
    rw [htail groups 0 group]
    rfl

/-! ## Addresses -/

theorem segments_lt (a : BitVec 128) : ∀ seg ∈ segments a, seg < 65536 := by
  intro seg hseg
  obtain ⟨i, -, rfl⟩ := List.mem_map.mp hseg
  exact Nat.mod_lt _ (by decide)

theorem ofSegmentList_segments (a : BitVec 128) : ofSegmentList (segments a) = a := by
  apply BitVec.eq_of_toNat_eq
  have hstep : ∀ i, a.toNat / 2 ^ (i + 16) * 65536 + a.toNat / 2 ^ i % 65536 = a.toNat / 2 ^ i := by
    intro i
    rw [Nat.pow_add, ← Nat.div_div_eq_div_mul]
    exact Nat.div_add_mod' _ _
  have htop : a.toNat / 2 ^ 112 % 65536 = a.toNat / 2 ^ 112 := by
    have ha := a.isLt
    omega
  simp only [ofSegmentList, segments, List.map_cons, List.map_nil, List.foldl_cons, List.foldl_nil,
    BitVec.toNat_ofNat, BitVec.toNat_ushiftRight, Nat.shiftRight_eq_div_pow]
  rw [Nat.zero_mul, Nat.zero_add, htop, hstep 96, hstep 80, hstep 64, hstep 48, hstep 32, hstep 16,
    hstep 0, Nat.pow_zero, Nat.div_one, Nat.mod_eq_of_lt a.isLt]

theorem readSegments_plain {a : BitVec 128} (h : isMapped a = false) :
    readSegments (v6Text a).toList = some (segments a, []) := by
  have hlt := segments_lt a
  unfold isMapped at h
  unfold v6Text
  simp only [h, Bool.false_eq_true, if_false]
  split
  · next hlen =>
    have hsegs := segs_eq_around (segments a)
    generalize longestZeros (segments a) = run at hlen hsegs ⊢
    have hcolons : "::".toList = [':', ':'] := rfl
    rw [String.toList_append, String.toList_append, hcolons, toList_hexJoin_groups,
      toList_hexJoin_groups, List.append_assoc]
    generalize (segments a).take run.1 = front at hsegs ⊢
    generalize (segments a).drop (run.1 + run.2) = back at hsegs ⊢
    rw [hsegs] at hlt ⊢
    have hcount := congrArg List.length hsegs
    rw [length_segments, List.length_append, List.length_append, List.length_replicate] at hcount
    have hfront := readGroups_groupText (fun g hg => hlt g (List.mem_append_left _ hg))
      (Or.inr ⟨groupText 0 back, rfl⟩) 0 (show front.length ≤ 8 by omega)
    have hback : readGroups 0 (7 - front.length) (groupText 0 back ++ []) = (back, false, []) :=
      readGroups_groupText (fun g hg => hlt g (by simp [hg])) (Or.inl rfl) 0 (by omega)
    rw [List.append_nil] at hback
    have hrun : 8 - front.length - back.length = run.2 := by omega
    unfold readSegments
    rw [show [':', ':'] ++ groupText 0 back = ':' :: ':' :: groupText 0 back from rfl]
    simp only [hfront, hback, hrun, Bool.false_eq_true, if_false]
    rw [if_neg (by omega), List.append_assoc]
  · have hall : readGroups 0 8 (groupText 0 (segments a) ++ []) = (segments a, false, []) :=
      readGroups_groupText hlt (Or.inl rfl) 0 (Nat.le_refl 8)
    rw [List.append_nil] at hall
    unfold readSegments
    rw [toList_hexJoin_groups]
    simp only [hall, length_segments, if_true]

/-- The segments of an IPv4-mapped address. -/
theorem segments_mapped {a : BitVec 128} (h : isMapped a = true) :
    segments a = List.replicate 5 0 ++ 65535 :: quadGroups (octets (a.setWidth 32)) := by
  unfold isMapped segments at h
  simp only [List.map_cons, List.map_nil, List.take_succ_cons, List.take_zero, beq_iff_eq,
    List.cons.injEq, and_true, BitVec.toNat_ushiftRight, Nat.shiftRight_eq_div_pow] at h
  simp only [segments, octets, quadGroups, List.map_cons, List.map_nil, List.replicate,
    List.cons_append, List.nil_append, List.cons.injEq, and_true, BitVec.toNat_ushiftRight,
    Nat.shiftRight_eq_div_pow, BitVec.toNat_setWidth]
  obtain ⟨h0, h1, h2, h3, h4, h5⟩ := h
  refine ⟨h0, h1, h2, h3, h4, h5, ?_⟩
  clear h0 h1 h2 h3 h4 h5
  constructor
  · omega
  · omega

theorem readSegments_mapped {a : BitVec 128} (h : isMapped a = true) :
    readSegments (v6Text a).toList = some (segments a, []) := by
  have hquad := readOctets_quadText (octets_lt (a.setWidth 32)) 0 (noDigit_nil 10)
  rw [List.append_nil] at hquad
  have htext : (v6Text a).toList = ':' :: ':' :: (Nat.toDigits 16 65535 ++
      ':' :: quadText 0 (octets (a.setWidth 32))) := by
    rw [v6Text_mapped h, String.toList_append, toList_v4Text_quad]
    rfl
  rw [htext, segments_mapped h]
  have hlen : (octets (a.setWidth 32)).length = 4 := rfl
  generalize octets (a.setWidth 32) = quad at hquad hlen ⊢
  rw [hlen] at hquad
  have hback : readGroups 0 7 (Nat.toDigits 16 65535 ++ ':' :: quadText 0 quad) =
      (65535 :: quadGroups quad, true, []) := by
    have hcolon : NoDigit 16 (':' :: quadText 0 quad) := noDigit_cons (by decide) _
    rw [readGroups, readSeparator_first, readOctets_group (Or.inr ⟨_, rfl⟩), ite_self,
      readSeparator_first, readNumber_group (by decide) hcolon]
    simp only [readGroups, Nat.zero_add, readSeparator_next ':' 0, hquad,
      Nat.reduceEqDiff, if_false]
  have hgroups : (quadGroups quad).length = 2 := by
    match quad, hlen with
    | [_, _, _, _], _ => rfl
  have hfront : readGroups 0 8 (':' :: ':' :: (Nat.toDigits 16 65535 ++ ':' :: quadText 0 quad)) =
      ([], false, ':' :: ':' :: (Nat.toDigits 16 65535 ++ ':' :: quadText 0 quad)) :=
    readGroups_atEnd (Or.inr ⟨_, rfl⟩) 0 8
  unfold readSegments
  simp only [hfront, List.length_nil, Nat.sub_zero, hback, List.length_cons, hgroups,
    Nat.reduceEqDiff, Bool.false_eq_true, if_false, List.nil_append]

theorem readOctets_v6Text (a : BitVec 128) : readOctets 0 4 (v6Text a).toList = none := by
  cases h : isMapped a with
  | true =>
    rw [v6Text_mapped h, String.toList_append]
    exact readOctets_of_noDigit (noDigit_cons (by decide) _)
  | false =>
    have hdot := dot_not_mem_v6Text h
    refine readOctets_eq_none (fun x y hxy => ?_) 2
    exact absurd (hxy ▸ List.mem_append_right x List.mem_cons_self) hdot

/-- An address is read back from its text. -/
theorem parse_toText (ip : IpAddr) : parse ip.toText.toList = some ip := by
  unfold parse readAddr
  cases ip with
  | V4 a =>
    have hread := readOctets_quadText (octets_lt a) 0 (noDigit_nil 10)
    rw [List.append_nil, ← toList_v4Text_quad] at hread
    have hread : readOctets 0 4 (toText (.V4 a)).toList = some (octets a, []) := hread
    rw [hread]
    simp only [ofOctetList_octets]
  | V6 a =>
    have hquad : readOctets 0 4 (toText (.V6 a)).toList = none := readOctets_v6Text a
    have hsegs : readSegments (toText (.V6 a)).toList = some (segments a, []) := by
      cases h : isMapped a with
      | true => exact readSegments_mapped h
      | false => exact readSegments_plain h
    rw [hquad, hsegs]
    simp only [Option.map_some, ofSegmentList_segments]

end IpAddr

end KubeRouter
