/-
  Lines that are put together from words, as they are written for the command-line tools and read
  by them, and the text of a prefix (`Display` and `from_str` of `ipnet::IpNet`).

  A token is a text that is one word: not empty and without white space.

  Proved:
  * `words_line`: a line of tokens is read back word by word.
  * `lines_unlines`: lines that end with a line feed each are read back one by one.
  * `IpNet.parse_toText`: a prefix is read back from its text.
-/
import KubeRouter.Common.Text
import KubeRouter.Common.AddrParse

namespace KubeRouter

namespace Text

/-! ## Words -/

def words (text : String) : List String := (splitWhitespace text.toList).map String.ofList

/-- The words with one blank between them. -/
def line (ws : List String) : String := " ".intercalate ws

def isToken (text : String) : Bool := !text.toList.isEmpty && text.toList.all (!isWhiteSpace ·)

theorem isToken_iff {text : String} :
    isToken text = true ↔ Split.IsWord isWhiteSpace text.toList := by
  simp [isToken, Split.IsWord]

theorem isToken_append {x y : String} (hx : isToken x = true) (hy : isToken y = true) :
    isToken (x ++ y) = true := by
  simp only [isToken, Bool.and_eq_true, Bool.not_eq_true', List.isEmpty_eq_false_iff,
    String.toList_append, List.all_append] at hx hy ⊢
  exact ⟨List.append_ne_nil_of_left_ne_nil hx.1 _, hx.2, hy.2⟩

theorem isToken_of_chars {text : String} (hne : text.toList ≠ [])
    (h : ∀ c ∈ text.toList, isWhiteSpace c = false) : isToken text = true :=
  isToken_iff.mpr ⟨hne, h⟩

theorem words_line {ws : List String} (h : ∀ w ∈ ws, isToken w = true) : words (line ws) = ws := by
  have hspaced : Split.Spaced isWhiteSpace (ws.map String.toList) (line ws).toList := by
    unfold line
    rw [String.toList_intercalate]
    exact Split.spaced_intercalate (by decide) _
  have hws : ∀ w ∈ ws.map String.toList, Split.IsWord isWhiteSpace w := by
    intro w hw
    obtain ⟨t, ht, rfl⟩ := List.mem_map.mp hw
    exact isToken_iff.mp (h t ht)
  unfold words splitWhitespace
  rw [Split.words_of_spaced hws hspaced, List.map_map]
  have hid : (String.ofList ∘ String.toList) = id := funext fun t => String.ofList_toList
  rw [hid, List.map_id]

/-- White space other than blanks stands in no line of tokens. -/
theorem not_mem_line {ws : List String} (h : ∀ w ∈ ws, isToken w = true) {c : Char}
    (hc : isWhiteSpace c = true) (hblank : c ≠ ' ') : c ∉ (line ws).toList := by
  intro hmem
  have hblanks : " ".toList = [' '] := rfl
  unfold line at hmem
  rw [String.toList_intercalate, hblanks] at hmem
  obtain hsep | ⟨w, hw, hcw⟩ := IpAddr.mem_of_mem_intercalate hmem
  · exact hblank (List.mem_singleton.mp hsep)
  · obtain ⟨t, ht, rfl⟩ := List.mem_map.mp hw
    rw [(isToken_iff.mp (h t ht)).2 c hcw] at hc
    cases hc

/-! ## Lines -/

/-- Every line with a line feed behind it. -/
def unlines (ls : List String) : String := String.join (ls.map (· ++ "\n"))

theorem toList_unlines (ls : List String) :
    (unlines ls).toList = (ls.map String.toList).flatMap (· ++ ['\n']) := by
  unfold unlines
  induction ls with
  | nil => rfl
  | cons l ls ih =>
    rw [List.map_cons, String.join_cons, String.toList_append, ih, String.toList_append]
    rfl

theorem splitOn_unlines {ls : List (List Char)} (h : ∀ l ∈ ls, '\n' ∉ l) :
    (ls.flatMap (· ++ ['\n'])).splitOn '\n' = ls ++ [[]] := by
  induction ls with
  | nil => rfl
  | cons l ls ih =>
    obtain ⟨hl, hls⟩ := List.forall_mem_cons.mp h
    have hcut : (l ++ '\n' :: ls.flatMap (· ++ ['\n'])).splitOnP (· == '\n') =
        l.splitOnP (· == '\n') ++ (ls.flatMap (· ++ ['\n'])).splitOnP (· == '\n') :=
      List.splitOnP_append_cons l _ (by decide)
    have hfirst : l.splitOnP (· == '\n') = [l] :=
      List.splitOnP_eq_singleton fun c hc => by simpa using fun heq : c = '\n' => hl (heq ▸ hc)
    rw [List.flatMap_cons, List.append_assoc, List.singleton_append]
    unfold List.splitOn at ih ⊢
    rw [hcut, hfirst, ih hls]
    rfl

theorem lines_unlines {ls : List String} (h : ∀ l ∈ ls, '\n' ∉ l.toList ∧ '\r' ∉ l.toList) :
    (lines (unlines ls).toList).map String.ofList = ls := by
  have hsplit : ((ls.map String.toList).flatMap (· ++ ['\n'])).splitOn '\n' =
      ls.map String.toList ++ [[]] := splitOn_unlines fun l hl => by
    obtain ⟨t, ht, rfl⟩ := List.mem_map.mp hl
    exact (h t ht).1
  have hstrip : (ls.map String.toList).map stripCr = ls.map String.toList := by
    rw [List.map_map]
    refine List.map_congr_left fun t ht => if_neg fun hlast => (h t ht).2 ?_
    exact List.mem_of_getLast? hlast
  unfold lines
  simp only [toList_unlines, hsplit, List.dropLast_concat, List.getLastD_concat, hstrip]
  simp

end Text

/-! ## Tokens -/

open Text (isToken)

theorem isToken_addrText (ip : IpAddr) : isToken ip.toText = true := by
  refine Text.isToken_of_chars ?_ fun c hc => ?_
  · intro hnil
    have hparse := IpAddr.parse_toText ip
    rw [hnil] at hparse
    cases hparse
  · cases hw : isWhiteSpace c with
    | false => rfl
    | true =>
      have hout : c.isDigit = false ∧ (∀ d < 16, Nat.digitChar d ≠ c) ∧ c ≠ '.' ∧ c ≠ ':' := by
        refine ⟨?_, ?_, ?_, ?_⟩
        · cases hd : c.isDigit with
          | false => rfl
          | true =>
            rw [Text.isWhiteSpace_of_isDigit hd] at hw
            cases hw
        · rintro d hd rfl
          have hall : ∀ d < 16, isWhiteSpace (Nat.digitChar d) = false := by decide
          rw [hall d hd] at hw
          cases hw
        · rintro rfl
          revert hw
          decide
        · rintro rfl
          revert hw
          decide
      exact absurd hc (IpAddr.not_mem_toText hout.1 hout.2.1 hout.2.2.1 hout.2.2.2 ip)

theorem toList_toString_nat (n : Nat) : (toString n).toList = Nat.toDigits 10 n := Nat.toList_repr

theorem isToken_nat (n : Nat) : isToken (toString n) = true := by
  refine Text.isToken_of_chars ?_ fun c hc => ?_
  · rw [toList_toString_nat]
    exact Nat.toDigits_ne_nil
  · rw [toList_toString_nat] at hc
    exact Text.isWhiteSpace_of_isDigit (Text.isDigit_of_mem_toDigits hc)

/-! ## Prefixes -/

namespace IpNet

/-- `Display` of `IpNet`. -/
def toText (net : IpNet) : String := net.addr.toText ++ "/" ++ toString net.prefixLen

/-- `IpNet::from_str`: an address, a slash and a length of its family. -/
def parse (text : List Char) : Option IpNet := do
  let (addr, len) ← Split.once (· == '/') text
  let addr ← IpAddr.parse addr
  let len ← Text.parseU8 len
  if h : len.toNat ≤ addr.bits then some ⟨addr, len.toNat, h⟩ else none

theorem toList_toText (net : IpNet) :
    net.toText.toList = net.addr.toText.toList ++ '/' :: Nat.toDigits 10 net.prefixLen := by
  have hslash : "/".toList = ['/'] := rfl
  unfold toText
  rw [String.toList_append, String.toList_append, toList_toString_nat, hslash,
    List.append_assoc]
  rfl

theorem slash_not_mem (ip : IpAddr) : '/' ∉ ip.toText.toList :=
  IpAddr.not_mem_toText (by decide) (by decide) (by decide) (by decide) ip

theorem prefixLen_lt (net : IpNet) : net.prefixLen < UInt8.size := by
  have hlen := net.prefixLen_le
  have hbits : net.addr.bits ≤ 128 := by
    cases net.addr <;> simp [IpAddr.bits]
  have hsize : UInt8.size = 256 := rfl
  omega

theorem parse_toText (net : IpNet) : parse net.toText.toList = some net := by
  have hcut : Split.once (· == '/') net.toText.toList =
      some (net.addr.toText.toList, Nat.toDigits 10 net.prefixLen) := by
    rw [toList_toText]
    exact Split.once_append
      (fun c hc => by simpa using fun heq : c = '/' => slash_not_mem net.addr (heq ▸ hc)) rfl _
  have hlen : Text.parseU8 (Nat.toDigits 10 net.prefixLen) = some (UInt8.ofNat net.prefixLen) := by
    unfold Text.parseU8
    rw [Text.parseUnsigned_toDigits (prefixLen_lt net)]
    rfl
  have hnat : (UInt8.ofNat net.prefixLen).toNat = net.prefixLen :=
    UInt8.toNat_ofNat_of_lt (prefixLen_lt net)
  unfold parse
  simp only [hcut, hlen, IpAddr.parse_toText, Option.bind_eq_bind, Option.bind_some, hnat]
  exact dif_pos net.prefixLen_le

theorem isToken_toText (net : IpNet) : isToken net.toText = true := by
  unfold toText
  exact Text.isToken_append (Text.isToken_append (isToken_addrText net.addr) (by decide))
    (isToken_nat net.prefixLen)

end IpNet

end KubeRouter
