/-
  Text functions of the standard library: the methods of `str` and `from_str` of the unsigned
  integer types.

  A text is the list of its characters.

  Proved:
  * `parseUnsigned_toDigits`: a number is read back from its digits.
  * `parseUnsigned_chars`: what is read as a number has digits and plus signs only.
  * `words_lines`: the words of the lines of a text, by its line feeds.
-/
import KubeRouter.Lib.Split

namespace KubeRouter

/-- The Unicode property White_Space. -/
def isWhiteSpace (c : Char) : Bool :=
  let n := c.toNat
  (9 ≤ n && n ≤ 13) || [0x20, 0x85, 0xa0, 0x1680, 0x2028, 0x2029, 0x202f, 0x205f,
      0x3000].contains n ||
    (0x2000 ≤ n && n ≤ 0x200a)

namespace Text

/-- `str::trim`. -/
def trim (text : List Char) : List Char := Split.trim isWhiteSpace text

theorem trim_trim (text : List Char) : trim (trim text) = trim text := Split.trim_trim text

/-- `str::split_whitespace`. -/
def splitWhitespace (text : List Char) : List (List Char) := Split.words isWhiteSpace text

/-! ## Lines -/

/-- A line without the carriage return of its line ending. -/
def stripCr (line : List Char) : List Char :=
  if line.getLast? = some '\r' then line.dropLast else line

/-- `str::lines`: a line feed ends a line, with a carriage return in front of it; behind the last
one there is a line only if there is text. -/
def lines (text : List Char) : List (List Char) :=
  let parts := text.splitOn '\n'
  let last := parts.getLastD []
  parts.dropLast.map stripCr ++ if last.isEmpty then [] else [last]

theorem splitWhitespace_stripCr (line : List Char) :
    splitWhitespace (stripCr line) = splitWhitespace line := by
  unfold stripCr
  split
  · next hcr =>
    obtain ⟨front, rfl⟩ := List.getLast?_eq_some_iff.mp hcr
    have hcut := Split.words_append_cons (p := isWhiteSpace) front (c := '\r') (by decide) []
    rw [List.dropLast_concat]
    unfold splitWhitespace
    rw [hcut, Split.words_nil, List.append_nil]
  · rfl

/-- The lines that have words, by their words. -/
theorem words_lines (text : List Char) :
    ((lines text).map splitWhitespace).filter (!·.isEmpty) =
      ((text.splitOn '\n').map splitWhitespace).filter (!·.isEmpty) := by
  obtain ⟨front, last, hparts⟩ : ∃ front last, text.splitOn '\n' = front ++ [last] :=
    (List.eq_nil_or_concat' _).resolve_left (List.splitOn_ne_nil '\n' text)
  have hstrip : (front.map stripCr).map splitWhitespace = front.map splitWhitespace := by
    rw [List.map_map]
    exact List.map_congr_left fun line _ => splitWhitespace_stripCr line
  unfold lines
  simp only [hparts, List.dropLast_concat, List.getLastD_concat, List.map_append,
    List.filter_append, hstrip]
  congr 1
  split
  · next hlast =>
    rw [List.isEmpty_iff.mp hlast]
    rfl
  · rfl

/-- What is read in the lines, by their words; an empty line is skipped. -/
theorem filterMap_lines {β : Type} {f : List (List Char) → Option β} (hf : f [] = none)
    (text : List Char) :
    (lines text).filterMap (fun line => f (splitWhitespace line)) =
      (text.splitOn '\n').filterMap fun line => f (splitWhitespace line) := by
  have hskip : ∀ ls : List (List Char), ls.filterMap (fun line => f (splitWhitespace line)) =
      ((ls.map splitWhitespace).filter (!·.isEmpty)).filterMap f := by
    intro ls
    rw [List.filterMap_filter, List.filterMap_map]
    refine List.filterMap_congr fun line _ => ?_
    cases h : splitWhitespace line with
    | nil => simp [h, hf]
    | cons w ws => simp [h]
  rw [hskip, words_lines, ← hskip]

/-! ## Numbers -/

def stripPlus : List Char → List Char
  | '+' :: rest => rest
  | text => text

/-- `from_str` of an unsigned type with the values below `limit`: digits, with an optional plus
sign. -/
def parseUnsigned (limit : Nat) (text : List Char) : Option Nat :=
  let digits := stripPlus text
  if digits.isEmpty || !digits.all (·.isDigit) then none
  else
    let n := Nat.ofDigitChars 10 digits 0
    if n < limit then some n else none

def parseU8 (text : List Char) : Option UInt8 := (parseUnsigned UInt8.size text).map UInt8.ofNat

def parseU16 (text : List Char) : Option UInt16 := (parseUnsigned UInt16.size text).map UInt16.ofNat

def parseU32 (text : List Char) : Option UInt32 := (parseUnsigned UInt32.size text).map UInt32.ofNat

def parseU64 (text : List Char) : Option UInt64 := (parseUnsigned UInt64.size text).map UInt64.ofNat

theorem isWhiteSpace_of_isDigit {c : Char} (h : c.isDigit = true) : isWhiteSpace c = false := by
  simp only [Char.isDigit, Bool.and_eq_true, decide_eq_true_eq, ge_iff_le, UInt32.le_iff_toNat_le]
    at h
  have hlow : 48 ≤ c.toNat := h.1
  have hhigh : c.toNat ≤ 57 := h.2
  simp [isWhiteSpace]
  omega

theorem isDigit_of_mem_toDigits {n : Nat} {c : Char} (h : c ∈ Nat.toDigits 10 n) :
    c.isDigit = true := Nat.isDigit_of_mem_toDigits (by decide) (by decide) h

theorem stripPlus_toDigits (n : Nat) : stripPlus (Nat.toDigits 10 n) = Nat.toDigits 10 n := by
  unfold stripPlus
  split
  · next rest heq =>
    exact absurd (isDigit_of_mem_toDigits (heq ▸ List.mem_cons_self)) (by decide)
  · rfl

theorem parseUnsigned_toDigits {limit n : Nat} (h : n < limit) :
    parseUnsigned limit (Nat.toDigits 10 n) = some n := by
  have hdigits : (Nat.toDigits 10 n).all (·.isDigit) = true :=
    List.all_eq_true.mpr fun c hc => isDigit_of_mem_toDigits hc
  unfold parseUnsigned
  simp [stripPlus_toDigits, hdigits, Nat.ofDigitChars_ten_toDigits, h]

theorem parseU16_toDigits (n : UInt16) : parseU16 (Nat.toDigits 10 n.toNat) = some n := by
  unfold parseU16
  rw [parseUnsigned_toDigits n.toNat_lt_size, Option.map_some, UInt16.ofNat_toNat]

theorem parseUnsigned_chars {limit n : Nat} {text : List Char}
    (h : parseUnsigned limit text = some n) :
    ∀ c ∈ text, c.isDigit = true ∨ c = '+' := by
  have hdigits : ∀ c ∈ stripPlus text, c.isDigit = true := by
    unfold parseUnsigned at h
    dsimp only at h
    split at h
    · cases h
    · next hcond =>
      simp only [Bool.or_eq_true, Bool.not_eq_true', not_or, Bool.not_eq_false] at hcond
      exact List.all_eq_true.mp hcond.2
  intro c hc
  unfold stripPlus at hdigits
  split at hdigits
  · obtain rfl | hc := List.mem_cons.mp hc
    · exact Or.inr rfl
    · exact Or.inl (hdigits c hc)
  · exact Or.inl (hdigits c hc)

end Text

end KubeRouter
