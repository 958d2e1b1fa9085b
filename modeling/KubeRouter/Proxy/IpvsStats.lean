/-
  Statistics of the virtual services, read from the output of `ipvsadm` (`parse_ipvsadm_stats` in
  `proxy/src/ipvs.rs`).

  The tables of totals and of rates are texts. A table renders rows if it consists of lines, and
  each row stands in a line of its own, its columns apart by white space; in front of, between and
  behind them are lines that do not begin with the name of a protocol.

  Proved:
  * `parseAddrPort_vipPort`: an address and port are read back from their text.
  * `ipvsadm_stats_read_back`: the statistics are read back from any tables that render them.
-/
import KubeRouter.Common.AddrParse
import KubeRouter.Common.Text
import KubeRouter.Proxy.Model
import Std.Data.TreeMap.Lemmas

namespace KubeRouter.Proxy

open Text

structure ServiceStats where
  connections : UInt64 := 0
  packetsIn : UInt64 := 0
  packetsOut : UInt64 := 0
  bytesIn : UInt64 := 0
  bytesOut : UInt64 := 0
  cps : UInt64 := 0
  ppsIn : UInt64 := 0
  ppsOut : UInt64 := 0
  bpsIn : UInt64 := 0
  bpsOut : UInt64 := 0
deriving DecidableEq, Repr

/-! ## Tokens -/

def vipPort (addr : IpAddr) (port : UInt16) : String :=
  match addr with
  | .V4 _ => addr.toText ++ ":" ++ toString port.toNat
  | .V6 _ => "[" ++ addr.toText ++ "]:" ++ toString port.toNat

def parseAddrPort (tok : List Char) : Option (IpAddr × UInt16) := do
  let (addr, port) ←
    match tok with
    | '[' :: rest => Split.onceList [']', ':'] rest
    | _ => Split.lastOnce (· == ':') tok
  return (← IpAddr.parse addr, ← parseU16 port)

def parseProto (tok : List Char) : Option Protocol :=
  if tok = "TCP".toList then some .Tcp
  else if tok = "UDP".toList then some .Udp
  else if tok = "SCTP".toList then some .Sctp
  else none

/-! ## Tables -/

abbrev ServiceKey := IpAddr × Protocol × UInt16

/-- Rank of a protocol in the order of its type. -/
def Protocol.rank : Protocol → Nat
  | Tcp => 0
  | Udp => 1
  | Sctp => 2

/-- Rank in the order of the tuples: address, protocol, port. -/
def keyRank (k : ServiceKey) : Nat :=
  (k.1.rank * 3 + k.2.1.rank) * 65536 + k.2.2.toNat

theorem keyRank_injective : Function.Injective keyRank := by
  rintro ⟨a, p, n⟩ ⟨b, q, m⟩ h
  have hn := n.toNat_lt
  have hm := m.toNat_lt
  have hp : p.rank < 3 := by cases p <;> decide
  have hq : q.rank < 3 := by cases q <;> decide
  simp only [keyRank] at h
  have haddr : a = b := IpAddr.rank_injective (by omega)
  have hproto : p.rank = q.rank := by omega
  have hport : n = m := UInt16.toNat_inj.mp (by omega)
  have hproto : p = q := by
    revert hproto
    cases p <;> cases q <;> simp [Protocol.rank]
  rw [haddr, hproto, hport]

-- for any rank: comparing the ranks themselves would unfold their products
theorem lawfulEqCmp_compareOn {α : Type} {f : α → Nat} (hf : Function.Injective f) :
    Std.LawfulEqCmp (compareOn f) where
  compare_self := Std.ReflOrd.compare_self (α := Nat)
  eq_of_compare h := hf (Std.LawfulEqOrd.eq_of_compare (α := Nat) h)

instance : Std.LawfulEqCmp (compareOn keyRank) := lawfulEqCmp_compareOn keyRank_injective

abbrev BTreeMapStats := Std.TreeMap ServiceKey ServiceStats (compareOn keyRank)

/-- `parse().unwrap_or(0)`. -/
def number (tok : List Char) : UInt64 := (parseU64 tok).getD 0

/-- A row of a table: the service and its five columns. -/
abbrev Row := ServiceKey × UInt64 × UInt64 × UInt64 × UInt64 × UInt64

/-- The row that the words of a line make up. -/
def parseRow : List (List Char) → Option Row
  | f0 :: f1 :: f2 :: f3 :: f4 :: f5 :: f6 :: _ =>
    match parseProto f0, parseAddrPort f1 with
    | some proto, some (addr, port) =>
      some ((addr, proto, port), number f2, number f3, number f4, number f5, number f6)
    | _, _ => none
  | _ => none

def insertStats (map : BTreeMapStats) : Row → BTreeMapStats
  | (key, c2, c3, c4, c5, c6) =>
    map.insert key
      { connections := c2, packetsIn := c3, packetsOut := c4, bytesIn := c5, bytesOut := c6 }

def setRates (map : BTreeMapStats) : Row → BTreeMapStats
  | (key, c2, c3, c4, c5, c6) =>
    map.modify key fun s =>
      { s with cps := c2, ppsIn := c3, ppsOut := c4, bpsIn := c5, bpsOut := c6 }

/-- One turn of a loop over the lines of a table. -/
def readLine (step : BTreeMapStats → Row → BTreeMapStats) (map : BTreeMapStats) (line : List Char) :
    BTreeMapStats :=
  match parseRow (splitWhitespace line) with
  | some row => step map row
  | none => map

/-- The service a row is reported for. -/
def rowService (key : ServiceKey) : IpvsService :=
  { addr := key.1, protocol := key.2.1, port := key.2.2, scheduler := .Rr, schedFlags := {},
    persistent := none }

def parseIpvsadmStats (stats rate : String) : List (IpvsService × ServiceStats) :=
  let map := (lines stats.toList).foldl (readLine insertStats) ∅
  let map := (lines rate.toList).foldl (readLine setRates) map
  map.toList.map fun (key, stats) => (rowService key, stats)

/-! ## Renderings -/

/-- The name of a protocol in the tables. -/
def ipvsadmProto : Protocol → String
  | .Tcp => "TCP"
  | .Udp => "UDP"
  | .Sctp => "SCTP"

/-- The columns of a row. -/
def columns : Row → List (List Char)
  | (key, c2, c3, c4, c5, c6) =>
    (ipvsadmProto key.2.1).toList :: (vipPort key.1 key.2.2).toList ::
      [c2, c3, c4, c5, c6].map fun n => Nat.toDigits 10 n.toNat

/-- The row of a service in the table of totals. -/
def statsRow : ServiceKey × ServiceStats → Row
  | (key, s) => (key, s.connections, s.packetsIn, s.packetsOut, s.bytesIn, s.bytesOut)

/-- The row of a service in the table of rates. -/
def rateRow : ServiceKey × ServiceStats → Row
  | (key, s) => (key, s.cps, s.ppsIn, s.ppsOut, s.bpsIn, s.bpsOut)

/-- A line that is no row: a header, a destination, a FWM service, an empty line. -/
def OtherLine (line : List Char) : Prop :=
  ∀ word, (splitWhitespace line).head? = some word → ∀ p, word ≠ (ipvsadmProto p).toList

/-- The lines hold the rows in their order, with other lines in between. -/
inductive Interleaves : List Row → List (List Char) → Prop
  | nil : Interleaves [] []
  | row {row : Row} {rows : List Row} {line : List Char} {lines : List (List Char)}
      (hrow : Split.Spaced isWhiteSpace (columns row) line) (hrest : Interleaves rows lines) :
      Interleaves (row :: rows) (line :: lines)
  | other {rows : List Row} {line : List Char} {lines : List (List Char)}
      (hother : OtherLine line) (hrest : Interleaves rows lines) : Interleaves rows (line :: lines)

def Renders (rows : List Row) (table : String) : Prop :=
  ∃ lines, table.toList = ['\n'].intercalate lines ∧ (∀ line ∈ lines, '\n' ∉ line) ∧
    Interleaves rows lines

/-! ### Tokens -/

theorem isWord_toDigits (n : Nat) : Split.IsWord isWhiteSpace (Nat.toDigits 10 n) :=
  ⟨Nat.toDigits_ne_nil, fun _ hc => isWhiteSpace_of_isDigit (isDigit_of_mem_toDigits hc)⟩

theorem toList_vipPort_v4 (a : BitVec 32) (port : UInt16) :
    (vipPort (.V4 a) port).toList =
      (IpAddr.V4 a).toText.toList ++ ':' :: Nat.toDigits 10 port.toNat := by
  simp [vipPort]

theorem toList_vipPort_v6 (a : BitVec 128) (port : UInt16) :
    (vipPort (.V6 a) port).toList =
      '[' :: ((IpAddr.V6 a).toText.toList ++ [']', ':'] ++ Nat.toDigits 10 port.toNat) := by
  simp [vipPort]

/-- An address and port are read back from their text. -/
theorem parseAddrPort_vipPort (addr : IpAddr) (port : UInt16) :
    parseAddrPort (vipPort addr port).toList = some (addr, port) := by
  have hport := parseU16_toDigits port
  have haddr := IpAddr.parse_toText addr
  cases addr with
  | V4 a =>
    rw [toList_vipPort_v4]
    have hcolon : ∀ c ∈ Nat.toDigits 10 port.toNat, (c == ':') = false := by
      intro c hc
      refine beq_eq_false_iff_ne.mpr ?_
      rintro rfl
      exact absurd (isDigit_of_mem_toDigits hc) (by decide)
    have hcut := Split.lastOnce_append hcolon (c := ':') rfl (IpAddr.V4 a).toText.toList
    have hbracket : '[' ∉ (IpAddr.V4 a).toText.toList ++ ':' :: Nat.toDigits 10 port.toNat := by
      rw [List.mem_append, List.mem_cons]
      rintro (h | h | h)
      · exact IpAddr.not_mem_v4Text rfl (by decide) a h
      · exact absurd h (by decide)
      · exact absurd (isDigit_of_mem_toDigits h) (by decide)
    unfold parseAddrPort
    split
    · next rest heq => exact absurd (heq ▸ List.mem_cons_self) hbracket
    · simp only [hcut, haddr, hport, Option.pure_def, Option.bind_eq_bind, Option.bind_some]
  | V6 a =>
    rw [toList_vipPort_v6]
    have hcut := Split.onceList_append
      (IpAddr.not_mem_toText (c := ']') rfl (by decide) (by decide) (by decide) (.V6 a)) [':']
      (Nat.toDigits 10 port.toNat)
    simp only [parseAddrPort, hcut, haddr, hport, Option.pure_def, Option.bind_eq_bind,
      Option.bind_some]

theorem number_toDigits (n : UInt64) : number (Nat.toDigits 10 n.toNat) = n := by
  unfold number parseU64
  rw [parseUnsigned_toDigits n.toNat_lt_size, Option.map_some, UInt64.ofNat_toNat, Option.getD_some]

theorem parseProto_ipvsadmProto (p : Protocol) : parseProto (ipvsadmProto p).toList = some p := by
  cases p <;> decide

theorem parseProto_eq_some {tok : List Char} {p : Protocol} (h : parseProto tok = some p) :
    tok = (ipvsadmProto p).toList := by
  unfold parseProto at h
  split at h
  · next htok => cases h; exact htok
  · split at h
    · next htok => cases h; exact htok
    · split at h
      · next htok => cases h; exact htok
      · cases h

/-! ### Lines -/

theorem isWhiteSpace_of_mem_toText {ip : IpAddr} {c : Char} (h : c ∈ ip.toText.toList) :
    isWhiteSpace c = false := by
  by_contra hspace
  refine IpAddr.not_mem_toText ?_ ?_ ?_ ?_ ip h
  · by_contra hdigit
    exact hspace (isWhiteSpace_of_isDigit (by simpa using hdigit))
  · have hhex : ∀ d < 16, isWhiteSpace (Nat.digitChar d) = false := by decide
    rintro d hd rfl
    exact hspace (hhex d hd)
  · rintro rfl
    exact hspace rfl
  · rintro rfl
    exact hspace rfl

theorem isWord_vipPort (addr : IpAddr) (port : UInt16) :
    Split.IsWord isWhiteSpace (vipPort addr port).toList := by
  have hdigits := (isWord_toDigits port.toNat).2
  have htext : ∀ c ∈ addr.toText.toList, isWhiteSpace c = false :=
    fun c hc => isWhiteSpace_of_mem_toText hc
  cases addr with
  | V4 a =>
    rw [toList_vipPort_v4]
    refine ⟨by simp, fun c hc => ?_⟩
    obtain hc | hc := List.mem_append.mp hc
    · exact htext c hc
    · obtain rfl | hc := List.mem_cons.mp hc
      · rfl
      · exact hdigits c hc
  | V6 a =>
    rw [toList_vipPort_v6]
    refine ⟨List.cons_ne_nil _ _, fun c hc => ?_⟩
    obtain rfl | hc := List.mem_cons.mp hc
    · rfl
    · obtain hc | hc := List.mem_append.mp hc
      · have hclose : ∀ c ∈ [']', ':'], isWhiteSpace c = false :=
          List.forall_mem_cons.mpr ⟨rfl, List.forall_mem_singleton.mpr rfl⟩
        obtain hc | hc := List.mem_append.mp hc
        · exact htext c hc
        · exact hclose c hc
      · exact hdigits c hc

theorem isWord_of_mem_columns {row : Row} : ∀ w ∈ columns row, Split.IsWord isWhiteSpace w := by
  intro w hw
  obtain rfl | hw := List.mem_cons.mp hw
  · cases row.1.2.1 <;> exact Split.isWord_of_all (by decide) (by decide)
  · obtain rfl | hw := List.mem_cons.mp hw
    · exact isWord_vipPort row.1.1 row.1.2.2
    · obtain ⟨n, -, rfl⟩ := List.mem_map.mp hw
      exact isWord_toDigits n.toNat

theorem parseRow_row {row : Row} {line : List Char}
    (h : Split.Spaced isWhiteSpace (columns row) line) :
    parseRow (splitWhitespace line) = some row := by
  have hwords : splitWhitespace line = columns row := Split.words_of_spaced isWord_of_mem_columns h
  rw [hwords]
  simp [columns, parseRow, parseProto_ipvsadmProto, parseAddrPort_vipPort, number_toDigits]

theorem parseRow_other {line : List Char} (h : OtherLine line) :
    parseRow (splitWhitespace line) = none := by
  unfold parseRow
  split
  · next f0 f1 f2 f3 f4 f5 f6 rest hwords =>
    have hproto : parseProto f0 = none := by
      cases hp : parseProto f0 with
      | none => rfl
      | some p => exact absurd (parseProto_eq_some hp) (h f0 (by rw [hwords]; rfl) p)
    rw [hproto]
  · rfl

theorem filterMap_parseRow {rows : List Row} {lines : List (List Char)}
    (h : Interleaves rows lines) :
    lines.filterMap (fun line => parseRow (splitWhitespace line)) = rows := by
  induction h with
  | nil => rfl
  | row hrow _ ih => rw [List.filterMap_cons, parseRow_row hrow, ih]
  | other hother _ ih => rw [List.filterMap_cons, parseRow_other hother, ih]

/-- A loop over the lines of a table is one over its rows. -/
theorem foldl_readLine {rows : List Row} {table : String} (h : Renders rows table)
    (step : BTreeMapStats → Row → BTreeMapStats) (map : BTreeMapStats) :
    (lines table.toList).foldl (readLine step) map = rows.foldl step map := by
  obtain ⟨ls, htable, hfeed, hrows⟩ := h
  have hsplit : (table.toList.splitOn '\n').filterMap (fun line =>
      parseRow (splitWhitespace line)) =
      rows := by
    rw [htable, ← filterMap_parseRow hrows]
    by_cases hls : ls = []
    · rw [hls]
      rfl
    · rw [List.splitOn_intercalate '\n' hfeed hls]
  rw [← hsplit, ← filterMap_lines rfl, List.foldl_filterMap]
  congr 1
  funext map line
  unfold readLine
  cases parseRow (splitWhitespace line) <;> rfl

/-! ## The two tables together -/

/-- Only the totals: the rates are zero. -/
def ServiceStats.totals (s : ServiceStats) : ServiceStats :=
  { s with cps := 0, ppsIn := 0, ppsOut := 0, bpsIn := 0, bpsOut := 0 }

theorem getElem?_foldl_insertStats_of_notMem {rows : List Row} {key : ServiceKey}
    (h : key ∉ rows.map (·.1)) (map : BTreeMapStats) :
    (rows.foldl insertStats map)[key]? = map[key]? := by
  induction rows generalizing map with
  | nil => rfl
  | cons row rows ih =>
    rw [List.map_cons, List.mem_cons, not_or] at h
    rw [List.foldl_cons, ih h.2]
    unfold insertStats
    rw [Std.TreeMap.getElem?_insert, if_neg fun heq => h.1 (Std.LawfulEqCmp.eq_of_compare heq).symm]

theorem getElem?_foldl_insertStats {rows : List Row} (hdistinct : (rows.map (·.1)).Nodup)
    {entry : ServiceKey × ServiceStats} (h : statsRow entry ∈ rows) (map : BTreeMapStats) :
    (rows.foldl insertStats map)[entry.1]? = some entry.2.totals := by
  induction rows generalizing map with
  | nil => cases h
  | cons row rows ih =>
    rw [List.map_cons, List.nodup_cons] at hdistinct
    rw [List.foldl_cons]
    obtain heq | h := List.mem_cons.mp h
    · have hnot : entry.1 ∉ rows.map (·.1) := by
        have hkey : entry.1 = row.1 := congrArg Prod.fst heq
        exact hkey ▸ hdistinct.1
      rw [getElem?_foldl_insertStats_of_notMem hnot, ← heq]
      exact Std.TreeMap.getElem?_insert_self
    · exact ih hdistinct.2 h _

theorem getElem?_foldl_setRates_of_notMem {rows : List Row} {key : ServiceKey}
    (h : key ∉ rows.map (·.1)) (map : BTreeMapStats) :
    (rows.foldl setRates map)[key]? = map[key]? := by
  induction rows generalizing map with
  | nil => rfl
  | cons row rows ih =>
    rw [List.map_cons, List.mem_cons, not_or] at h
    rw [List.foldl_cons, ih h.2]
    unfold setRates
    rw [Std.TreeMap.getElem?_modify, if_neg fun heq => h.1 (Std.LawfulEqCmp.eq_of_compare heq).symm]

theorem getElem?_foldl_setRates {rows : List Row} (hdistinct : (rows.map (·.1)).Nodup)
    {entry : ServiceKey × ServiceStats} (h : rateRow entry ∈ rows) {map : BTreeMapStats}
    (hmap : map[entry.1]? = some entry.2.totals) :
    (rows.foldl setRates map)[entry.1]? = some entry.2 := by
  induction rows generalizing map with
  | nil => cases h
  | cons row rows ih =>
    rw [List.map_cons, List.nodup_cons] at hdistinct
    rw [List.foldl_cons]
    obtain heq | h := List.mem_cons.mp h
    · have hnot : entry.1 ∉ rows.map (·.1) := by
        have hkey : entry.1 = row.1 := congrArg Prod.fst heq
        exact hkey ▸ hdistinct.1
      rw [getElem?_foldl_setRates_of_notMem hnot, ← heq]
      exact Std.TreeMap.getElem?_modify_self.trans (by rw [hmap]; rfl)
    · have hne : row.1 ≠ entry.1 := by
        intro heq
        exact hdistinct.1 (heq ▸ List.mem_map_of_mem h)
      refine ih hdistinct.2 h ?_
      unfold setRates
      rw [Std.TreeMap.getElem?_modify, if_neg fun heq =>
        hne (Std.LawfulEqCmp.eq_of_compare heq), hmap]

/-- The rows of both tables, read into a map. -/
theorem foldl_rows_equiv {m : BTreeMapStats} {listed : ServiceKey → Bool}
    {statsRows rateRows : List Row} (hstats : statsRows.Perm (m.toList.map statsRow))
    (hrates : rateRows.Perm ((m.toList.filter (listed ·.1)).map rateRow)) :
    (rateRows.foldl setRates (statsRows.foldl insertStats ∅)).Equiv
      (m.map fun key s => if listed key then s else s.totals) := by
  have hkeys : (m.toList.map (·.1)).Nodup := by
    rw [List.nodup_iff_pairwise_ne, List.pairwise_map]
    refine Std.TreeMap.distinct_keys_toList.imp fun hne heq => hne ?_
    rw [heq]
    exact Std.ReflCmp.compare_self
  have hstatsKeys : (statsRows.map (·.1)).Nodup := by
    rw [(hstats.map _).nodup_iff, List.map_map]
    exact hkeys
  have hrateKeys : (rateRows.map (·.1)).Nodup := by
    rw [(hrates.map _).nodup_iff, List.map_map]
    exact hkeys.sublist (List.filter_sublist.map _)
  refine Std.TreeMap.Equiv.of_forall_constGet?_eq fun key => ?_
  rw [Std.TreeMap.getElem?_map]
  cases hkey : m[key]? with
  | none =>
    have hnot : key ∉ m.toList.map (·.1) := by
      rintro hmem
      obtain ⟨⟨k, s⟩, hentry, rfl⟩ := List.mem_map.mp hmem
      rw [Std.TreeMap.mem_toList_iff_getElem?_eq_some, hkey] at hentry
      cases hentry
    have hnotStats : key ∉ statsRows.map (·.1) := by
      rw [(hstats.map _).mem_iff, List.map_map]
      exact hnot
    have hnotRate : key ∉ rateRows.map (·.1) := by
      rw [(hrates.map _).mem_iff, List.map_map]
      exact fun hmem => hnot ((List.filter_sublist.map _).subset hmem)
    rw [getElem?_foldl_setRates_of_notMem hnotRate,
      getElem?_foldl_insertStats_of_notMem hnotStats, Std.TreeMap.getElem?_emptyc]
    rfl
  | some s =>
    have hentry : (key, s) ∈ m.toList := Std.TreeMap.mem_toList_iff_getElem?_eq_some.mpr hkey
    have htotals := getElem?_foldl_insertStats hstatsKeys
      (hstats.mem_iff.mpr (List.mem_map_of_mem hentry)) ∅
    cases hlisted : listed key with
    | true =>
      have hfilter : (key, s) ∈ m.toList.filter (listed ·.1) :=
        List.mem_filter.mpr ⟨hentry, hlisted⟩
      have hrow := hrates.mem_iff.mpr (List.mem_map_of_mem (f := rateRow) hfilter)
      rw [getElem?_foldl_setRates hrateKeys hrow htotals, Option.map_some, if_pos rfl]
    | false =>
      have hnot : key ∉ rateRows.map (·.1) := by
        rw [(hrates.map _).mem_iff, List.map_map]
        intro hmem
        obtain ⟨e, he, heq⟩ := List.mem_map.mp hmem
        have hlist := (List.mem_filter.mp he).2
        rw [show e.1 = key from heq, hlisted] at hlist
        cases hlist
      rw [getElem?_foldl_setRates_of_notMem hnot, htotals, Option.map_some,
        if_neg Bool.false_ne_true]

/-- The tables of every map can be rendered. -/
theorem exists_renders (rows : List Row) : ∃ table, Renders rows table := by
  refine ⟨String.ofList (['\n'].intercalate (rows.map fun row => [' '].intercalate (columns row))),
    _, String.toList_ofList, ?_, ?_⟩
  · intro line hline hfeed
    obtain ⟨row, -, rfl⟩ := List.mem_map.mp hline
    obtain hfeed | ⟨w, hw, hfeed⟩ := IpAddr.mem_of_mem_intercalate hfeed
    · exact absurd hfeed (by decide)
    · exact absurd ((isWord_of_mem_columns w hw).2 _ hfeed) (by decide)
  · induction rows with
    | nil => exact .nil
    | cons row rows ih => exact .row (Split.spaced_intercalate (by decide) _) ih

/-- The statistics of any services are read back from any two tables that render them, the totals
of all services and the rates of those that are `listed`; so is every address and port. -/
theorem ipvsadm_stats_read_back :
    (∀ (m : BTreeMapStats) (listed : ServiceKey → Bool) (statsRows rateRows : List Row)
      (stats rate : String), statsRows.Perm (m.toList.map statsRow) →
      rateRows.Perm ((m.toList.filter (listed ·.1)).map rateRow) →
      Renders statsRows stats → Renders rateRows rate →
      parseIpvsadmStats stats rate =
        m.toList.map fun (key, s) => (rowService key, if listed key then s else s.totals)) ∧
    ∀ addr port, parseAddrPort (vipPort addr port).toList = some (addr, port) := by
  refine ⟨fun m listed statsRows rateRows stats rate hstats hrates hs hr => ?_,
    parseAddrPort_vipPort⟩
  unfold parseIpvsadmStats
  dsimp only
  rw [foldl_readLine hs, foldl_readLine hr, (foldl_rows_equiv hstats hrates).toList_eq,
    Std.TreeMap.toList_map, List.map_map]
  rfl

section Sample

theorem Interleaves.of_words {row : Row} {rows : List Row} {line : List Char}
    {lines : List (List Char)} (hrow : splitWhitespace line = columns row)
    (hrest : Interleaves rows lines) : Interleaves (row :: rows) (line :: lines) :=
  .row (hrow ▸ Split.spaced_words line) hrest

theorem otherLine_of_head {line : List Char}
    (h : ((splitWhitespace line).head?.bind parseProto).isNone = true) : OtherLine line := by
  rintro word hword p rfl
  rw [hword, Option.bind_some, parseProto_ipvsadmProto] at h
  cases h

def webKey : ServiceKey := (.ofOctets 10 96 0 10, .Tcp, 80)

def dnsKey : ServiceKey := (.ofOctets 10 96 0 53, .Udp, 53)

def webStats : ServiceStats :=
  { connections := 12, packetsIn := 100, packetsOut := 90, bytesIn := 6000, bytesOut := 54000,
    cps := 1, ppsIn := 8, ppsOut := 7, bpsIn := 500, bpsOut := 4500 }

def dnsStats : ServiceStats :=
  { connections := 7, packetsIn := 7, packetsOut := 7, bytesIn := 500, bytesOut := 900, cps := 3 }

def sampleStats : BTreeMapStats := (Std.TreeMap.empty.insert dnsKey dnsStats).insert webKey webStats

/-- With a header, a destination and a service by its mark. -/
def totalsLines : List String := [
  "IP Virtual Server version 1.2.1 (size=4096)",
  "Prot LocalAddress:Port               Conns   InPkts  OutPkts  InBytes OutBytes",
  "  -> RemoteAddress:Port",
  "TCP  10.96.0.10:80                      12      100       90     6000    54000",
  "  -> 10.1.0.5:8080                      12      100       90     6000    54000",
  "FWM  3645                                4       40        0     2400        0",
  "UDP  10.96.0.53:53                       7        7        7      500      900",
  ""]

/-- Without a row for `dnsKey`. -/
def ratesLines : List String := [
  "Prot LocalAddress:Port                 CPS    InPPS   OutPPS    InBPS   OutBPS",
  "TCP  10.96.0.10:80                       1        8        7      500     4500"]

def tableOf (lines : List String) : String :=
  String.ofList (['\n'].intercalate (lines.map String.toList))

theorem renders_tableOf {rows : List Row} {lines : List String}
    (hfeed : ∀ line ∈ lines, '\n' ∉ line.toList) (h : Interleaves rows (lines.map String.toList)) :
    Renders rows (tableOf lines) :=
  ⟨_, String.toList_ofList, List.forall_mem_map.mpr hfeed, h⟩

end Sample

theorem sampleStats_read_back :
    parseIpvsadmStats (tableOf totalsLines) (tableOf ratesLines) =
      [(rowService webKey, webStats), (rowService dnsKey, { dnsStats with cps := 0 })] := by
  have hlist : sampleStats.toList = [(webKey, webStats), (dnsKey, dnsStats)] := by decide +kernel
  have htotals : Interleaves [statsRow (webKey, webStats), statsRow (dnsKey, dnsStats)]
      (totalsLines.map String.toList) :=
    .other (otherLine_of_head (by decide +kernel)) <|
    .other (otherLine_of_head (by decide +kernel)) <|
    .other (otherLine_of_head (by decide +kernel)) <| .of_words (by decide +kernel) <|
    .other (otherLine_of_head (by decide +kernel)) <|
    .other (otherLine_of_head (by decide +kernel)) <| .of_words (by decide +kernel) <|
    .other (otherLine_of_head (by decide +kernel)) .nil
  have hrates : Interleaves [rateRow (webKey, webStats)] (ratesLines.map String.toList) :=
    .other (otherLine_of_head (by decide +kernel)) <| .of_words (by decide +kernel) .nil
  have hread := ipvsadm_stats_read_back.1 sampleStats (fun key => key == webKey)
    [statsRow (webKey, webStats), statsRow (dnsKey, dnsStats)] [rateRow (webKey, webStats)]
    (tableOf totalsLines) (tableOf ratesLines) (by rw [hlist]; rfl) (by rw [hlist]; rfl)
    (renders_tableOf (by decide +kernel) htotals) (renders_tableOf (by decide +kernel) hrates)
  rw [hread, hlist]
  rfl

end KubeRouter.Proxy
