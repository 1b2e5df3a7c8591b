import RemoteAccess.QtText
import Mathlib.Data.List.Basic
import Mathlib.Tactic.Ring

/-! A text sent as UTF-8 and read back. Each character comes back as it was, an
unpaired surrogate as a question mark, and a byte order mark at the start not at all. -/

namespace RemoteAccess.QtUtf8

open QtText

/-- Every surrogate is one of a pair. -/
def wellFormed : QString → Bool
  | [] => true
  | [u] => !(isHighSurrogate u || isLowSurrogate u)
  | u :: v :: rest =>
    if isHighSurrogate u ∧ isLowSurrogate v then wellFormed rest
    else !(isHighSurrogate u || isLowSurrogate u) && wellFormed (v :: rest)

/-- What one code unit alone comes back as. -/
def unpaired (u : UInt16) : UInt16 := if isHighSurrogate u ∨ isLowSurrogate u then 0x3F else u

def readBack : QString → QString
  | [] => []
  | [u] => [unpaired u]
  | u :: v :: rest =>
    if isHighSurrogate u ∧ isLowSurrogate v then u :: v :: readBack rest
    else unpaired u :: readBack (v :: rest)

theorem length_readBack (text : QString) : (readBack text).length = text.length := by
  fun_induction readBack text with
  | case1 => rfl
  | case2 u => rfl
  | case3 u v rest pair ih => simp [ih]
  | case4 u v rest pair ih => simpa using ih

theorem unpaired_eq_iff (u : UInt16) :
    unpaired u = u ↔ (!(isHighSurrogate u || isLowSurrogate u)) = true := by
  unfold unpaired
  split_ifs with surrogate
  · have other : (0x3F : UInt16) ≠ u := by
      rintro rfl
      revert surrogate
      decide
    simp only [other, false_iff, Bool.not_eq_true', Bool.or_eq_false_iff, not_and_or,
      Bool.not_eq_false]
    exact surrogate
  · simpa using surrogate

theorem readBack_eq_iff (text : QString) : readBack text = text ↔ wellFormed text = true := by
  fun_induction readBack text with
  | case1 => simp [wellFormed]
  | case2 u => simp only [wellFormed, ← unpaired_eq_iff, List.cons.injEq, and_true]
  | case3 u v rest pair ih => simp [wellFormed, pair, ih]
  | case4 u v rest pair ih =>
    rw [wellFormed, if_neg pair, Bool.and_eq_true, ← unpaired_eq_iff, ← ih, List.cons.injEq]

/-! ### One character -/

theorem continuation_spec (n : Nat) :
    isContinuationByte (continuation n) = true ∧ (continuation n &&& 0x3F).toNat = n % 64 := by
  have all : ∀ k < 64, isContinuationByte (UInt8.ofNat (0x80 + k)) = true ∧
      (UInt8.ofNat (0x80 + k) &&& 0x3F).toNat = k := by decide
  exact all (n % 64) (Nat.mod_lt n (by decide))

theorem skip_bytes (bytes rest : List UInt8) :
    convertToUnicode bytes.length (bytes ++ rest) = convertToUnicode 0 rest := by
  induction bytes with
  | nil => rfl
  | cons b bytes ih => exact ih

theorem decodeTail_one {lead : Nat} (n : Nat) (rest : List UInt8) (value : lead * 64 + n % 64 = n)
    (wide : 0x80 ≤ n) (narrow : n < 0x800) :
    decodeTail 1 0x80 lead (continuation n :: rest) = some (utf16 n, 1) := by
  obtain ⟨marked, bits⟩ := continuation_spec n
  have plain : isSurrogate n = false := by
    simp only [isSurrogate, decide_eq_false_iff_not]
    omega
  simp only [decodeTail, List.take_succ_cons, List.take_zero, List.length_singleton, List.all_cons,
    List.all_nil, marked, List.foldl_cons, List.foldl_nil, bits, value, plain]
  simp only [Nat.lt_irrefl, false_or, Bool.and_self, not_true_eq_false, if_false]
  rw [if_neg (by simp; omega)]

theorem decodeTail_two {lead : Nat} (n : Nat) (rest : List UInt8)
    (value : (lead * 64 + n / 64 % 64) * 64 + n % 64 = n) (wide : 0x800 ≤ n) (bmp : n < 0x10000)
    (plain : isSurrogate n = false) :
    decodeTail 2 0x800 lead (continuation (n / 64) :: continuation n :: rest) =
      some (utf16 n, 2) := by
  obtain ⟨marked, bits⟩ := continuation_spec n
  obtain ⟨marked', bits'⟩ := continuation_spec (n / 64)
  simp only [decodeTail, List.take_succ_cons, List.take_zero, List.length_cons, List.length_nil,
    List.all_cons, List.all_nil, marked, marked', List.foldl_cons, List.foldl_nil, bits, bits',
    value, plain]
  simp only [Nat.lt_irrefl, false_or, Bool.and_self, not_true_eq_false, if_false]
  rw [if_neg (by simp; omega)]

theorem decodeTail_three {lead : Nat} (n : Nat) (rest : List UInt8)
    (value : ((lead * 64 + n / 4096 % 64) * 64 + n / 64 % 64) * 64 + n % 64 = n)
    (wide : 0x10000 ≤ n) (last : n ≤ 0x10FFFF) :
    decodeTail 3 0x10000 lead
        (continuation (n / 4096) :: continuation (n / 64) :: continuation n :: rest) =
      some (utf16 n, 3) := by
  obtain ⟨marked, bits⟩ := continuation_spec n
  obtain ⟨marked', bits'⟩ := continuation_spec (n / 64)
  obtain ⟨marked'', bits''⟩ := continuation_spec (n / 4096)
  have plain : isSurrogate n = false := by
    simp only [isSurrogate, decide_eq_false_iff_not]
    omega
  simp only [decodeTail, List.take_succ_cons, List.take_zero, List.length_cons, List.length_nil,
    List.all_cons, List.all_nil, marked, marked', marked'', List.foldl_cons, List.foldl_nil, bits,
    bits', bits'', value, plain]
  simp only [Nat.lt_irrefl, false_or, Bool.and_self, not_true_eq_false, if_false]
  rw [if_neg (by simp; omega)]

theorem lead_two (k : Nat) (low : 2 ≤ k) (high : k < 32) :
    ¬ UInt8.ofNat (0xC0 + k) < 0x80 ∧ ¬ UInt8.ofNat (0xC0 + k) ≤ 0xC1 ∧
      UInt8.ofNat (0xC0 + k) < 0xE0 ∧ (UInt8.ofNat (0xC0 + k) &&& 0x1F).toNat = k := by
  have all : ∀ k < 32, 2 ≤ k → ¬ UInt8.ofNat (0xC0 + k) < 0x80 ∧ ¬ UInt8.ofNat (0xC0 + k) ≤ 0xC1 ∧
      UInt8.ofNat (0xC0 + k) < 0xE0 ∧ (UInt8.ofNat (0xC0 + k) &&& 0x1F).toNat = k := by decide
  exact all k high low

theorem lead_three (k : Nat) (high : k < 16) :
    ¬ UInt8.ofNat (0xE0 + k) < 0x80 ∧ ¬ UInt8.ofNat (0xE0 + k) ≤ 0xC1 ∧
      ¬ UInt8.ofNat (0xE0 + k) < 0xE0 ∧ UInt8.ofNat (0xE0 + k) < 0xF0 ∧
      (UInt8.ofNat (0xE0 + k) &&& 0x0F).toNat = k := by
  revert k
  decide

theorem lead_four (k : Nat) (high : k < 5) :
    ¬ UInt8.ofNat (0xF0 + k) < 0x80 ∧ ¬ UInt8.ofNat (0xF0 + k) ≤ 0xC1 ∧
      ¬ UInt8.ofNat (0xF0 + k) < 0xE0 ∧ ¬ UInt8.ofNat (0xF0 + k) < 0xF0 ∧
      UInt8.ofNat (0xF0 + k) < 0xF5 ∧ (UInt8.ofNat (0xF0 + k) &&& 0x07).toNat = k := by
  revert k
  decide

theorem isHighSurrogate_iff (u : UInt16) :
    isHighSurrogate u = true ↔ 0xD800 ≤ u.toNat ∧ u.toNat < 0xDC00 := by
  rw [isHighSurrogate, decide_eq_true_iff, UInt16.le_iff_toNat_le, UInt16.lt_iff_toNat_lt]
  exact Iff.rfl

theorem isLowSurrogate_iff (u : UInt16) :
    isLowSurrogate u = true ↔ 0xDC00 ≤ u.toNat ∧ u.toNat < 0xE000 := by
  rw [isLowSurrogate, decide_eq_true_iff, UInt16.le_iff_toNat_le, UInt16.lt_iff_toNat_lt]
  exact Iff.rfl

theorem convertToUnicode_character {b : UInt8} {tail rest : List UInt8} {units : QString}
    (read : decodeCharacter b (tail ++ rest) = some (units, tail.length)) :
    convertToUnicode 0 (b :: tail ++ rest) = units ++ convertToUnicode 0 rest := by
  rw [List.cons_append, convertToUnicode, read]
  simp only [skip_bytes]

theorem utf16_unit (u : UInt16) : utf16 u.toNat = [u] := by
  rw [utf16, if_pos u.toNat_lt, UInt16.ofNat_toNat]

theorem decodeCharacter_ascii {u : UInt16} (ascii : u.toNat < 0x80) (rest : List UInt8) :
    decodeCharacter (UInt8.ofNat u.toNat) rest = some ([u], 0) := by
  have byte : (UInt8.ofNat u.toNat).toNat = u.toNat := by
    rw [UInt8.toNat_ofNat']
    omega
  have small : UInt8.ofNat u.toNat < 0x80 := by
    rw [UInt8.lt_iff_toNat_lt, byte]
    exact ascii
  have value : (UInt8.ofNat u.toNat).toUInt16 = u := by
    apply UInt16.toNat_inj.mp
    rw [UInt8.toNat_toUInt16, byte]
  rw [decodeCharacter, if_pos small, value]

theorem decode_encodeUnit (u : UInt16) (rest : List UInt8) :
    convertToUnicode 0 (encodeUnit u ++ rest) = unpaired u :: convertToUnicode 0 rest := by
  have bound : u.toNat < 65536 := u.toNat_lt
  unfold encodeUnit unpaired
  simp only [isHighSurrogate_iff, isLowSurrogate_iff]
  split_ifs with ascii _ two <;> try omega
  · exact @convertToUnicode_character _ [] rest [u] (decodeCharacter_ascii ascii rest)
  · obtain ⟨low, high, lead, bits⟩ := lead_two (u.toNat / 64) (by omega) (by omega)
    refine @convertToUnicode_character _ [_] rest [u] ?_
    rw [decodeCharacter, if_neg low, if_neg high, if_pos lead, bits, ← utf16_unit]
    exact decodeTail_one u.toNat rest (by omega) (by omega) two
  · exact @convertToUnicode_character 0x3F [] rest [0x3F] rfl
  · have plain : isSurrogate u.toNat = false := by
      rw [isSurrogate, decide_eq_false_iff_not]
      omega
    obtain ⟨low, high, two', lead, bits⟩ := lead_three (u.toNat / 4096) (by omega)
    refine @convertToUnicode_character _ [_, _] rest [u] ?_
    rw [decodeCharacter, if_neg low, if_neg high, if_neg two', if_pos lead, bits, ← utf16_unit]
    exact decodeTail_two u.toNat rest (by omega) (by omega) bound plain

theorem decode_encodePair {high low : UInt16} (isHigh : isHighSurrogate high = true)
    (isLow : isLowSurrogate low = true) (rest : List UInt8) :
    convertToUnicode 0 (encodePair high low ++ rest) = high :: low :: convertToUnicode 0 rest := by
  rw [isHighSurrogate_iff] at isHigh
  rw [isLowSurrogate_iff] at isLow
  let n := 0x10000 + (high.toNat - 0xD800) * 1024 + (low.toNat - 0xDC00)
  have wide : 0x10000 ≤ n := by omega
  have last : n ≤ 0x10FFFF := by omega
  have units : utf16 n = [high, low] := by
    have first : 0xD7C0 + n / 1024 = high.toNat := by omega
    have second : 0xDC00 + n % 1024 = low.toNat := by omega
    rw [utf16, if_neg (by omega), first, second, UInt16.ofNat_toNat, UInt16.ofNat_toNat]
  obtain ⟨one, two, three, four, lead, bits⟩ := lead_four (n / 262144) (by omega)
  refine @convertToUnicode_character _ [_, _, _] rest [high, low] ?_
  rw [decodeCharacter, if_neg one, if_neg two, if_neg three, if_neg four, if_pos lead, bits,
    ← units]
  exact decodeTail_three n rest (by omega) wide last

theorem convertToUnicode_toUtf8 (text : QString) :
    convertToUnicode 0 (toUtf8 text) = readBack text := by
  fun_induction toUtf8 text with
  | case1 => rfl
  | case2 u =>
    have alone := decode_encodeUnit u []
    rwa [List.append_nil] at alone
  | case3 u v rest pair ih => rw [decode_encodePair pair.1 pair.2, ih, readBack, if_pos pair]
  | case4 u v rest pair ih => rw [decode_encodeUnit, ih, readBack, if_neg pair]

/-! ### Marks in front of a text -/

def isOwn (u : UInt16) : Bool := !(isHighSurrogate u || isLowSurrogate u) && u != 0x3F

theorem unpaired_of_isOwn {u : UInt16} (own : isOwn u = true) : unpaired u = u :=
  (unpaired_eq_iff u).mpr (Bool.and_eq_true_iff.mp own).1

theorem toUtf8_unit {u : UInt16} (single : isHighSurrogate u = false) (rest : QString) :
    toUtf8 (u :: rest) = encodeUnit u ++ toUtf8 rest := by
  cases rest with
  | nil => simp [toUtf8]
  | cons v rest =>
    rw [toUtf8, if_neg]
    simp [single]

theorem toUtf8_cons {u : UInt16} (own : isOwn u = true) (rest : QString) :
    toUtf8 (u :: rest) = encodeUnit u ++ toUtf8 rest := by
  refine toUtf8_unit ?_ rest
  simp only [isOwn, Bool.and_eq_true, Bool.not_eq_true', Bool.or_eq_false_iff] at own
  exact own.1.1

theorem toUtf8_append {mark : QString} (own : ∀ u ∈ mark, isOwn u = true) (rest : QString) :
    toUtf8 (mark ++ rest) = toUtf8 mark ++ toUtf8 rest := by
  induction mark with
  | nil => rfl
  | cons u mark ih =>
    rw [List.forall_mem_cons] at own
    rw [List.cons_append, toUtf8_cons own.1, ih own.2, toUtf8_cons own.1, List.append_assoc]

theorem convertToUnicode_append {mark : QString} (own : ∀ u ∈ mark, isOwn u = true)
    (bytes : List UInt8) :
    convertToUnicode 0 (toUtf8 mark ++ bytes) = mark ++ convertToUnicode 0 bytes := by
  induction mark with
  | nil => rfl
  | cons u mark ih =>
    rw [List.forall_mem_cons] at own
    rw [toUtf8_cons own.1, List.append_assoc, decode_encodeUnit, ih own.2,
      unpaired_of_isOwn own.1, List.cons_append]

theorem readBack_cons_of_head {u : UInt16} {text units : QString} (own : isOwn u = true)
    (starts : readBack text = u :: units) : ∃ rest, text = u :: rest ∧ readBack rest = units := by
  have same : ∀ v, unpaired v = u → v = u := by
    intro v value
    unfold unpaired at value
    split_ifs at value
    · simp [isOwn, ← value] at own
    · exact value
  revert starts
  fun_cases readBack text with
  | case1 => exact nofun
  | case2 v =>
    intro starts
    obtain ⟨head, rfl⟩ := List.cons.inj starts
    exact ⟨[], by rw [same v head], rfl⟩
  | case3 v w rest pair =>
    intro starts
    obtain ⟨rfl, -⟩ := List.cons.inj starts
    simp [isOwn, pair.1] at own
  | case4 v w rest pair =>
    intro starts
    obtain ⟨head, tail⟩ := List.cons.inj starts
    exact ⟨w :: rest, by rw [same v head], tail⟩

theorem prefix_of_prefix_readBack {mark text : QString} (own : ∀ u ∈ mark, isOwn u = true)
    (starts : mark <+: readBack text) : mark <+: text := by
  induction mark generalizing text with
  | nil => exact List.nil_prefix
  | cons u mark ih =>
    rw [List.forall_mem_cons] at own
    obtain ⟨units, same⟩ := starts
    obtain ⟨rest, rfl, tail⟩ := readBack_cons_of_head own.1 same.symm
    exact List.cons_prefix_cons.mpr ⟨rfl, ih own.2 (tail ▸ List.prefix_append mark units)⟩

theorem toUtf8_prefix_iff {mark : QString} (own : ∀ u ∈ mark, isOwn u = true) (text : QString) :
    toUtf8 mark <+: toUtf8 text ↔ mark <+: text := by
  constructor
  · rintro ⟨bytes, same⟩
    have read := convertToUnicode_toUtf8 text
    rw [← same, convertToUnicode_append own] at read
    exact prefix_of_prefix_readBack own (read ▸ List.prefix_append mark _)
  · rintro ⟨rest, rfl⟩
    rw [toUtf8_append own]
    exact List.prefix_append _ _

/-! ### The byte order mark -/

theorem head_readBack (text : QString) :
    (readBack text).head? = some 0xFEFF ↔ text.head? = some 0xFEFF := by
  have mark : ∀ u, unpaired u = 0xFEFF ↔ u = 0xFEFF := by
    intro u
    unfold unpaired
    split_ifs with surrogate
    · refine iff_of_false (by decide) ?_
      rintro rfl
      revert surrogate
      decide
    · exact Iff.rfl
  fun_cases readBack text with
  | case1 => exact Iff.rfl
  | case2 u => simp [mark]
  | case3 u v rest pair => simp
  | case4 u v rest pair => simp [mark]

theorem toUtf8_mark (rest : QString) :
    toUtf8 (0xFEFF :: rest) = 0xEF :: 0xBB :: 0xBF :: toUtf8 rest := by
  cases rest with
  | nil => rfl
  | cons v rest =>
    rw [toUtf8, if_neg (by simp [isHighSurrogate])]
    rfl

theorem isPrefixOf_toUtf8 (text : QString) :
    [0xEF, 0xBB, 0xBF].isPrefixOf (toUtf8 text) = true ↔ text.head? = some 0xFEFF := by
  constructor
  · intro marked
    obtain ⟨rest, bytes⟩ := List.isPrefixOf_iff_prefix.mp marked
    have read := convertToUnicode_toUtf8 text
    rw [← bytes] at read
    rw [← head_readBack, ← read]
    rfl
  · intro marked
    cases text with
    | nil => cases marked
    | cons u rest =>
      obtain rfl := Option.some.inj marked
      rw [toUtf8_mark]
      rfl

/-! ### The whole text -/

def withoutMark (text : QString) : QString := if text.head? = some 0xFEFF then text.tail else text

theorem fromUtf8_toUtf8 {text : QString} (fits : (toUtf8 text).length < 2 ^ 31) :
    fromUtf8 (toUtf8 text) (intOfSize (toUtf8 text).length) = readBack (withoutMark text) := by
  have whole : ¬ ((toUtf8 text).length : Int) < 0 := by omega
  simp only [fromUtf8, intOfSize_eq fits, if_neg whole, Int.toNat_natCast, List.take_length,
    isPrefixOf_toUtf8, withoutMark]
  split_ifs with marked
  · cases text with
    | nil => cases marked
    | cons u rest =>
      obtain rfl := Option.some.inj marked
      rw [toUtf8_mark]
      exact convertToUnicode_toUtf8 rest
  · exact convertToUnicode_toUtf8 text

/-- A text comes back as it was sent. -/
def survives (text : QString) : Bool := wellFormed text && text.head? != some 0xFEFF

/-- Exactly the well-formed texts without a byte order mark come back as they were. -/
theorem fromUtf8_toUtf8_eq_iff {text : QString} (fits : (toUtf8 text).length < 2 ^ 31) :
    fromUtf8 (toUtf8 text) (intOfSize (toUtf8 text).length) = text ↔ survives text = true := by
  rw [fromUtf8_toUtf8 fits, survives, withoutMark, Bool.and_eq_true, bne_iff_ne]
  split_ifs with marked
  · refine iff_of_false (fun same => ?_) (fun both => both.2 marked)
    have len := congrArg List.length same
    cases text with
    | nil => cases marked
    | cons u rest => simp [length_readBack] at len
  · rw [readBack_eq_iff]
    exact ⟨fun ok => ⟨ok, marked⟩, And.left⟩

theorem fromUtf8_whole {text : QString} (ok : survives text = true) :
    fromUtf8 (toUtf8 text) (toUtf8 text).length = text := by
  rw [survives, Bool.and_eq_true, bne_iff_ne] at ok
  have whole : ¬ ((toUtf8 text).length : Int) < 0 := by omega
  have unmarked : ¬ [0xEF, 0xBB, 0xBF].isPrefixOf (toUtf8 text) = true := by
    rw [isPrefixOf_toUtf8]
    exact ok.2
  simp only [fromUtf8, if_neg whole, Int.toNat_natCast, List.take_length, if_neg unmarked]
  rw [convertToUnicode_toUtf8]
  exact (readBack_eq_iff text).mpr ok.1

/-! ### Bytes read without a replacement -/

theorem continuation_of {c : UInt8} (marked : isContinuationByte c = true) :
    c = continuation (c &&& 0x3F).toNat ∧ (c &&& 0x3F).toNat < 64 := by
  have all : ∀ k < 256, isContinuationByte (UInt8.ofNat k) = true →
      UInt8.ofNat k = continuation (UInt8.ofNat k &&& 0x3F).toNat ∧
        (UInt8.ofNat k &&& 0x3F).toNat < 64 := by decide +kernel
  have here := all c.toNat c.toNat_lt
  rw [UInt8.ofNat_toNat] at here
  exact here marked

theorem decodeTail_some {needed min_uc lead used : Nat} {rest : List UInt8} {units : QString}
    (read : decodeTail needed min_uc lead rest = some (units, used)) :
    used = needed ∧ (rest.take needed).length = needed ∧
      (∀ c ∈ rest.take needed, isContinuationByte c = true) ∧ ∃ n, units = utf16 n ∧
        n = (rest.take needed).foldl (fun uc b => uc * 64 + (b &&& 0x3F).toNat) lead ∧
        min_uc ≤ n ∧ n ≤ 0x10FFFF ∧ isSurrogate n = false := by
  simp only [decodeTail] at read
  split_ifs at read with cut odd
  obtain ⟨rfl, rfl⟩ := Prod.mk.inj (Option.some.inj read)
  rw [not_or, not_lt, not_not] at cut
  rw [not_or, not_or, not_lt, not_lt, Bool.not_eq_true] at odd
  refine ⟨rfl, Nat.le_antisymm (List.length_take_le _ _) cut.1, List.all_eq_true.mp cut.2, _, rfl,
    rfl, odd.1, odd.2.2, odd.2.1⟩

theorem continuation_mod {n k : Nat} (low : n % 64 = k % 64) : continuation n = continuation k := by
  rw [continuation, continuation, low]

theorem tail_one {rest : List UInt8} {lead used : Nat} {units : QString}
    (read : decodeTail 1 0x80 lead rest = some (units, used)) :
    ∃ n, units = utf16 n ∧ 0x80 ≤ n ∧ n / 64 = lead ∧ rest.take used = [continuation n] := by
  obtain ⟨rfl, length, marked, n, rfl, value, low, -⟩ := decodeTail_some read
  obtain ⟨c, tail⟩ := List.length_eq_one_iff.mp length
  rw [tail] at value marked ⊢
  obtain ⟨byte, bits⟩ := continuation_of (marked c (by simp))
  simp only [List.foldl_cons, List.foldl_nil] at value
  have last : c = continuation n := byte.trans (continuation_mod (by omega))
  exact ⟨n, rfl, low, by omega, by rw [last]⟩

theorem tail_two {rest : List UInt8} {lead used : Nat} {units : QString}
    (read : decodeTail 2 0x800 lead rest = some (units, used)) :
    ∃ n, units = utf16 n ∧ 0x800 ≤ n ∧ isSurrogate n = false ∧ n / 4096 = lead ∧
      rest.take used = [continuation (n / 64), continuation n] := by
  obtain ⟨rfl, length, marked, n, rfl, value, low, -, plain⟩ := decodeTail_some read
  obtain ⟨c, d, tail⟩ := List.length_eq_two.mp length
  rw [tail] at value marked ⊢
  obtain ⟨byte, bits⟩ := continuation_of (marked c (by simp))
  obtain ⟨byte', bits'⟩ := continuation_of (marked d (by simp))
  simp only [List.foldl_cons, List.foldl_nil] at value
  have first : c = continuation (n / 64) := byte.trans (continuation_mod (by omega))
  have last : d = continuation n := byte'.trans (continuation_mod (by omega))
  exact ⟨n, rfl, low, plain, by omega, by rw [first, last]⟩

theorem tail_three {rest : List UInt8} {lead used : Nat} {units : QString}
    (read : decodeTail 3 0x10000 lead rest = some (units, used)) :
    ∃ n, units = utf16 n ∧ 0x10000 ≤ n ∧ n ≤ 0x10FFFF ∧ n / 262144 = lead ∧
      rest.take used = [continuation (n / 4096), continuation (n / 64), continuation n] := by
  obtain ⟨rfl, length, marked, n, rfl, value, low, high, -⟩ := decodeTail_some read
  obtain ⟨c, d, e, tail⟩ := List.length_eq_three.mp length
  rw [tail] at value marked ⊢
  obtain ⟨byte, bits⟩ := continuation_of (marked c (by simp))
  obtain ⟨byte', bits'⟩ := continuation_of (marked d (by simp))
  obtain ⟨byte'', bits''⟩ := continuation_of (marked e (by simp))
  simp only [List.foldl_cons, List.foldl_nil] at value
  have first : c = continuation (n / 4096) := byte.trans (continuation_mod (by omega))
  have second : d = continuation (n / 64) := byte'.trans (continuation_mod (by omega))
  have last : e = continuation n := byte''.trans (continuation_mod (by omega))
  exact ⟨n, rfl, low, high, by omega, by rw [first, second, last]⟩

theorem lead_of_two {b : UInt8} (leads : ¬ b ≤ 0xC1) (two : b < 0xE0) :
    UInt8.ofNat (0xC0 + (b &&& 0x1F).toNat) = b ∧ (b &&& 0x1F).toNat < 32 := by
  have all : ∀ k < 256, ¬ UInt8.ofNat k ≤ 0xC1 → UInt8.ofNat k < 0xE0 →
      UInt8.ofNat (0xC0 + (UInt8.ofNat k &&& 0x1F).toNat) = UInt8.ofNat k ∧
        (UInt8.ofNat k &&& 0x1F).toNat < 32 := by decide +kernel
  have here := all b.toNat b.toNat_lt
  rw [UInt8.ofNat_toNat] at here
  exact here leads two

theorem lead_of_three {b : UInt8} (leads : ¬ b < 0xE0) (three : b < 0xF0) :
    UInt8.ofNat (0xE0 + (b &&& 0x0F).toNat) = b ∧ (b &&& 0x0F).toNat < 16 := by
  have all : ∀ k < 256, ¬ UInt8.ofNat k < 0xE0 → UInt8.ofNat k < 0xF0 →
      UInt8.ofNat (0xE0 + (UInt8.ofNat k &&& 0x0F).toNat) = UInt8.ofNat k ∧
        (UInt8.ofNat k &&& 0x0F).toNat < 16 := by decide +kernel
  have here := all b.toNat b.toNat_lt
  rw [UInt8.ofNat_toNat] at here
  exact here leads three

theorem lead_of_four {b : UInt8} (leads : ¬ b < 0xF0) (four : b < 0xF5) :
    UInt8.ofNat (0xF0 + (b &&& 0x07).toNat) = b := by
  have all : ∀ k < 256, ¬ UInt8.ofNat k < 0xF0 → UInt8.ofNat k < 0xF5 →
      UInt8.ofNat (0xF0 + (UInt8.ofNat k &&& 0x07).toNat) = UInt8.ofNat k := by decide +kernel
  have here := all b.toNat b.toNat_lt
  rw [UInt8.ofNat_toNat] at here
  exact here leads four

/-- What stands for a character: the bytes of one unit that is no surrogate, or of a pair. -/
inductive Written : QString → List UInt8 → Prop
  | unit {u : UInt16} : isHighSurrogate u = false → Written [u] (encodeUnit u)
  | pair {high low : UInt16} : isHighSurrogate high = true → isLowSurrogate low = true →
      Written [high, low] (encodePair high low)

theorem toUtf8_written {units : QString} {bytes : List UInt8} (written : Written units bytes)
    (rest : QString) : toUtf8 (units ++ rest) = bytes ++ toUtf8 rest := by
  cases written with
  | unit single => exact toUtf8_unit single rest
  | pair isHigh isLow => exact if_pos ⟨isHigh, isLow⟩

theorem toNat_ofNat_unit {n : Nat} (bmp : n < 0x10000) : (UInt16.ofNat n).toNat = n :=
  Nat.mod_eq_of_lt bmp

theorem written_ascii {b : UInt8} (ascii : b < 0x80) : Written [b.toUInt16] [b] := by
  have small : b.toUInt16.toNat < 0x80 := UInt8.lt_iff_toNat_lt.mp ascii
  have bytes : encodeUnit b.toUInt16 = [b] := by
    rw [encodeUnit, if_pos small, UInt8.toNat_toUInt16, UInt8.ofNat_toNat]
  have single : isHighSurrogate b.toUInt16 = false := by
    rw [← Bool.not_eq_true, isHighSurrogate_iff]
    omega
  exact bytes ▸ Written.unit single

theorem written_two {n : Nat} (low : 0x80 ≤ n) (high : n < 0x800) :
    Written (utf16 n) [UInt8.ofNat (0xC0 + n / 64), continuation n] := by
  have value := toNat_ofNat_unit (show n < 0x10000 by omega)
  have bytes : encodeUnit (UInt16.ofNat n) = [UInt8.ofNat (0xC0 + n / 64), continuation n] := by
    simp only [encodeUnit, value]
    rw [if_neg (by omega), if_pos high]
  have single : isHighSurrogate (UInt16.ofNat n) = false := by
    rw [← Bool.not_eq_true, isHighSurrogate_iff, value]
    omega
  rw [utf16, if_pos (by omega), ← bytes]
  exact .unit single

theorem written_three {n : Nat} (low : 0x800 ≤ n) (high : n < 0x10000)
    (plain : isSurrogate n = false) :
    Written (utf16 n)
      [UInt8.ofNat (0xE0 + n / 4096), continuation (n / 64), continuation n] := by
  have value := toNat_ofNat_unit high
  rw [isSurrogate, decide_eq_false_iff_not] at plain
  have single : isHighSurrogate (UInt16.ofNat n) = false := by
    rw [← Bool.not_eq_true, isHighSurrogate_iff, value]
    omega
  have alone : ¬ (isHighSurrogate (UInt16.ofNat n) = true ∨
      isLowSurrogate (UInt16.ofNat n) = true) := by
    rw [isHighSurrogate_iff, isLowSurrogate_iff, value]
    omega
  have bytes : encodeUnit (UInt16.ofNat n) =
      [UInt8.ofNat (0xE0 + n / 4096), continuation (n / 64), continuation n] := by
    simp only [encodeUnit, value]
    rw [if_neg (by omega), if_neg (by omega), if_neg alone]
  rw [utf16, if_pos high, ← bytes]
  exact .unit single

theorem written_four {n : Nat} (low : 0x10000 ≤ n) (high : n ≤ 0x10FFFF) :
    Written (utf16 n) [UInt8.ofNat (0xF0 + n / 262144), continuation (n / 4096),
      continuation (n / 64), continuation n] := by
  have first := toNat_ofNat_unit (show 0xD7C0 + n / 1024 < 0x10000 by omega)
  have second := toNat_ofNat_unit (show 0xDC00 + n % 1024 < 0x10000 by omega)
  have number :
      0x10000 + (0xD7C0 + n / 1024 - 0xD800) * 1024 + (0xDC00 + n % 1024 - 0xDC00) = n := by
    omega
  have bytes : encodePair (UInt16.ofNat (0xD7C0 + n / 1024)) (UInt16.ofNat (0xDC00 + n % 1024)) =
      [UInt8.ofNat (0xF0 + n / 262144), continuation (n / 4096), continuation (n / 64),
        continuation n] := by
    simp only [encodePair, first, second, number]
  rw [utf16, if_neg (by omega), ← bytes]
  refine .pair ?_ ?_
  · rw [isHighSurrogate_iff, first]
    omega
  · rw [isLowSurrogate_iff, second]
    omega

theorem decodeCharacter_written {b : UInt8} {rest : List UInt8} {units : QString} {used : Nat}
    (read : decodeCharacter b rest = some (units, used)) :
    Written units (b :: rest.take used) := by
  unfold decodeCharacter at read
  split_ifs at read with ascii early two three four
  · obtain ⟨rfl, rfl⟩ := Prod.mk.inj (Option.some.inj read)
    exact written_ascii ascii
  · obtain ⟨n, rfl, low, lead, tail⟩ := tail_one read
    obtain ⟨byte, bits⟩ := lead_of_two early two
    rw [tail, ← byte, ← lead]
    exact written_two low (by omega)
  · obtain ⟨n, rfl, low, plain, lead, tail⟩ := tail_two read
    obtain ⟨byte, bits⟩ := lead_of_three two three
    rw [tail, ← byte, ← lead]
    exact written_three low (by omega) plain
  · obtain ⟨n, rfl, low, high, lead, tail⟩ := tail_three read
    rw [tail, ← lead_of_four three four, ← lead]
    exact written_four low high

theorem convertToUnicode_skip (skip : Nat) (bytes : List UInt8) :
    convertToUnicode skip bytes = convertToUnicode 0 (bytes.drop skip) := by
  induction bytes generalizing skip with
  | nil => cases skip <;> rfl
  | cons b bytes ih =>
    cases skip with
    | zero => rfl
    | succ skip => exact ih skip

theorem ascii_of_mem_written {units : QString} {bytes : List UInt8} (written : Written units bytes)
    {b : UInt8} (ascii : b < 0x80) (member : b.toUInt16 ∈ units) : b ∈ bytes := by
  have small : b.toUInt16.toNat < 0x80 := UInt8.lt_iff_toNat_lt.mp ascii
  cases written with
  | unit single =>
    obtain rfl := List.mem_singleton.mp member
    rw [encodeUnit, if_pos small, UInt8.toNat_toUInt16, UInt8.ofNat_toNat]
    exact List.mem_singleton_self b
  | @pair high low isHigh isLow =>
    rw [isHighSurrogate_iff] at isHigh
    rw [isLowSurrogate_iff] at isLow
    obtain rfl | rfl := List.mem_pair.mp member <;> omega

/-- A unit below 0x80 is read from its own byte only, so no byte sequence hides a separator. -/
theorem ascii_of_mem_convertToUnicode {bytes : List UInt8} {b : UInt8} (ascii : b < 0x80)
    (member : b.toUInt16 ∈ convertToUnicode 0 bytes) : b ∈ bytes := by
  have small : b.toUInt16.toNat < 0x80 := UInt8.lt_iff_toNat_lt.mp ascii
  induction size : bytes.length using Nat.strongRecOn generalizing bytes with
  | ind size ih =>
    subst size
    cases bytes with
    | nil => cases member
    | cons first rest =>
      rw [convertToUnicode] at member
      cases read : decodeCharacter first rest with
      | none =>
        rw [read] at member
        obtain replaced | later := List.mem_cons.mp member
        · rw [replaced] at small
          exact absurd small (by decide)
        · exact List.mem_cons_of_mem first (ih rest.length (by simp) later rfl)
      | some parts =>
        obtain ⟨units, used⟩ := parts
        rw [read] at member
        simp only [convertToUnicode_skip used] at member
        obtain here | later := List.mem_append.mp member
        · have among := ascii_of_mem_written (decodeCharacter_written read) ascii here
          exact List.cons_subset_cons first (List.take_subset used rest) among
        · have shorter : (rest.drop used).length < (first :: rest).length := by
            rw [List.length_drop, List.length_cons]
            omega
          exact List.mem_cons_of_mem first (List.drop_subset used rest (ih _ shorter later rfl))

theorem toUtf8_convertToUnicode {bytes : List UInt8}
    (whole : 0xFFFD ∉ convertToUnicode 0 bytes) : toUtf8 (convertToUnicode 0 bytes) = bytes := by
  induction size : bytes.length using Nat.strongRecOn generalizing bytes with
  | ind size ih =>
    subst size
    cases bytes with
    | nil => rfl
    | cons b rest =>
      rw [convertToUnicode] at whole ⊢
      cases read : decodeCharacter b rest with
      | none => rw [read] at whole; simp at whole
      | some parts =>
        obtain ⟨units, used⟩ := parts
        rw [read] at whole
        simp only [convertToUnicode_skip used, List.mem_append, not_or] at whole ⊢
        have later := ih (rest.drop used).length
          (by rw [List.length_drop, List.length_cons]; omega) whole.2 rfl
        rw [toUtf8_written (decodeCharacter_written read), later, List.cons_append,
          List.take_append_drop]

end RemoteAccess.QtUtf8
