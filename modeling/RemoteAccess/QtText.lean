import Mathlib.Tactic.Ring

/-! The `QString` operations the two programs use, on UTF-16 code units. Qt's
decoder puts one replacement character for every byte it cannot use and goes on
with the next byte; its encoder puts a question mark for an unpaired surrogate. -/

namespace RemoteAccess.QtText

abbrev QString := List UInt16

/-- A source literal; the ones modelled need one code unit a character. -/
def literal (text : List Char) : QString := text.map fun c => UInt16.ofNat c.toNat

/-- `static_cast<int>` of a `size_t`. -/
def intOfSize (n : Nat) : Int := (BitVec.ofNat 32 n).toInt

theorem intOfSize_eq {n : Nat} (fits : n < 2 ^ 31) : intOfSize n = n := by
  rw [intOfSize, BitVec.toInt_ofNat']
  exact Int.bmod_eq_of_le_mul_two (by omega) (by omega)

/-! ### From UTF-8 -/

def isContinuationByte (b : UInt8) : Bool := b &&& 0xC0 == 0x80

def isSurrogate (uc : Nat) : Bool := decide (0xD800 ≤ uc ∧ uc < 0xE000)

def utf16 (uc : Nat) : QString :=
  if uc < 0x10000 then [UInt16.ofNat uc]
  else [UInt16.ofNat (0xD7C0 + uc / 1024), UInt16.ofNat (0xDC00 + uc % 1024)]

/-- The continuation bytes of a character with lead bits `lead`. -/
def decodeTail (needed min_uc lead : Nat) (rest : List UInt8) : Option (QString × Nat) :=
  let tail := rest.take needed
  if tail.length < needed ∨ ¬ tail.all isContinuationByte then none else
  let uc := tail.foldl (fun uc b => uc * 64 + (b &&& 0x3F).toNat) lead
  if uc < min_uc ∨ isSurrogate uc ∨ 0x10FFFF < uc then none else some (utf16 uc, needed)

/-- One character: its code units and how many bytes follow the lead byte. -/
def decodeCharacter (b : UInt8) (rest : List UInt8) : Option (QString × Nat) :=
  if b < 0x80 then some ([b.toUInt16], 0)
  -- 0xC0 and 0xC1 start overlong sequences only
  else if b ≤ 0xC1 then none
  else if b < 0xE0 then decodeTail 1 0x80 (b &&& 0x1F).toNat rest
  else if b < 0xF0 then decodeTail 2 0x800 (b &&& 0x0F).toNat rest
  else if b < 0xF5 then decodeTail 3 0x10000 (b &&& 0x07).toNat rest
  else none

/-- `skip` bytes belong to the character before. -/
def convertToUnicode : (skip : Nat) → List UInt8 → QString
  | _, [] => []
  | skip + 1, _ :: rest => convertToUnicode skip rest
  | 0, b :: rest =>
    match decodeCharacter b rest with
    | some (units, used) => units ++ convertToUnicode used rest
    | none => 0xFFFD :: convertToUnicode 0 rest

/-- A negative size makes Qt look for the terminating zero; a byte order mark at
the start is left out. -/
def fromUtf8 (bytes : List UInt8) (size : Int) : QString :=
  let bytes := if size < 0 then bytes.takeWhile (· ≠ 0) else bytes.take size.toNat
  let bytes := if [0xEF, 0xBB, 0xBF].isPrefixOf bytes then bytes.drop 3 else bytes
  convertToUnicode 0 bytes

/-! ### To UTF-8 -/

def isHighSurrogate (u : UInt16) : Bool := decide (0xD800 ≤ u ∧ u < 0xDC00)
def isLowSurrogate (u : UInt16) : Bool := decide (0xDC00 ≤ u ∧ u < 0xE000)

def continuation (n : Nat) : UInt8 := UInt8.ofNat (0x80 + n % 64)

def encodeUnit (u : UInt16) : List UInt8 :=
  let n := u.toNat
  if n < 0x80 then [UInt8.ofNat n]
  else if n < 0x800 then [UInt8.ofNat (0xC0 + n / 64), continuation n]
  else if isHighSurrogate u ∨ isLowSurrogate u then [0x3F]
  else [UInt8.ofNat (0xE0 + n / 4096), continuation (n / 64), continuation n]

def encodePair (high low : UInt16) : List UInt8 :=
  let n := 0x10000 + (high.toNat - 0xD800) * 1024 + (low.toNat - 0xDC00)
  [UInt8.ofNat (0xF0 + n / 262144), continuation (n / 4096), continuation (n / 64),
    continuation n]

def toUtf8 : QString → List UInt8
  | [] => []
  | [u] => encodeUnit u
  | u :: v :: rest =>
    if isHighSurrogate u ∧ isLowSurrogate v then encodePair u v ++ toUtf8 rest
    else encodeUnit u ++ toUtf8 (v :: rest)

theorem encodeUnit_ne_nil (u : UInt16) : encodeUnit u ≠ [] := by
  unfold encodeUnit
  dsimp only
  split_ifs <;> simp

theorem toUtf8_eq_nil_iff (text : QString) : toUtf8 text = [] ↔ text = [] := by
  fun_cases toUtf8 text with
  | case1 => simp
  | case2 u => simp [encodeUnit_ne_nil]
  | case3 u v rest pair => simp [encodePair]
  | case4 u v rest pair => simp [encodeUnit_ne_nil]

/-! ### Spaces and substrings -/

/-- `QChar::isSpace`. -/
def isSpace (u : UInt16) : Bool :=
  u == 0x20 || (9 ≤ u && u ≤ 13) || u == 0x85 || u == 0xA0 || u == 0x1680 ||
    (0x2000 ≤ u && u ≤ 0x200A) || u == 0x2028 || u == 0x2029 || u == 0x202F || u == 0x205F ||
    u == 0x3000

def trimmed (text : QString) : QString :=
  ((text.dropWhile isSpace).reverse.dropWhile isSpace).reverse

/-- `remove(' ')`. -/
def removeSpaces (text : QString) : QString := text.filter (· ≠ 0x20)

def contains (text part : QString) : Bool :=
  text.tails.any fun tail => part.isPrefixOf tail

end RemoteAccess.QtText
