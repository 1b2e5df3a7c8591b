import RemoteAccess.QtText

/-! The two senders of the magic packet, of the desktop client and of the mobile app. Strings
are UTF-16 code units on both sides. -/

namespace RemoteAccess.WakeOnLan

open QtText

structure Datagram where
  payload : List UInt8
  address : List UInt8
  port : UInt16
deriving DecidableEq

def broadcast : List UInt8 := [255, 255, 255, 255]

def hexValue (code : Nat) : Option Nat :=
  if 0x30 ≤ code ∧ code ≤ 0x39 then some (code - 0x30)
  else if 0x41 ≤ code ∧ code ≤ 0x46 then some (code - 0x41 + 10)
  else if 0x61 ≤ code ∧ code ≤ 0x66 then some (code - 0x61 + 10)
  else none

/-! ### The desktop client -/

/-- What Latin-1 does not have becomes a question mark. -/
def toLatin1 (text : QString) : List UInt8 :=
  text.map fun unit => if unit > 0xFF then 0x3F else unit.toUInt8

/-- The digits come last first. A digit left over is a byte of its own. -/
def fromHexDigits : List Nat → List UInt8 → List UInt8
  | [], res => res
  | [low], res => UInt8.ofNat low :: res
  | low :: high :: digits, res => fromHexDigits digits (UInt8.ofNat (high <<< 4 ||| low) :: res)

/-- `QByteArray::fromHex` skips what is no digit. -/
def fromHex (hexEncoded : List UInt8) : List UInt8 :=
  fromHexDigits (hexEncoded.reverse.filterMap fun ch => hexValue ch.toNat) []

/-- `remove(':').remove('-').remove(' ')`. -/
def removeSeparators (macAddress : QString) : QString :=
  ((macAddress.filter (· ≠ 0x3A)).filter (· ≠ 0x2D)).filter (· ≠ 0x20)

def sendWakeOnLan (macAddress : QString) : Option Datagram :=
  let cleanMac := removeSeparators macAddress
  if cleanMac.length ≠ 12 then none else
  let macBytes := fromHex (toLatin1 cleanMac)
  let packet := (List.range 16).foldl (fun packet _ => packet ++ macBytes) (List.replicate 6 0xFF)
  some ⟨packet, broadcast, 9⟩

/-! ### The mobile app -/

/-- A Dart list, and whether it can grow. -/
structure DartList where
  values : List Int
  growable : Bool

/-- `List.filled` without `growable`. -/
def DartList.filled (length : Nat) (fill : Int) : DartList := ⟨List.replicate length fill, false⟩

/-- `none` stands for an `UnsupportedError`. -/
def DartList.addAll (list : DartList) (values : List Int) : Option DartList :=
  if list.growable then some { list with values := list.values ++ values } else none

/-- `int.parse` with radix 16 of a string in which a sign or a blank cannot occur; `none`
stands for a `FormatException`. -/
def parseHex (text : QString) : Option Int :=
  if text = [] then none else
  text.foldlM (fun value unit => (hexValue unit.toNat).map fun digit => value * 16 + digit) 0

/-- `replaceAll(RegExp(r'[^0-9A-Fa-f]'), '')`. -/
def hexDigitsOf (macAddress : QString) : QString :=
  macAddress.filter fun unit => (hexValue unit.toNat).isSome

/-- What is thrown is caught, and nothing is sent then. -/
def sendMagicPacket (macAddress : QString) : Option Datagram := do
  let cleanMac := hexDigitsOf macAddress
  if cleanMac.length ≠ 12 then none else
  let macBytes ← (List.range 6).mapM fun i => parseHex ((cleanMac.drop (2 * i)).take 2)
  let magicPacket ← (List.range 16).foldlM (fun packet _ => packet.addAll macBytes)
    (DartList.filled 6 0xFF)
  some ⟨magicPacket.values.map fun value => UInt8.ofInt value, broadcast, 9⟩

/-! ### The packet -/

def digits (text : QString) : List Nat := text.filterMap fun unit => hexValue unit.toNat

def pairs : List Nat → List UInt8
  | high :: low :: rest => UInt8.ofNat (16 * high + low) :: pairs rest
  | _ => []

/-- Six times 0xFF, then sixteen times the address that the twelve digits of a text denote. -/
def IsMagicPacket (text : QString) (payload : List UInt8) : Prop :=
  (digits text).length = 12 ∧
    payload = List.replicate 6 0xFF ++ (List.replicate 16 (pairs (digits text))).flatten

def Agree (macAddress : QString) : Prop :=
  (sendWakeOnLan macAddress = none ∧ sendMagicPacket macAddress = none) ∨
    ∃ datagram, sendWakeOnLan macAddress = some datagram ∧
      sendMagicPacket macAddress = some datagram ∧ IsMagicPacket macAddress datagram.payload

/-! ### What the desktop client sends -/

theorem hexValue_latin1 (unit : UInt16) :
    hexValue (if unit > 0xFF then 0x3F else unit.toUInt8 : UInt8).toNat = hexValue unit.toNat := by
  by_cases wide : unit > 0xFF
  · have above : 255 < unit.toNat := UInt16.lt_iff_toNat_lt.mp wide
    have no_digit : hexValue unit.toNat = none := by
      unfold hexValue
      rw [if_neg (by omega), if_neg (by omega), if_neg (by omega)]
    rw [if_pos wide, no_digit]
    rfl
  · have below : unit.toNat ≤ 255 := UInt16.le_iff_toNat_le.mp (UInt16.not_lt.mp wide)
    rw [if_neg wide, UInt16.toNat_toUInt8, Nat.mod_eq_of_lt (by omega)]

theorem hexValue_lt {code digit : Nat} (value : hexValue code = some digit) : digit < 16 := by
  unfold hexValue at value
  split_ifs at value <;> simp only [Option.some.injEq] at value <;> omega

theorem fromHex_toLatin1 (text : QString) :
    fromHex (toLatin1 text) = fromHexDigits (digits text).reverse [] := by
  rw [fromHex, toLatin1, List.filterMap_reverse, List.filterMap_map, digits]
  simp only [Function.comp_def, hexValue_latin1]

theorem digits_removeSeparators (text : QString) :
    digits (removeSeparators text) = digits text := by
  rw [digits, digits, removeSeparators, List.filter_filter, List.filter_filter,
    List.filterMap_filter]
  congr 1
  funext unit
  split_ifs with kept
  · rfl
  · have separator : unit = 0x3A ∨ unit = 0x2D ∨ unit = 0x20 := by
      simp only [Bool.and_eq_true, decide_eq_true_eq] at kept
      tauto
    obtain rfl | rfl | rfl := separator <;> rfl

theorem fromHexDigits_append {low : List Nat} (even : low.length % 2 = 0) (high : List Nat)
    (res : List UInt8) :
    fromHexDigits (low ++ high) res = fromHexDigits high (fromHexDigits low res) := by
  fun_induction fromHexDigits low res with
  | case1 res => rfl
  | case2 digit res => simp at even
  | case3 first second low res ih =>
    rw [List.length_cons, List.length_cons] at even
    rw [List.cons_append, List.cons_append, fromHexDigits]
    exact ih (by omega)

theorem fromHexDigits_reverse {values : List Nat} (small : ∀ digit ∈ values, digit < 16)
    (even : values.length % 2 = 0) (res : List UInt8) :
    fromHexDigits values.reverse res = pairs values ++ res := by
  fun_induction pairs values generalizing res with
  | case1 high low rest ih =>
    rw [List.length_cons, List.length_cons] at even
    have later : rest.length % 2 = 0 := by omega
    have byte : high <<< 4 ||| low = 16 * high + low := by
      rw [← Nat.shiftLeft_add_eq_or_of_lt (small low (by simp)), Nat.shiftLeft_eq, Nat.mul_comm]
    have back : (high :: low :: rest).reverse = rest.reverse ++ [low, high] := by simp
    rw [back, fromHexDigits_append (by rwa [List.length_reverse]),
      ih (fun digit member => small digit (by simp [member])) later, fromHexDigits, fromHexDigits,
      byte, List.cons_append]
  | case2 values few =>
    match values with
    | [] => rfl
    | [digit] => simp at even
    | high :: low :: rest => exact absurd rfl (few high low rest)

theorem foldl_append_range (n : Nat) (start block : List UInt8) :
    (List.range n).foldl (fun packet _ => packet ++ block) start =
      start ++ (List.replicate n block).flatten := by
  induction n with
  | zero => simp
  | succ n ih =>
    rw [List.range_succ, List.foldl_append, ih, List.foldl_cons, List.foldl_nil,
      List.replicate_succ', List.flatten_append, List.flatten_singleton, List.append_assoc]

theorem sendWakeOnLan_eq (macAddress : QString) :
    sendWakeOnLan macAddress = if (removeSeparators macAddress).length ≠ 12 then none else
      some ⟨List.replicate 6 0xFF ++
        (List.replicate 16 (fromHexDigits (digits macAddress).reverse [])).flatten,
        broadcast, 9⟩ := by
  unfold sendWakeOnLan
  dsimp only
  rw [fromHex_toLatin1, digits_removeSeparators, foldl_append_range]

theorem sendWakeOnLan_isMagicPacket_iff {macAddress : QString} {datagram : Datagram}
    (sent : sendWakeOnLan macAddress = some datagram) :
    IsMagicPacket macAddress datagram.payload ↔ (digits macAddress).length = 12 := by
  refine ⟨fun magic => magic.1, fun twelve => ⟨twelve, ?_⟩⟩
  have small : ∀ digit ∈ digits macAddress, digit < 16 := by
    intro digit member
    obtain ⟨unit, -, value⟩ := List.mem_filterMap.mp member
    exact hexValue_lt value
  rw [sendWakeOnLan_eq, fromHexDigits_reverse small (by rw [twelve]), List.append_nil] at sent
  split_ifs at sent
  rw [← Option.some.inj sent]

/-! ### What the mobile app sends -/

theorem foldlM_addAll_filled (length : Nat) (fill : Int) (values : List Int) (n : Nat) :
    (List.range (n + 1)).foldlM (fun (packet : DartList) _ => packet.addAll values)
      (DartList.filled length fill) = none := by
  rw [List.range_succ_eq_map, List.foldlM_cons]
  rfl

theorem sendMagicPacket_eq_none (macAddress : QString) : sendMagicPacket macAddress = none := by
  unfold sendMagicPacket
  dsimp only
  split_ifs
  · rfl
  · simp only [foldlM_addAll_filled, Option.bind_eq_bind, Option.bind_none, Option.bind_fun_none]

theorem agree_iff (macAddress : QString) :
    Agree macAddress ↔ (removeSeparators macAddress).length ≠ 12 := by
  have silent := sendMagicPacket_eq_none macAddress
  unfold Agree
  rw [silent, sendWakeOnLan_eq]
  by_cases twelve : (removeSeparators macAddress).length = 12 <;> simp [twelve]

def macAddress : QString := literal
  ['A', 'A', ':', 'B', 'B', ':', 'C', 'C', ':', 'D', 'D', ':', 'E', 'E', ':', 'F', 'F']

theorem mobile_app_sends_nothing :
    (∃ datagram, sendWakeOnLan macAddress = some datagram ∧ datagram.payload.length = 102 ∧
      IsMagicPacket macAddress datagram.payload) ∧
    sendMagicPacket macAddress = none ∧ ¬ Agree macAddress := by
  obtain ⟨datagram, sent, length⟩ : ∃ datagram, sendWakeOnLan macAddress = some datagram ∧
      datagram.payload.length = 102 := ⟨_, rfl, by decide⟩
  refine ⟨⟨datagram, sent, length, (sendWakeOnLan_isMagicPacket_iff sent).mpr (by decide)⟩,
    by decide, ?_⟩
  rintro (⟨none_sent, -⟩ | ⟨_, -, answered, -⟩)
  · rw [sent] at none_sent
    cases none_sent
  · rw [sendMagicPacket_eq_none] at answered
    cases answered

end RemoteAccess.WakeOnLan
