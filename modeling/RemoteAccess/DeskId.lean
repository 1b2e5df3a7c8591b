import Mathlib.Data.Set.Card
import RemoteAccess.AcceptedPasswords
import RemoteAccess.Sha256Standard

/-! The desk id of a machine: the constructor of `SessionClient` and
`rap_mobile_get_p2p_id`, with `NativeBridge.getP2PId` that calls it. Three bytes of a SHA-256
digest are written as nine digits in groups of three. -/

namespace RemoteAccess.DeskId

open QtText QtUtf8 SecureHash

/-- What the two programs ask the system for; `/etc/machine-id` may not open. -/
structure Machine where
  machineIdFile : Option (List UInt8)
  localHostName : QString
  machineUniqueId : List UInt8
  bootUniqueId : List UInt8

/-- What `QByteArray::trimmed` takes off both ends. -/
def isSpaceByte (b : UInt8) : Bool := b == 0x20 || (9 ≤ b && b ≤ 13)

def trimmedBytes (bytes : List UInt8) : List UInt8 :=
  ((bytes.dropWhile isSpaceByte).reverse.dropWhile isSpaceByte).reverse

/-- `localHostName() + machineUniqueId() + bootUniqueId()`. -/
def Machine.systemIds (m : Machine) : List UInt8 :=
  toUtf8 (m.localHostName ++ fromUtf8 m.machineUniqueId m.machineUniqueId.length ++
    fromUtf8 m.bootUniqueId m.bootUniqueId.length)

/-- The `hardwareData` of the desktop client. -/
def Machine.hardwareData (m : Machine) : List UInt8 :=
  let hardwareData := trimmedBytes (m.machineIdFile.getD [])
  if hardwareData.isEmpty then m.systemIds else hardwareData

/-- `QCryptographicHash::hash` with `Sha256`. -/
def sha256 (data : List UInt8) : List UInt8 := digest data

def num (hash : List UInt8) : UInt32 :=
  (hash.getD 0 0).toUInt32 <<< 16 ||| (hash.getD 1 0).toUInt32 <<< 8 ||| (hash.getD 2 0).toUInt32

def id9 (hash : List UInt8) : UInt32 := num hash % 900000000 + 100000000

/-- `QString::number` of an unsigned number. -/
def number (n : Nat) : QString := literal (Nat.toDigits 10 n)

def space : QString := literal [' ']

/-- `left(3) + " " + mid(3, 3) + " " + right(3)`. -/
def grouped (idStr : QString) : QString :=
  idStr.take 3 ++ space ++ (idStr.drop 3).take 3 ++ space ++ idStr.drop (idStr.length - 3)

def deskId (hardwareData : List UInt8) : QString :=
  grouped (number (id9 (sha256 hardwareData)).toNat)

/-- `p2pId_`. -/
def Machine.p2pId (m : Machine) : QString := deskId m.hardwareData

/-! ### The C function and its caller -/

/-- The arguments of `rap_mobile_get_p2p_id`, with what the caller promises. -/
structure IdBuffer where
  outBuf : Option (List UInt8)
  bufLen : Nat
  writable : ∀ bytes, outBuf = some bytes → bufLen ≤ bytes.length

/-- The value returned, and what is behind `out_buf` then. -/
def rapMobileGetP2pId (m : Machine) (a : IdBuffer) : Int32 × Option (List UInt8) :=
  match a.outBuf with
  | none => (-1, none)
  | some outBuf =>
    if a.bufLen < 12 then (-1, some outBuf) else
    let bytes := toUtf8 (deskId m.systemIds)
    let copyLen := min bytes.length (a.bufLen - 1)
    (0, some (bytes.take copyLen ++ 0 :: outBuf.drop (copyLen + 1)))

def defaultId : QString := literal "115 604 669".toList

/-- What `malloc` returns can hold anything. -/
abbrev Memory := { bytes : List UInt8 // bytes.length = 64 }

def Memory.buffer (ptr : Memory) : IdBuffer where
  outBuf := some ptr.val
  bufLen := 64
  writable := by
    rintro bytes ⟨⟩
    exact ptr.property.ge

/-- `toDartString` reads to the terminating zero. Without the library there is no call. -/
def getP2PId (m : Machine) (library : Bool) (ptr : Memory) : QString :=
  if library then
    match rapMobileGetP2pId m ptr.buffer with
    | (0, some bytes) => fromUtf8 bytes (-1)
    | _ => defaultId
  else defaultId

/-! ### Nine digits -/

def value (text : QString) : Nat :=
  Nat.ofDigitChars 10 (text.map fun u => Char.ofNat u.toNat) 0

theorem digit_toNat {c : Char} (digit : c.isDigit = true) : 0x30 ≤ c.toNat ∧ c.toNat ≤ 0x39 := by
  simp only [Char.isDigit, Bool.and_eq_true, decide_eq_true_eq] at digit
  exact ⟨UInt32.le_iff_toNat_le.mp digit.1, UInt32.le_iff_toNat_le.mp digit.2⟩

theorem number_digits {n : Nat} :
    ∀ u ∈ number n, 0x30 ≤ u.toNat ∧ u.toNat ≤ 0x39 := by
  intro u found
  obtain ⟨c, member, rfl⟩ := List.mem_map.mp found
  have bounds := digit_toNat (Nat.isDigit_of_mem_toDigits (by decide) (by decide) member)
  rwa [toNat_ofNat_unit (by omega)]

theorem value_number (n : Nat) : value (number n) = n := by
  have back : (number n).map (fun u => Char.ofNat u.toNat) = Nat.toDigits 10 n := by
    rw [number, literal, List.map_map]
    refine (List.map_congr_left fun c member => ?_).trans (List.map_id _)
    have bounds := digit_toNat (Nat.isDigit_of_mem_toDigits (by decide) (by decide) member)
    rw [Function.comp_apply, toNat_ofNat_unit (by omega), Char.ofNat_toNat, id]
  rw [value, back, Nat.ofDigitChars_ten_toDigits]

theorem length_number {n : Nat} (low : 100000000 ≤ n) (high : n < 1000000000) :
    (number n).length = 9 := by
  rw [number, literal, List.length_map]
  have most := (@Nat.length_toDigits_le_iff 10 n 9 (by decide) (by decide)).mpr high
  have least := mt (@Nat.length_toDigits_le_iff 10 n 8 (by decide) (by decide)).mp (by omega)
  omega

theorem grouped_eq {idStr : QString} (nine : idStr.length = 9) :
    grouped idStr = idStr.take 3 ++ space ++ (idStr.drop 3).take 3 ++ space ++ idStr.drop 6 := by
  rw [grouped, nine]

theorem groups_append (idStr : QString) :
    idStr.take 3 ++ (idStr.drop 3).take 3 ++ idStr.drop 6 = idStr := by
  have rest : idStr.drop 6 = (idStr.drop 3).drop 3 := by rw [List.drop_drop]
  rw [List.append_assoc, rest, List.take_append_drop, List.take_append_drop]

theorem removeSpaces_number {n : Nat} {part : QString} (within : ∀ u ∈ part, u ∈ number n) :
    removeSpaces part = part := by
  refine List.filter_eq_self.mpr fun u found => ?_
  have digit := number_digits u (within u found)
  rw [decide_eq_true_iff]
  rintro rfl
  exact absurd digit.1 (by decide)

theorem removeSpaces_grouped {n : Nat} (nine : (number n).length = 9) :
    removeSpaces (grouped (number n)) = number n := by
  have blank : removeSpaces space = [] := by decide
  rw [grouped_eq nine, removeSpaces, List.filter_append, List.filter_append, List.filter_append,
    List.filter_append]
  change removeSpaces _ ++ removeSpaces space ++ removeSpaces _ ++ removeSpaces space ++
    removeSpaces _ = _
  rw [blank, List.append_nil, List.append_nil,
    removeSpaces_number fun u found => List.mem_of_mem_take found,
    removeSpaces_number fun u found => List.mem_of_mem_drop (List.mem_of_mem_take found),
    removeSpaces_number fun u found => List.mem_of_mem_drop found, groups_append]

theorem length_grouped {idStr : QString} (nine : idStr.length = 9) :
    (grouped idStr).length = 11 := by
  have one : space.length = 1 := rfl
  simp only [grouped_eq nine, List.length_append, List.length_take, List.length_drop, one]
  omega

theorem mem_grouped {n : Nat} {u : UInt16} (nine : (number n).length = 9)
    (found : u ∈ grouped (number n)) : u = 0x20 ∨ u ∈ number n := by
  have blank : ∀ v ∈ space, v = 0x20 := fun v member => List.mem_singleton.mp member
  simp only [grouped_eq nine, List.mem_append] at found
  rcases found with (((part | part) | part) | part) | part
  · exact .inr (List.mem_of_mem_take part)
  · exact .inl (blank u part)
  · exact .inr (List.mem_of_mem_drop (List.mem_of_mem_take part))
  · exact .inl (blank u part)
  · exact .inr (List.mem_of_mem_drop part)

/-! ### The number -/

section Number

variable {hash : List UInt8}

theorem num_toNat (hash : List UInt8) :
    (num hash).toNat = (hash.getD 0 0).toNat * 65536 + (hash.getD 1 0).toNat * 256 +
      (hash.getD 2 0).toNat := by
  have second := (hash.getD 1 0).toNat_lt
  have third := (hash.getD 2 0).toNat_lt
  have shift : ∀ b : UInt8, (b.toUInt32 <<< 16).toNat = b.toNat * 2 ^ 16 ∧
      (b.toUInt32 <<< 8).toNat = b.toNat * 2 ^ 8 := fun b =>
    ⟨Sha256Standard.toNat_shifted b (show 16 ≤ 24 by decide),
      Sha256Standard.toNat_shifted b (show 8 ≤ 24 by decide)⟩
  have upper : (hash.getD 0 0).toNat * 2 ^ 16 ||| (hash.getD 1 0).toNat * 2 ^ 8 =
      ((hash.getD 0 0).toNat * 2 ^ 8 + (hash.getD 1 0).toNat) * 2 ^ 8 := by
    rw [Sha256Standard.or_eq_add (by omega)]
    omega
  rw [num, UInt32.toNat_or, UInt32.toNat_or, (shift _).1, (shift _).2, UInt8.toNat_toUInt32, upper,
    Sha256Standard.or_eq_add (by omega)]
  omega

theorem id9_toNat (hash : List UInt8) : (id9 hash).toNat = (num hash).toNat + 100000000 := by
  have first := (hash.getD 0 0).toNat_lt
  have second := (hash.getD 1 0).toNat_lt
  have third := (hash.getD 2 0).toNat_lt
  have value := num_toNat hash
  rw [id9, UInt32.toNat_add, UInt32.toNat_mod]
  simp only [UInt32.reduceToNat]
  omega

theorem id9_bounds (hash : List UInt8) :
    100000000 ≤ (id9 hash).toNat ∧ (id9 hash).toNat < 100000000 + 2 ^ 24 := by
  have first := (hash.getD 0 0).toNat_lt
  have second := (hash.getD 1 0).toNat_lt
  have third := (hash.getD 2 0).toNat_lt
  have value := num_toNat hash
  have shifted := id9_toNat hash
  omega

theorem three_bytes {bytes : List UInt8} (long : 3 ≤ bytes.length) :
    ∃ a b c rest, bytes = a :: b :: c :: rest := by
  match bytes, long with
  | a :: b :: c :: rest, _ => exact ⟨a, b, c, rest, rfl⟩

theorem num_inj {other : List UInt8} (long : 3 ≤ hash.length) (other_long : 3 ≤ other.length)
    (same : num hash = num other) : hash.take 3 = other.take 3 := by
  obtain ⟨a, b, c, rest, rfl⟩ := three_bytes long
  obtain ⟨x, y, z, tail, rfl⟩ := three_bytes other_long
  have values := congrArg UInt32.toNat same
  simp only [num_toNat, List.getD_cons_zero, List.getD_cons_succ] at values
  have := b.toNat_lt
  have := c.toNat_lt
  have := y.toNat_lt
  have := z.toNat_lt
  have first : a.toNat = x.toNat := by omega
  have second : b.toNat = y.toNat := by omega
  have third : c.toNat = z.toNat := by omega
  rw [UInt8.toNat_inj.mp first, UInt8.toNat_inj.mp second, UInt8.toNat_inj.mp third]
  rfl

theorem num_take {hash other : List UInt8} (same : hash.take 3 = other.take 3) :
    num hash = num other := by
  have at_index : ∀ i < 3, hash.getD i 0 = other.getD i 0 := by
    intro i inside
    have here := congrArg (fun bytes : List UInt8 => bytes[i]?) same
    simp only [List.getElem?_take_of_lt inside] at here
    rw [List.getD_eq_getElem?_getD, List.getD_eq_getElem?_getD, here]
  rw [num, num, at_index 0 (by decide), at_index 1 (by decide), at_index 2 (by decide)]

end Number

/-! ### Which machines share an id -/

theorem length_sha256 (data : List UInt8) : (sha256 data).length = 32 := by
  have whole : (SecureHash.sha256 (bits data)).length = 256 := by
    rw [SecureHash.sha256]
    exact Blocks.length_flatMap fun (w : Word) _ => length_toBits 32 w.toNat
  rw [sha256, digest, List.length_map, Blocks.length_blocks (by decide), whole]

theorem nine (data : List UInt8) : (number (id9 (sha256 data)).toNat).length = 9 := by
  have bounds := id9_bounds (sha256 data)
  exact length_number bounds.1 (by omega)

theorem value_deskId (data : List UInt8) :
    value (removeSpaces (deskId data)) = (id9 (sha256 data)).toNat := by
  rw [deskId, removeSpaces_grouped (nine data), value_number]

theorem deskId_eq_iff (data other : List UInt8) :
    deskId data = deskId other ↔ (sha256 data).take 3 = (sha256 other).take 3 := by
  constructor
  · intro same
    have numbers : (id9 (sha256 data)).toNat = (id9 (sha256 other)).toNat := by
      rw [← value_deskId, ← value_deskId, same]
    rw [id9_toNat, id9_toNat] at numbers
    refine num_inj (by rw [length_sha256]; decide) (by rw [length_sha256]; decide) ?_
    exact UInt32.toNat_inj.mp (Nat.add_right_cancel numbers)
  · intro same
    rw [deskId, deskId, id9, id9, num_take same]

structure IsGroup (group : QString) : Prop where
  three : group.length = 3
  digits : ∀ u ∈ group, 0x30 ≤ u.toNat ∧ u.toNat ≤ 0x39

/-- Three digits, a space, three digits, a space, three digits: a number within the bounds. -/
structure NineDigits (id first second third : QString) : Prop where
  parts : id = first ++ 0x20 :: (second ++ 0x20 :: third)
  groups : IsGroup first ∧ IsGroup second ∧ IsGroup third
  least : 100000000 ≤ value (first ++ second ++ third)
  most : value (first ++ second ++ third) < 100000000 + 2 ^ 24

theorem grouped_nineDigits {n : Nat} (long : (number n).length = 9) (least : 100000000 ≤ n)
    (most : n < 100000000 + 2 ^ 24) :
    ∃ first second third, NineDigits (grouped (number n)) first second third := by
  refine ⟨(number n).take 3, ((number n).drop 3).take 3, (number n).drop 6,
    ?_, ⟨⟨?_, ?_⟩, ⟨?_, ?_⟩, ?_, ?_⟩, ?_, ?_⟩
  · rw [grouped_eq long, List.append_assoc, List.append_assoc, List.append_assoc]
    rfl
  · rw [List.length_take, long]
    rfl
  · exact fun u found => number_digits u (List.mem_of_mem_take found)
  · rw [List.length_take, List.length_drop, long]
    rfl
  · exact fun u found => number_digits u (List.mem_of_mem_drop (List.mem_of_mem_take found))
  · rw [List.length_drop, long]
  · exact fun u found => number_digits u (List.mem_of_mem_drop found)
  · rwa [groups_append, value_number]
  · rwa [groups_append, value_number]

theorem deskId_nineDigits (data : List UInt8) :
    ∃ first second third, NineDigits (deskId data) first second third :=
  grouped_nineDigits (nine data) (id9_bounds _).1 (id9_bounds _).2

def ids : Finset QString :=
  (Finset.range (2 ^ 24)).image fun n => grouped (number (100000000 + n))

theorem card_ids : ids.card ≤ 2 ^ 24 := by
  have bound := Finset.card_image_le (s := Finset.range (2 ^ 24))
    (f := fun n => grouped (number (100000000 + n)))
  rwa [Finset.card_range] at bound

theorem deskId_mem_ids (data : List UInt8) : deskId data ∈ ids := by
  have bounds := id9_bounds (sha256 data)
  refine Finset.mem_image.mpr ⟨(id9 (sha256 data)).toNat - 100000000, ?_, ?_⟩
  · rw [Finset.mem_range]
    omega
  · rw [Nat.add_sub_cancel' bounds.1, deskId]

/-! ### The buffer -/

theorem isOwn_deskId (data : List UInt8) : ∀ u ∈ deskId data, isOwn u = true := by
  intro u found
  obtain rfl | digit := mem_grouped (nine data) found
  · rfl
  · have clear := AcceptedPasswords.isClear_of_digit (number_digits u digit)
    simp only [AcceptedPasswords.isClear, Bool.and_eq_true] at clear
    exact clear.1.1.2

theorem deskId_ascii (data : List UInt8) :
    ∀ u ∈ deskId data, 0x20 ≤ u.toNat ∧ u.toNat ≤ 0x39 := by
  intro u found
  obtain rfl | digit := mem_grouped (nine data) found
  · decide
  · have bounds := number_digits u digit
    omega

theorem toUtf8_ascii {text : QString} (own : ∀ u ∈ text, isOwn u = true)
    (ascii : ∀ u ∈ text, u.toNat < 0x80) :
    toUtf8 text = text.map fun u => UInt8.ofNat u.toNat := by
  induction text with
  | nil => rfl
  | cons u text ih =>
    rw [List.forall_mem_cons] at own ascii
    rw [toUtf8_cons own.1, ih own.2 ascii.2, encodeUnit, if_pos ascii.1]
    rfl

theorem fromUtf8_terminated {text : QString} (own : ∀ u ∈ text, isOwn u = true)
    (ascii : ∀ u ∈ text, 0x20 ≤ u.toNat ∧ u.toNat ≤ 0x39) (rest : List UInt8) :
    fromUtf8 (toUtf8 text ++ 0 :: rest) (-1) = text := by
  have filled : ∀ b ∈ toUtf8 text, decide (b ≠ 0) = true := by
    intro b found
    rw [toUtf8_ascii own fun u member => Nat.lt_of_le_of_lt (ascii u member).2 (by decide)] at found
    obtain ⟨u, member, rfl⟩ := List.mem_map.mp found
    have bounds := ascii u member
    rw [decide_eq_true_iff]
    intro zero
    have value : (UInt8.ofNat u.toNat).toNat = 0 := by rw [zero, UInt8.toNat_zero]
    rw [UInt8.toNat_ofNat_of_lt' (Nat.lt_of_le_of_lt bounds.2 (by decide))] at value
    omega
  have unmarked : ¬ text.head? = some 0xFEFF := fun marked =>
    absurd (ascii _ (List.mem_of_mem_head? marked)).2 (by decide)
  have back := convertToUnicode_append own []
  rw [List.append_nil, convertToUnicode, List.append_nil] at back
  have cut : (toUtf8 text ++ 0 :: rest).takeWhile (· ≠ 0) = toUtf8 text := by
    rw [List.takeWhile_append_of_pos filled, List.takeWhile_cons_of_neg (by decide),
      List.append_nil]
  simp only [fromUtf8, if_pos (show (-1 : Int) < 0 by decide), cut, isPrefixOf_toUtf8,
    if_neg unmarked, back]

theorem length_toUtf8_deskId (data : List UInt8) : (toUtf8 (deskId data)).length = 11 := by
  rw [toUtf8_ascii (isOwn_deskId data) fun u found =>
    Nat.lt_of_le_of_lt (deskId_ascii data u found).2 (by decide), List.length_map, deskId,
    length_grouped (nine data)]

/-- The call fails and writes nothing, or it writes twelve bytes that read as the id. -/
structure Answered (m : Machine) (a : IdBuffer) : Prop where
  refused : a.outBuf = none ∨ a.bufLen < 12 → rapMobileGetP2pId m a = (-1, a.outBuf)
  written : ∀ outBuf, a.outBuf = some outBuf → 12 ≤ a.bufLen →
    ∃ bytes, rapMobileGetP2pId m a = (0, some bytes) ∧ bytes.length = outBuf.length ∧
      bytes.drop 12 = outBuf.drop 12 ∧ fromUtf8 bytes (-1) = deskId m.systemIds

theorem answered (m : Machine) (a : IdBuffer) : Answered m a where
  refused := by
    intro fails
    rw [rapMobileGetP2pId]
    cases buffer : a.outBuf with
    | none => rfl
    | some outBuf =>
      have short : a.bufLen < 12 := fails.resolve_left (by simp [buffer])
      exact if_pos short
  written := by
    intro outBuf buffer enough
    have size := length_toUtf8_deskId m.systemIds
    have room := a.writable outBuf buffer
    have copied : min (toUtf8 (deskId m.systemIds)).length (a.bufLen - 1) = 11 := by omega
    refine ⟨toUtf8 (deskId m.systemIds) ++ 0 :: outBuf.drop 12, ?_, ?_, ?_,
      fromUtf8_terminated (isOwn_deskId _) (deskId_ascii _) _⟩
    · simp only [rapMobileGetP2pId, buffer, if_neg (Nat.not_lt.mpr enough), copied]
      rw [List.take_of_length_le size.le]
    · rw [List.length_append, List.length_cons, List.length_drop, size]
      omega
    · rw [List.drop_append, size, List.drop_of_length_le (by rw [size]; decide)]
      rfl

/-- Desk ids tell machines apart by the first three bytes of their digests and by nothing else,
so there are at most `2 ^ 24` of them; they are nine digits in three groups, and the phone reads
the one the C function writes whatever was in its memory. -/
theorem desk_ids :
    (∀ data other, deskId data = deskId other ↔
      (sha256 data).take 3 = (sha256 other).take 3) ∧
    (∀ machines : Set Machine, (Machine.p2pId '' machines).Finite ∧
      (Machine.p2pId '' machines).ncard ≤ 2 ^ 24) ∧
    (∀ data, ∃ first second third, NineDigits (deskId data) first second third) ∧
    (∀ m a, Answered m a) ∧ ∀ m ptr, getP2PId m true ptr = deskId m.systemIds := by
  refine ⟨deskId_eq_iff, fun machines => ?_, deskId_nineDigits, answered, fun m ptr => ?_⟩
  · have within : Machine.p2pId '' machines ⊆ ids := by
      rintro _ ⟨m, -, rfl⟩
      exact deskId_mem_ids _
    refine ⟨ids.finite_toSet.subset within, ?_⟩
    have most := Set.ncard_le_ncard within ids.finite_toSet
    rw [Set.ncard_coe_finset] at most
    exact most.trans card_ids
  · obtain ⟨bytes, call, -, -, read⟩ := (answered m ptr.buffer).written _ rfl (by
      change 12 ≤ 64
      decide)
    simp only [getP2PId, call, if_true]
    exact read

end RemoteAccess.DeskId
