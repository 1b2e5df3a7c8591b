import RemoteAccess.QtText
import RemoteAccess.Basics.Occurrences
import Mathlib.Tactic.Ring

/-! `QHostAddress` for IPv4 and IPv6 addresses: which are loopback addresses and what
`toString` prints. Its text of an IPv6 address follows RFC 5952, which leaves open where the
last 32 bits are printed as an IPv4 address: `mixed` says where. -/

namespace RemoteAccess.QtHostAddress

open QtText Occurrences

structure IPv4Address where
  (a b c d : UInt8)
deriving DecidableEq

abbrev IPv6Address := Vector UInt16 8

inductive HostAddress
  | ipv4 (address : IPv4Address)
  | ipv6 (address : IPv6Address) (scopeId : QString)

def IPv6Address.embedded (address : IPv6Address) : IPv4Address :=
  ⟨(address[6] >>> 8).toUInt8, address[6].toUInt8, (address[7] >>> 8).toUInt8,
    address[7].toUInt8⟩

/-- The loopback addresses: `127.0.0.0/8`, `::1` and `::ffff:127.0.0.0/104`. -/
def HostAddress.isLoopback : HostAddress → Bool
  | ipv4 address => address.a == 127
  | ipv6 address _ =>
    address.toList == [0, 0, 0, 0, 0, 0, 0, 1] ||
      (address.toList.take 6 == [0, 0, 0, 0, 0, 0xFFFF] && address.embedded.a == 127)

/-! ### The text -/

def colon : UInt16 := 0x3A
def period : UInt16 := 0x2E

def digit (n : Nat) : UInt16 := UInt16.ofNat (if n < 10 then 0x30 + n else 0x57 + n)

def number (base n : Nat) : QString :=
  if n < base then [digit n]
  else if n < base ^ 2 then [digit (n / base), digit (n % base)]
  else if n < base ^ 3 then [digit (n / base ^ 2), digit (n / base % base), digit (n % base)]
  else
    [digit (n / base ^ 3), digit (n / base ^ 2 % base), digit (n / base % base),
      digit (n % base)]

def decimal (octet : UInt8) : QString := number 10 octet.toNat
def hexGroup (group : UInt16) : QString := number 16 group.toNat

def IPv4Address.toString (address : IPv4Address) : QString :=
  [period].intercalate
    [decimal address.a, decimal address.b, decimal address.c, decimal address.d]

def zerosAt (groups : List UInt16) (offset : Nat) : Nat :=
  ((groups.drop offset).takeWhile (· == 0)).length

def longerRun (groups : List UInt16) (run : Nat × Nat) (offset : Nat) : Nat × Nat :=
  if run.2 < zerosAt groups offset then (offset, zerosAt groups offset) else run

/-- Where the run of zero groups that is left out starts, and how long it is. -/
def zeroRun (groups : List UInt16) : Nat × Nat :=
  (List.range groups.length).foldl (longerRun groups) (0, 0)

def hexGroups (mixed : Bool) (address : IPv6Address) : List UInt16 :=
  if mixed then address.toList.take 6 else address.toList

def IPv6Address.quad (mixed : Bool) (address : IPv6Address) : Option IPv4Address :=
  if mixed then some address.embedded else none

def pieces (groups : List UInt16) (quad : Option IPv4Address) : List QString :=
  groups.map hexGroup ++ (quad.map IPv4Address.toString).toList

def IPv6Address.toString (mixed : Bool) (address : IPv6Address) : QString :=
  let groups := hexGroups mixed address
  let quad := address.quad mixed
  let run := zeroRun groups
  -- a single zero group is printed
  if run.2 < 2 then [colon].intercalate (pieces groups quad)
  else
    [colon].intercalate (pieces (groups.take run.1) none) ++ colon :: colon ::
      [colon].intercalate (pieces (groups.drop (run.1 + run.2)) quad)

def HostAddress.toString (mixed : IPv6Address → Bool) : HostAddress → QString
  | ipv4 address => address.toString
  | ipv6 address scopeId =>
    address.toString (mixed address) ++
      (if scopeId.isEmpty then [] else literal ['%'] ++ scopeId)

/-- Qt's own choice: addresses mapped from IPv4 or compatible with it. -/
def embeddedIp4 (address : IPv6Address) : Bool :=
  address.toList.take 5 == [0, 0, 0, 0, 0] &&
    (address[5] == 0xFFFF || (address[5] == 0 && address[6] != 0))

example : IPv6Address.toString false #v[0xFE80, 0, 0, 0, 0x1FF, 0, 0, 0xA] =
    literal ['f', 'e', '8', '0', ':', ':', '1', 'f', 'f', ':', '0', ':', '0', ':', 'a'] := by
  decide +kernel

/-! ### Its pieces -/

structure IsLongestRun (groups : List UInt16) (n : Nat) (run : Nat × Nat) : Prop where
  zeros : run.2 ≤ zerosAt groups run.1
  longest : ∀ offset < n, zerosAt groups offset ≤ run.2
  first : ∀ offset < run.1, zerosAt groups offset < run.2

theorem IsLongestRun.succ {groups : List UInt16} {n : Nat} {run : Nat × Nat}
    (is_run : IsLongestRun groups n run) :
    IsLongestRun groups (n + 1) (longerRun groups run n) := by
  have within : ∀ offset < n + 1, offset < n ∨ offset = n := by omega
  rw [longerRun]
  split_ifs with longer
  · refine ⟨Nat.le_refl _, fun offset before => ?_,
      fun offset before => Nat.lt_of_le_of_lt (is_run.longest offset before) longer⟩
    obtain earlier | rfl := within offset before
    · exact Nat.le_trans (is_run.longest offset earlier) (Nat.le_of_lt longer)
    · exact Nat.le_refl _
  · refine ⟨is_run.zeros, fun offset before => ?_, is_run.first⟩
    obtain earlier | rfl := within offset before
    · exact is_run.longest offset earlier
    · exact Nat.not_lt.mp longer

theorem zeroRun_longest (groups : List UInt16) :
    IsLongestRun groups groups.length (zeroRun groups) := by
  rw [zeroRun]
  induction groups.length with
  | zero => exact ⟨Nat.zero_le _, by simp, by simp⟩
  | succ n ih =>
    rw [List.range_succ, List.foldl_concat]
    exact ih.succ

def isHexDigit (u : UInt16) : Bool :=
  decide (0x30 ≤ u ∧ u ≤ 0x39) || decide (0x61 ≤ u ∧ u ≤ 0x66)

theorem digit_hex {n : Nat} (fits : n < 16) : isHexDigit (digit n) = true := by
  have all : ∀ k < 16, isHexDigit (digit k) = true := by decide
  exact all n fits

theorem digit_eq_one_iff {n : Nat} (fits : n < 16) : digit n = 0x31 ↔ n = 1 := by
  have all : ∀ k < 16, digit k = 0x31 ↔ k = 1 := by decide
  exact all n fits

section Number

variable {base n : Nat}

theorem number_hex (base_cases : base = 10 ∨ base = 16) (fits : n < base ^ 4) :
    ∀ u ∈ number base n, isHexDigit u = true := by
  have first {k : Nat} (fits : n < base ^ (k + 1)) : n / base ^ k < base :=
    Nat.div_lt_of_lt_mul (by rwa [← Nat.pow_succ])
  have later (k : Nat) : k % base < base := Nat.mod_lt _ (by omega)
  have hex {k : Nat} (bound : k < base) : isHexDigit (digit k) = true := digit_hex (by omega)
  unfold number
  split_ifs with one two three
  · simp [hex one]
  · have second := @first 1 two
    rw [Nat.pow_one] at second
    simp [hex second, hex (later _)]
  · simp [hex (@first 2 three), hex (later _)]
  · simp [hex (@first 3 fits), hex (later _)]

theorem number_ne_nil : number base n ≠ [] := by
  unfold number
  split_ifs <;> exact List.cons_ne_nil _ _

def BeginsWithOne (base n : Nat) : Prop :=
  n = 1 ∨ n / base = 1 ∨ n / base ^ 2 = 1 ∨ n / base ^ 3 = 1

theorem one_prefix_number_iff (base_cases : base = 10 ∨ base = 16) (fits : n < base ^ 4) :
    [0x31] <+: number base n ↔ BeginsWithOne base n := by
  have head {k : Nat} (bound : k < 16) (rest : QString) :
      [0x31] <+: digit k :: rest ↔ k = 1 := by
    rw [List.cons_prefix_cons, eq_comm, digit_eq_one_iff bound]
    simp
  unfold number BeginsWithOne
  obtain rfl | rfl := base_cases
  · split_ifs with one two three
    all_goals rw [head (by omega)]; omega
  · split_ifs with one two three
    all_goals rw [head (by omega)]; omega

end Number

theorem decimal_hex (octet : UInt8) : ∀ u ∈ decimal octet, isHexDigit u = true :=
  number_hex (.inl rfl) (Nat.lt_trans octet.toNat_lt (by decide))

theorem hexGroup_hex (group : UInt16) : ∀ u ∈ hexGroup group, isHexDigit u = true :=
  number_hex (.inr rfl) group.toNat_lt

theorem toString_hex (address : IPv4Address) :
    ∀ u ∈ address.toString, isHexDigit u = true ∨ u = period := by
  intro u inside
  simp only [IPv4Address.toString, List.intercalate_cons_cons, List.intercalate_singleton,
    List.mem_append, List.mem_singleton] at inside
  obtain (octet | point) | (octet | point) | (octet | point) | octet := inside
  all_goals first | exact .inr point | exact .inl (decimal_hex _ u octet)

theorem isPiece_hexGroup (group : UInt16) : IsPiece colon (hexGroup group) :=
  ⟨number_ne_nil, fun inside => absurd (hexGroup_hex group _ inside) (by decide)⟩

theorem isPiece_toString (address : IPv4Address) : IsPiece colon address.toString := by
  refine ⟨?_, fun inside => absurd (toString_hex address _ inside) (by decide)⟩
  simp [IPv4Address.toString, List.intercalate_cons_cons]

theorem isPiece_of_mem {groups : List UInt16} {quad : Option IPv4Address} :
    ∀ piece ∈ pieces groups quad, IsPiece colon piece := by
  intro piece inside
  rw [pieces, List.mem_append, List.mem_map, Option.mem_toList,
    Option.map_eq_some_iff] at inside
  obtain ⟨group, -, rfl⟩ | ⟨address, -, rfl⟩ := inside
  · exact isPiece_hexGroup group
  · exact isPiece_toString address

theorem hexGroups_ne_nil (mixed : Bool) (address : IPv6Address) :
    hexGroups mixed address ≠ [] := by
  rw [← List.length_pos_iff, hexGroups]
  split_ifs <;> simp

theorem toString_ne_nil (mixed : IPv6Address → Bool) (address : HostAddress) :
    address.toString mixed ≠ [] := by
  cases address with
  | ipv4 address => exact (isPiece_toString address).filled
  | ipv6 address scopeId =>
    refine List.append_ne_nil_of_left_ne_nil ?_ _
    simp only [IPv6Address.toString]
    split_ifs
    · obtain ⟨group, groups, split⟩ :=
        List.exists_cons_of_ne_nil (hexGroups_ne_nil (mixed address) address)
      obtain ⟨rest, start⟩ := exists_intercalate_cons colon (hexGroup group)
        (pieces groups (address.quad (mixed address)))
      rw [split]
      change [colon].intercalate (hexGroup group :: pieces groups _) ≠ []
      rw [start]
      exact List.append_ne_nil_of_left_ne_nil number_ne_nil _
    · simp

end RemoteAccess.QtHostAddress
