import RemoteAccess.AgentServer
import RemoteAccess.QtHostAddress

/-! Which peers skip the password. `newConnection` looks for `127.`, `::1` and `localhost`
anywhere in the printed address, so some remote addresses are taken for local ones. -/

namespace RemoteAccess.LoopbackPeers

open AgentServer QtText QtHostAddress Occurrences

theorem contains_iff (text part : QString) : contains text part = true ↔ part <:+: text := by
  simp only [contains, List.any_eq_true, List.mem_tails, List.isPrefixOf_iff_prefix,
    List.infix_iff_prefix_suffix, and_comm]

/-! ### IPv4 -/

theorem suffix_decimal_iff (octet : UInt8) :
    [0x31, 0x32, 0x37] <:+ decimal octet ↔ octet = 127 := by
  have all : ∀ k < 256, [0x31, 0x32, 0x37] <:+ number 10 k ↔ k = 127 := by decide +kernel
  rw [decimal, all octet.toNat octet.toNat_lt, ← UInt8.toNat_inj]
  rfl

/-- The octets of 127 that a period follows. -/
def Has127 (address : IPv4Address) : Prop :=
  address.a = 127 ∨ address.b = 127 ∨ address.c = 127

theorem has127_iff (address : IPv4Address) :
    literal ['1', '2', '7', '.'] <:+: address.toString ↔ Has127 address := by
  have unsplit (octet : UInt8) : period ∉ decimal octet :=
    fun inside => absurd (decimal_hex octet _ inside) (by decide)
  have free : period ∉ [0x31, 0x32, 0x37] := by decide
  have last : ¬ [0x31, 0x32, 0x37] ++ [period] <:+: decimal address.d :=
    not_infix_of_notMem (List.mem_append_right _ List.mem_cons_self) (unsplit address.d)
  change [0x31, 0x32, 0x37] ++ [period] <:+: address.toString ↔ _
  simp only [IPv4Address.toString, List.intercalate_cons_cons, List.intercalate_singleton,
    List.append_assoc, List.singleton_append]
  rw [concat_infix_append_cons_iff free (unsplit _), concat_infix_append_cons_iff free (unsplit _),
    concat_infix_append_cons_iff free (unsplit _)]
  simp only [suffix_decimal_iff, last, or_false, Has127]

/-! ### IPv6 -/

theorem infix_pieces_iff {a : UInt16} {part : QString} (inside : a ∈ part)
    (foreign : isHexDigit a = false) (free : colon ∉ part) (groups : List UInt16)
    (quad : Option IPv4Address) :
    part <:+: [colon].intercalate (pieces groups quad) ↔
      ∃ address ∈ quad, part <:+: address.toString := by
  have absent (group : UInt16) : ¬ part <:+: hexGroup group := by
    refine not_infix_of_notMem inside fun found => ?_
    rw [hexGroup_hex group a found] at foreign
    cases foreign
  rw [infix_intercalate_iff free (List.ne_nil_of_mem inside)]
  simp only [pieces, List.mem_append, List.mem_map, Option.mem_toList, Option.map_eq_some_iff]
  constructor
  · rintro ⟨-, ⟨group, -, rfl⟩ | ⟨address, known, rfl⟩, occurs⟩
    · exact absurd occurs (absent group)
    · exact ⟨address, known, occurs⟩
  · rintro ⟨address, known, occurs⟩
    exact ⟨_, .inr ⟨address, known, rfl⟩, occurs⟩

theorem infix_ipv6_iff {a : UInt16} {part : QString} (inside : a ∈ part)
    (foreign : isHexDigit a = false) (free : colon ∉ part) (mixed : Bool)
    (address : IPv6Address) :
    part <:+: address.toString mixed ↔ ∃ quad ∈ address.quad mixed, part <:+: quad.toString := by
  have found := infix_pieces_iff inside foreign free
  simp only [IPv6Address.toString]
  split_ifs
  · exact found _ _
  · rw [infix_append_cons_iff free, infix_cons_iff_of_notMem free, found, found]
    simp

/-- Whether the printed groups begin with a one. -/
def StartsWithOne : List UInt16 → Option IPv4Address → Prop
  | group :: _, _ => BeginsWithOne 16 group.toNat
  | [], some quad => BeginsWithOne 10 quad.a.toNat
  | [], none => False

theorem one_prefix_pieces_iff (groups : List UInt16) (quad : Option IPv4Address) :
    [0x31] <+: [colon].intercalate (pieces groups quad) ↔ StartsWithOne groups quad := by
  have first (piece rest : QString) (filled : piece ≠ []) :
      [0x31] <+: piece ++ rest ↔ [0x31] <+: piece := by
    cases piece with
    | nil => exact absurd rfl filled
    | cons u piece => simp
  cases groups with
  | cons group groups =>
    obtain ⟨rest, split⟩ :=
      exists_intercalate_cons colon (hexGroup group) (pieces groups quad)
    change [0x31] <+: [colon].intercalate (hexGroup group :: pieces groups quad) ↔ _
    rw [split, hexGroup, first _ _ number_ne_nil,
      one_prefix_number_iff (.inr rfl) group.toNat_lt, StartsWithOne]
  | nil =>
    cases quad with
    | none => simp [pieces, StartsWithOne]
    | some address =>
      obtain ⟨rest, split⟩ := exists_intercalate_cons period (decimal address.a)
        [decimal address.b, decimal address.c, decimal address.d]
      change [0x31] <+: [colon].intercalate [address.toString] ↔ _
      rw [List.intercalate_singleton, IPv4Address.toString, split, decimal, first _ _ number_ne_nil,
        one_prefix_number_iff (.inl rfl) (Nat.lt_trans address.a.toNat_lt (by decide)),
        StartsWithOne]

/-- A one comes right after the zero groups that are left out. -/
def OneAfterGap (mixed : Bool) (address : IPv6Address) : Prop :=
  let groups := hexGroups mixed address
  let run := zeroRun groups
  2 ≤ run.2 ∧ StartsWithOne (groups.drop (run.1 + run.2)) (address.quad mixed)

theorem oneAfterGap_iff (mixed : Bool) (address : IPv6Address) :
    literal [':', ':', '1'] <:+: address.toString mixed ↔ OneAfterGap mixed address := by
  change [colon, colon, 0x31] <:+: _ ↔ _
  simp only [IPv6Address.toString, OneAfterGap]
  split_ifs with single
  · have apart : ¬ [colon, colon, 0x31] <:+:
        [colon].intercalate (pieces (hexGroups mixed address) (address.quad mixed)) :=
      fun occurs => not_double_infix_cons_intercalate isPiece_of_mem (List.infix_cons occurs)
    simp [apart, Nat.not_le.mpr single]
  · rw [double_infix_gap_iff isPiece_of_mem isPiece_of_mem, one_prefix_pieces_iff]
    simp [Nat.not_lt.mp single]

/-! ### The handler -/

/-- What the handler looks for in a scope. -/
def Suspicious (scopeId : QString) : Prop :=
  literal ['1', '2', '7', '.'] <:+: scopeId ∨ literal [':', ':', '1'] <:+: scopeId ∨
    literal ['l', 'o', 'c', 'a', 'l', 'h', 'o', 's', 't'] <:+: scopeId

def Matched (mixed : IPv6Address → Bool) : HostAddress → Prop
  | .ipv4 address => Has127 address
  | .ipv6 address scopeId =>
    (mixed address = true ∧ Has127 address.embedded) ∨ OneAfterGap (mixed address) address ∨
      Suspicious scopeId

theorem infix_scoped_iff {part : QString} (free : 0x25 ∉ part) (filled : part ≠ [])
    (mixed : IPv6Address → Bool) (address : IPv6Address) (scopeId : QString) :
    part <:+: (HostAddress.ipv6 address scopeId).toString mixed ↔
      part <:+: address.toString (mixed address) ∨ part <:+: scopeId := by
  rw [HostAddress.toString]
  split_ifs with unscoped
  · rw [List.isEmpty_iff.mp unscoped, List.append_nil, List.infix_nil, or_iff_left filled]
  · exact infix_append_cons_iff free

theorem suspicious_iff (mixed : IPv6Address → Bool) (address : HostAddress) :
    Suspicious (address.toString mixed) ↔ Matched mixed address := by
  have letter (address : IPv4Address) :
      ¬ literal ['l', 'o', 'c', 'a', 'l', 'h', 'o', 's', 't'] <:+: address.toString :=
    not_infix_of_notMem (a := 0x6C) (by decide)
      fun inside => absurd (toString_hex address _ inside) (by decide)
  cases address with
  | ipv4 address =>
    have unsplit : ¬ literal [':', ':', '1'] <:+: address.toString :=
      not_infix_of_notMem (a := colon) (by decide) (isPiece_toString address).unsplit
    simp only [Suspicious, HostAddress.toString, Matched, has127_iff, unsplit, letter, or_false]
  | ipv6 address scopeId =>
    have octets : literal ['1', '2', '7', '.'] <:+: address.toString (mixed address) ↔
        mixed address = true ∧ Has127 address.embedded := by
      rw [@infix_ipv6_iff period _ (by decide) (by decide) (by decide)]
      simp [has127_iff, IPv6Address.quad]
    have word : ¬ literal ['l', 'o', 'c', 'a', 'l', 'h', 'o', 's', 't'] <:+:
        address.toString (mixed address) := by
      rw [@infix_ipv6_iff 0x6C _ (by decide) (by decide) (by decide)]
      simp [letter]
    simp only [Suspicious, Matched]
    rw [infix_scoped_iff (by decide) (by decide), infix_scoped_iff (by decide) (by decide),
      infix_scoped_iff (by decide) (by decide), octets, oneAfterGap_iff, or_iff_right word,
      ← or_assoc, or_or_or_comm]
    simp only [or_assoc]

def peerOf (mixed : IPv6Address → Bool) (address : HostAddress) : Peer :=
  ⟨address.isLoopback, address.toString mixed⟩

theorem isLoopback_peerOf (mixed : IPv6Address → Bool) (address : HostAddress) :
    isLoopback (peerOf mixed address) = true ↔
      address.isLoopback = true ∨ Matched mixed address := by
  have filled : (address.toString mixed).isEmpty = false :=
    List.isEmpty_eq_false_iff.mpr (toString_ne_nil mixed address)
  simp only [isLoopback, peerOf, Bool.or_eq_true, contains_iff, ← suspicious_iff, Suspicious,
    filled, Bool.false_eq_true, or_false, or_assoc]

theorem foldl_accept_nextId (peers : List Peer) (s : Agent) :
    (peers.foldl accept s).nextId = s.nextId + peers.length := by
  induction peers generalizing s with
  | nil => rfl
  | cons peer peers ih =>
    rw [List.foldl_cons, ih, List.length_cons, Nat.add_comm peers.length, ← Nat.add_assoc, accept]

theorem foldl_accept_older (peers : List Peer) (s : Agent) {id : SocketId} (older : id < s.nextId) :
    (peers.foldl accept s).sockets id = s.sockets id := by
  induction peers generalizing s with
  | nil => rfl
  | cons peer peers ih =>
    rw [List.foldl_cons, ih (accept s peer) (Nat.lt_succ_of_lt older), accept]
    exact Function.update_of_ne (Nat.ne_of_lt older) _ _

theorem foldl_accept_sockets (before after : List Peer) (peer : Peer) (s : Agent) :
    ((before ++ peer :: after).foldl accept s).sockets (s.nextId + before.length) =
      some ⟨isLoopback peer, isLoopback peer⟩ := by
  rw [List.foldl_append, List.foldl_cons,
    foldl_accept_older _ _ (by rw [accept, foldl_accept_nextId]; exact Nat.lt_succ_self _), accept,
    foldl_accept_nextId]
  exact Function.update_self _ _ _

/-- A pending connection is let in as a local one exactly when its peer is local, but for the
remote addresses that a pattern is found in. -/
theorem let_in_iff_unmatched (mixed : IPv6Address → Bool) (s : Agent) (before after : List Peer)
    (address : HostAddress) :
    (((before ++ peerOf mixed address :: after).foldl accept s).sockets
        (s.nextId + before.length) = some ⟨true, true⟩ ↔ address.isLoopback = true) ↔
      (address.isLoopback = true ∨ ¬ Matched mixed address) := by
  have found := isLoopback_peerOf mixed address
  have both (loopback : Bool) :
      (⟨loopback, loopback⟩ : AgentPacketHandler.ClientSocket) = ⟨true, true⟩ ↔
        loopback = true := by
    cases loopback <;> decide
  rw [foldl_accept_sockets, Option.some.injEq, both, found]
  tauto

/-- The peer `10.127.0.1` is no loopback address, and is let in. -/
theorem remote_let_in :
    ¬ ∀ (s : Agent) (before after : List Peer) (address : HostAddress),
      ((before ++ peerOf embeddedIp4 address :: after).foldl accept s).sockets
        (s.nextId + before.length) = some ⟨true, true⟩ ↔ address.isLoopback = true := by
  intro claimed
  have matched : Matched embeddedIp4 (.ipv4 ⟨10, 127, 0, 1⟩) := Or.inr (Or.inl rfl)
  have remote := claimed initial [] [] (.ipv4 ⟨10, 127, 0, 1⟩)
  rw [foldl_accept_sockets, (isLoopback_peerOf embeddedIp4 _).mpr (.inr matched)] at remote
  exact absurd (remote.mp rfl) (by decide)

end RemoteAccess.LoopbackPeers
