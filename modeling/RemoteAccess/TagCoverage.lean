import RemoteAccess.AgentPacketHandler
import RemoteAccess.CryptoTampering
import Mathlib.Data.Nat.Prime.Int

/-! What the tag does not see. A block is multiplied by a multiple of 4 once for
itself and once for every block after it, so in 64-bit words it is gone after 32
of them; and the nonce is no input of the tag at all, so a sealed payload opens
under every nonce. -/

namespace RemoteAccess.TagCoverage

open LittleEndian Blocks Horner CryptoEngine CryptoTampering ProtocolCodec PacketStream
  SealedMessage AgentPacketHandler

/-! ### Blocks of a long message -/

/-- Some key tells apart two messages of `n` full blocks that differ in block `j` only. -/
def BlockCounts (oversized : Nat → UInt64) (n j : Nat) : Prop :=
  ∃ key msg msg' : List UInt8, key.length = keySize ∧
    msg.length = 16 * n ∧ msg'.length = 16 * n ∧
    msg'.take (16 * j) = msg.take (16 * j) ∧ msg'.drop (16 * (j + 1)) = msg.drop (16 * (j + 1)) ∧
    computePoly1305Mac oversized msg' key ≠ computePoly1305Mac oversized msg key

theorem blocks_around {msg : List UInt8} {n j : Nat} (len : msg.length = 16 * n)
    (inside : j < n) :
    blocks 16 msg = blocks 16 (msg.take (16 * j)) ++
      (msg.drop (16 * j)).take 16 :: blocks 16 (msg.drop (16 * (j + 1))) := by
  have whole : msg.take (16 * j) ++ ((msg.drop (16 * j)).take 16 ++ msg.drop (16 * (j + 1))) =
      msg := by
    rw [Nat.mul_succ, ← List.drop_drop, List.take_append_drop, List.take_append_drop]
  have before : (msg.take (16 * j)).length = 16 * j := by
    rw [List.length_take, len]
    omega
  have block : ((msg.drop (16 * j)).take 16).length = 16 := by
    rw [List.length_take, List.length_drop, len]
    omega
  conv_lhs => rw [← whole]
  rw [blocks_append (by norm_num) (by rw [before]; exact Nat.dvd_mul_right 16 j),
    blocks_append (by norm_num) (by rw [block]), blocks_singleton (by norm_num) block,
    List.singleton_append]

theorem four_dvd_masked (w : UInt32) : 4 ∣ (w &&& 0x0ffffffc).toUInt64.toNat := by
  have low : (w &&& 0x0ffffffc).toNat % 2 ^ 2 = 0 := by
    rw [UInt32.toNat_and, Nat.and_mod_two_pow]
    exact Nat.and_zero _
  rw [UInt32.toNat_toUInt64]
  exact Nat.dvd_of_mod_eq_zero low

theorem limbs_pow_eq_zero (key : List UInt8) {count : Nat} (many : 32 ≤ count) :
    limbs (multiplier0 key, multiplier1 key) ^ count = 0 := by
  obtain ⟨q0, low⟩ : 4 ∣ (multiplier0 key).toNat := four_dvd_masked _
  obtain ⟨q1, high⟩ : 4 ∣ (multiplier1 key).toNat := four_dvd_masked _
  have scaled : limbs (multiplier0 key, multiplier1 key) =
      ⟨((4 : ℤ) : BitVec 64), 0⟩ * ⟨((q0 : ℤ) : BitVec 64), ((q1 : ℤ) : BitVec 64)⟩ := by
    rw [limbs_eq, mk_mul, low, high, zero_mul, zero_mul, add_zero, add_zero]
    push_cast
    rfl
  have power : ((4 : ℤ) : BitVec 64) ^ 32 = 0 := by
    rw [← Int.cast_pow, intCast_eq_zero_iff]
    norm_num
  have gone : (⟨((4 : ℤ) : BitVec 64), 0⟩ : Crossed (BitVec 64)) ^ 32 = 0 := by
    rw [mk_zero_pow, power]
    rfl
  obtain ⟨more, rfl⟩ := Nat.exists_eq_add_of_le many
  rw [scaled, mul_pow, pow_add, gone, zero_mul, zero_mul]

/-- Under 32 or more multiplications nothing of a block is left. -/
theorem computePoly1305Mac_block (oversized : Nat → UInt64) (key : List UInt8)
    {msg msg' : List UInt8} {n j : Nat} (len : msg.length = 16 * n) (len' : msg'.length = 16 * n)
    (before : msg'.take (16 * j) = msg.take (16 * j))
    (after : msg'.drop (16 * (j + 1)) = msg.drop (16 * (j + 1))) (far : j + 32 ≤ n) :
    computePoly1305Mac oversized msg' key = computePoly1305Mac oversized msg key := by
  have inside : j < n := by omega
  have behind : (blocks 16 (msg.drop (16 * (j + 1)))).length + 1 = n - j := by
    rw [length_blocks (by norm_num), List.length_drop, len]
    omega
  rw [computePoly1305Mac_eq_iff]
  apply limbs_injective
  rw [limbs_macAccumulate, limbs_macAccumulate, blocks_around len inside,
    blocks_around len' inside, before, after, List.map_append, List.map_append, List.map_cons,
    List.map_cons]
  have moved := horner_replace (limbs (multiplier0 key, multiplier1 key)) (limbs (0, 0))
    (blockElement oversized ((msg.drop (16 * j)).take 16))
    (blockElement oversized ((msg'.drop (16 * j)).take 16) -
      blockElement oversized ((msg.drop (16 * j)).take 16))
    ((blocks 16 (msg.take (16 * j))).map (blockElement oversized))
    ((blocks 16 (msg.drop (16 * (j + 1)))).map (blockElement oversized))
  rw [add_sub_cancel, List.length_map, behind, limbs_pow_eq_zero key (by omega), mul_zero,
    add_zero] at moved
  exact moved

def fourKey : List UInt8 := 4 :: List.replicate 31 0

theorem multipliers_fourKey : multiplier0 fourKey = 4 ∧ multiplier1 fourKey = 0 := by decide

theorem bitVanishes_fourKey {n j : Nat} (inside : j < n) :
    BitVanishes fourKey (16 * n) (128 * j) ↔ j + 32 ≤ n := by
  obtain ⟨low, high⟩ := multipliers_fourKey
  have count : (16 * n + 15) / 16 - 128 * j / 128 = n - j := by omega
  have bit : 65 - 128 * j % 64 = 65 := by omega
  have sum : ((4 : UInt64).toNat : ℤ) + ((0 : UInt64).toNat : ℤ) = 2 ^ 2 := rfl
  have difference : ((4 : UInt64).toNat : ℤ) - ((0 : UInt64).toNat : ℤ) = 2 ^ 2 := rfl
  simp only [BitVanishes, low, high, count, bit, sum, difference]
  rw [sub_self, ← two_mul, ← pow_mul, ← pow_succ',
    pow_dvd_pow_iff (by norm_num) Int.prime_two.not_isUnit]
  simp only [dvd_zero, and_true]
  omega

/-- A block counts exactly when fewer than 32 blocks run from it to the end. -/
theorem blockCounts_iff (oversized : Nat → UInt64) (n j : Nat) (inside : j < n) :
    BlockCounts oversized n j ↔ n < j + 32 := by
  constructor
  · rintro ⟨key, msg, msg', -, len, len', before, after, differ⟩
    by_contra far
    exact differ (computePoly1305Mac_block oversized key len len' before after (by omega))
  · intro near
    let zeros := List.replicate (16 * n) (0 : UInt8)
    have place : 128 * j < 8 * zeros.length := by
      rw [List.length_replicate]
      omega
    have survives : ¬ BitVanishes fourKey zeros.length (128 * j) := by
      rw [List.length_replicate, bitVanishes_fourKey inside]
      omega
    refine ⟨fourKey, zeros, flipBit zeros (128 * j), rfl, List.length_replicate, ?_, ?_, ?_, ?_⟩
    · rw [length_flipBit, List.length_replicate]
    · rw [flipBit, List.take_set, List.set_eq_of_length_le]
      rw [List.length_take]
      omega
    · rw [flipBit, List.drop_set_of_lt (by omega)]
    · rw [Ne, computePoly1305Mac_eq_iff, macAccumulate_flipBit_eq_iff oversized fourKey place]
      exact survives

theorem blockCounts_iff_first : BlockCounts (fun _ => 1) 31 0 :=
  (blockCounts_iff (fun _ => 1) 31 0 (by decide)).mpr (by decide)

/-- The first of 32 blocks is ignored. -/
theorem first_of_32_blocks_ignored : ¬ BlockCounts (fun _ => 1) 32 0 := by
  rintro ⟨key, msg, msg', -, len, len', before, after, differ⟩
  exact differ (computePoly1305Mac_block (fun _ => 1) key len len' before after (by decide))

/-! ### The nonce -/

/-- What a payload sealed under `n` reads as under `n'`. -/
def reread (p k n n' : List UInt8) : List UInt8 := chacha20Xor (chacha20Xor p k n 1) k n' 1

@[simp] theorem length_reread (p k n n' : List UInt8) : (reread p k n n').length = p.length := by
  rw [reread, length_chacha20Xor, length_chacha20Xor]

theorem encryptPayload_reread (oversized : Nat → UInt64) {p k n n' c : List UInt8}
    (keyOk : k.length = keySize) (nonceOk : n.length = nonceSize) (nonceOk' : n'.length = nonceSize)
    (sealed : encryptPayload oversized p k n = .ok c) :
    encryptPayload oversized (reread p k n n') k n' = .ok c := by
  rw [encryptPayload_eq oversized keyOk nonceOk] at sealed
  rw [encryptPayload_eq oversized keyOk nonceOk', reread, chacha20Xor_chacha20Xor]
  exact sealed

/-- Bytes 8 to 15 of an encoding are its sequence number. -/
def renumber (seq : UInt64) (bytes : List UInt8) : List UInt8 :=
  bytes.take 8 ++ toBytes 8 seq.toNat ++ bytes.drop 16

variable (oversized : Nat → UInt64)

/-- The packet a receiver takes a renumbered one for. -/
def renumbered (m : Plain) (seq : UInt64) : Plain where
  type := m.type
  seq := seq
  timestampMs := m.timestampMs
  plaintext := reread m.plaintext sessionKey (nonceOf m.seq) (nonceOf seq)

theorem message_renumbered (m : Plain) (seq : UInt64) :
    (renumbered m seq).message oversized =
      { m.message oversized with sequenceNumber := seq } := by
  have payload : (sealPayload oversized seq (renumbered m seq).plaintext).val =
      (sealPayload oversized m.seq m.plaintext).val := by
    have other := encryptPayload_reread oversized length_sessionKey (length_nonceOf m.seq)
      (length_nonceOf seq) (sealPayload oversized m.seq m.plaintext).property
    exact Except.ok.inj
      ((sealPayload oversized seq (renumbered m seq).plaintext).property.symm.trans other)
  rw [Plain.message, Plain.message]
  simp only [renumbered] at payload ⊢
  rw [payload]

theorem renumber_bytes (m : Plain) (seq : UInt64) :
    renumber seq (m.message oversized).bytes = ((renumbered m seq).message oversized).bytes := by
  have split : ∀ (seq' : UInt64) (rest : List UInt8),
      toBytes 4 magicHeader.toNat ++ (toBytes 2 protocolVersion.toNat ++
        (toBytes 2 m.type.code.toNat ++ (toBytes 8 seq'.toNat ++ rest))) =
      (toBytes 4 magicHeader.toNat ++ toBytes 2 protocolVersion.toNat ++
        toBytes 2 m.type.code.toNat) ++ (toBytes 8 seq'.toNat ++ rest) := by
    intro seq' rest
    simp only [List.append_assoc]
  rw [message_renumbered]
  simp only [renumber, Message.bytes, Plain.message, encode, encodeHeader, List.append_assoc]
  rw [split m.seq, split seq, List.take_left' (by simp),
    ← List.append_assoc _ (toBytes 8 m.seq.toNat), List.drop_left' (by simp)]

theorem decode_renumber (m : Plain) (seq : UInt64) :
    decode (renumber seq (m.message oversized).bytes) =
      .ok ((renumbered m seq).message oversized).packet := by
  rw [renumber_bytes, ← List.append_nil (Message.bytes _), Message.decode_bytes_append]

theorem decryptPayload_reread {p k n n' c : List UInt8} (keyOk : k.length = keySize)
    (nonceOk : n.length = nonceSize) (nonceOk' : n'.length = nonceSize)
    (sealed : encryptPayload oversized p k n = .ok c) :
    decryptPayload oversized c k n' = some (reread p k n n') :=
  decryptPayload_encryptPayload oversized keyOk nonceOk'
    (encryptPayload_reread oversized keyOk nonceOk nonceOk' sealed)

theorem handleClientPacket_renumbered {host : Host} {socket : ClientSocket} {m : Plain}
    (seq : UInt64) (event : m.type = .inputEvent)
    (authenticated : socket.authenticated = true) (backend : host.hasInputBackend = true)
    (away : socket.isLoopback = false) (long : 24 ≤ m.plaintext.length)
    (fits : m.plaintext.length + tagSize < 2 ^ 32) :
    handleClientPacket oversized host socket ((renumbered m seq).message oversized).packet =
      (socket, [.injectEvent (eventOf
        (reread m.plaintext sessionKey (nonceOf m.seq) (nonceOf seq)))]) := by
  have size : (renumbered m seq).plaintext.length = m.plaintext.length := length_reread ..
  have type : (renumbered m seq).type = .inputEvent := event
  rw [handleClientPacket_message oversized (by rw [size]; exact fits), type,
    if_neg (by decide), if_neg (by rw [authenticated]; decide), if_pos rfl, handleInputEvent,
    if_pos (by rw [size]; exact long), if_pos backend, away]
  rfl

/-- Every sealed payload opens under every other nonce, and the agent injects an
input event whatever its sequence number was changed to. -/
theorem other_nonce_accepted (oversized : Nat → UInt64) :
    (∀ p k n n' c : List UInt8, k.length = 32 → n.length = 12 → n'.length = 12 → p ≠ [] →
      n ≠ n' → encryptPayload oversized p k n = .ok c →
      decryptPayload oversized c k n' ≠ none) ∧
    ∀ (host : Host) (socket : ClientSocket) (m : Plain) (seq : UInt64), m.type = .inputEvent →
      socket.authenticated = true → host.hasInputBackend = true → socket.isLoopback = false →
      24 ≤ m.plaintext.length → m.plaintext.length + tagSize < 2 ^ 32 →
      ∃ packet, decode (renumber seq (m.message oversized).bytes) = .ok packet ∧
        handleClientPacket oversized host socket packet =
          (socket, [.injectEvent (eventOf
            (reread m.plaintext sessionKey (nonceOf m.seq) (nonceOf seq)))]) := by
  constructor
  · intro p k n n' c keyOk nonceOk nonceOk' _ _ sealed refused
    rw [decryptPayload_reread oversized keyOk nonceOk nonceOk' sealed] at refused
    cases refused
  · intro host socket m seq event authenticated backend away long fits
    exact ⟨_, decode_renumber oversized m seq,
      handleClientPacket_renumbered oversized seq event authenticated backend away long fits⟩

theorem other_nonce_accepted_press :
    (∃ c, encryptPayload (fun _ => 1) [7] (List.replicate 32 1) (List.replicate 12 2) = .ok c ∧
      decryptPayload (fun _ => 1) c (List.replicate 32 1) (List.replicate 12 3) ≠ none) ∧
    ∃ packet, decode (renumber 9
        ((⟨.inputEvent, 1, 0, List.replicate 24 2⟩ : Plain).message fun _ => 1).bytes) =
          .ok packet ∧
      handleClientPacket (fun _ => 1) ⟨true, true, []⟩ ⟨true, false⟩ packet =
        (⟨true, false⟩, [.injectEvent (eventOf
          (reread (List.replicate 24 2) sessionKey (nonceOf 1) (nonceOf 9)))]) :=
  ⟨⟨_, rfl, (other_nonce_accepted fun _ => 1).1 [7] (List.replicate 32 1) (List.replicate 12 2)
      (List.replicate 12 3) _ rfl rfl rfl (by decide) (by decide) rfl⟩,
    (other_nonce_accepted fun _ => 1).2 ⟨true, true, []⟩ ⟨true, false⟩
      ⟨.inputEvent, 1, 0, List.replicate 24 2⟩ 9 rfl rfl rfl rfl (by decide) (by decide)⟩

/-- The byte 7, sealed under a nonce of twos, opens under a nonce of threes. -/
theorem seven_opens_under_threes :
    ∃ c, encryptPayload (fun _ => 1) [7] (List.replicate 32 1) (List.replicate 12 2) = .ok c ∧
      List.replicate 12 (2 : UInt8) ≠ List.replicate 12 3 ∧
      ¬ decryptPayload (fun _ => 1) c (List.replicate 32 1) (List.replicate 12 3) = none := by
  have sealed := @encryptPayload_eq (fun _ => 1) (List.replicate 32 1) (List.replicate 12 2) rfl rfl
    [7]
  refine ⟨_, sealed, by decide, ?_⟩
  rw [decryptPayload_reread (fun _ => 1) rfl rfl rfl sealed]
  exact Option.some_ne_none _

end RemoteAccess.TagCoverage
