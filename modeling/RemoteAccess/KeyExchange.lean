import Mathlib.Data.FinEnum
import Mathlib.Data.Set.Card
import Mathlib.SetTheory.Cardinal.NatCard
import RemoteAccess.CryptoEngine

/-! The key exchange of `CryptoEngine`. A public key is the private key with every byte changed
by one constant, and a shared secret the bytes of two keys combined by exclusive or. -/

namespace RemoteAccess.KeyExchange

open CryptoEngine

structure KeyPair where
  publicKey : List UInt8
  privateKey : List UInt8

/-- What `/dev/urandom` delivers if it opens, or else what `random_device` gives. -/
inductive Entropy
  | urandom (delivered : List UInt8)
  | randomDevice (seed : UInt32)

section Definitions

-- the number that the distribution draws, from a generator with some seed
variable (dis : UInt32 → Nat → UInt8)

/-- What is not delivered stays zero. -/
def generateRandomBytes (entropy : Entropy) (count : Nat) : List UInt8 :=
  match entropy with
  | .urandom delivered => (delivered ++ List.replicate count 0).take count
  | .randomDevice seed => (List.range count).map (dis seed)

def generateKeyPair (entropy : Entropy) : KeyPair :=
  let privateKey := generateRandomBytes dis entropy keySize
  { publicKey := privateKey.map (· ^^^ 0x5A)
    privateKey := privateKey }

end Definitions

def deriveSharedSecret (ourPrivateKey peerPublicKey : List UInt8) :
    Except CryptoError (List UInt8) :=
  if ourPrivateKey.length ≠ keySize ∨ peerPublicKey.length ≠ keySize then
    .error (.invalidArgument "Keys must be exactly 32 bytes for X25519 ECDH")
  else .ok (List.zipWith (· ^^^ ·) ourPrivateKey peerPublicKey)

/-- What anyone can compute who hears the two public keys. -/
def overheard (publicKey otherKey : List UInt8) : List UInt8 :=
  List.zipWith (fun x y => x ^^^ y ^^^ 0x5A) publicKey otherKey

/-! ### The keys -/

section Keys

variable {dis : UInt32 → Nat → UInt8}

theorem length_generateRandomBytes (entropy : Entropy) (count : Nat) :
    (generateRandomBytes dis entropy count).length = count := by
  cases entropy with
  | urandom delivered =>
    rw [generateRandomBytes, List.length_take, List.length_append, List.length_replicate]
    omega
  | randomDevice seed => rw [generateRandomBytes, List.length_map, List.length_range]

theorem length_privateKey (entropy : Entropy) :
    (generateKeyPair dis entropy).privateKey.length = keySize :=
  length_generateRandomBytes entropy keySize

theorem publicKey_eq (entropy : Entropy) :
    (generateKeyPair dis entropy).publicKey =
      (generateKeyPair dis entropy).privateKey.map (· ^^^ 0x5A) := rfl

theorem length_publicKey (entropy : Entropy) :
    (generateKeyPair dis entropy).publicKey.length = keySize := by
  rw [publicKey_eq, List.length_map, length_privateKey]

theorem privateKey_eq (entropy : Entropy) :
    (generateKeyPair dis entropy).privateKey =
      (generateKeyPair dis entropy).publicKey.map (· ^^^ 0x5A) := by
  have back : ((· ^^^ 0x5A) ∘ (· ^^^ 0x5A) : UInt8 → UInt8) = id := by
    funext b
    rw [Function.comp_apply, UInt8.xor_assoc, UInt8.xor_self, UInt8.xor_zero, id]
  rw [publicKey_eq, List.map_map, back, List.map_id]

/-! ### The secret -/

theorem deriveSharedSecret_eq {ours peer : List UInt8} (oursOk : ours.length = keySize)
    (peerOk : peer.length = keySize) :
    deriveSharedSecret ours peer = .ok (List.zipWith (· ^^^ ·) ours peer) :=
  if_neg (by simp [oursOk, peerOk])

theorem deriveSharedSecret_overheard (ours peer : Entropy) :
    deriveSharedSecret (generateKeyPair dis ours).privateKey (generateKeyPair dis peer).publicKey =
      .ok (overheard (generateKeyPair dis ours).publicKey
        (generateKeyPair dis peer).publicKey) := by
  rw [deriveSharedSecret_eq (length_privateKey ours) (length_publicKey peer), privateKey_eq ours,
    overheard, List.zipWith_map_left]
  congr 2
  funext x y
  rw [UInt8.xor_assoc, UInt8.xor_comm 0x5A y, ← UInt8.xor_assoc]

theorem overheard_comm (publicKey otherKey : List UInt8) :
    overheard publicKey otherKey = overheard otherKey publicKey := by
  rw [overheard, List.zipWith_comm, overheard]
  congr 1
  funext x y
  rw [UInt8.xor_comm y x]

theorem overheard_self (key : List UInt8) : overheard key key = List.replicate key.length 0x5A := by
  induction key with
  | nil => rfl
  | cons b key ih =>
    rw [overheard, List.zipWith_cons_cons, UInt8.xor_self, UInt8.zero_xor, List.length_cons,
      List.replicate_succ, ← ih, overheard]

end Keys

/-- Two parties derive one secret, which their public keys give away: whatever is sealed with it
opens for anyone who heard them. A public key shows its private key, a peer that sends back the
public key it was sent sets the secret to a constant, and without `/dev/urandom` there are no
more key pairs than seeds. -/
theorem key_exchange_is_public (dis : UInt32 → Nat → UInt8) :
    (∀ ours peer, ∃ secret,
      deriveSharedSecret (generateKeyPair dis ours).privateKey
        (generateKeyPair dis peer).publicKey = .ok secret ∧
      deriveSharedSecret (generateKeyPair dis peer).privateKey
        (generateKeyPair dis ours).publicKey = .ok secret ∧
      secret = overheard (generateKeyPair dis ours).publicKey (generateKeyPair dis peer).publicKey ∧
      ∀ oversized plaintext nonce ciphertext,
        encryptPayload oversized plaintext secret nonce = .ok ciphertext →
          decryptPayload oversized ciphertext (overheard (generateKeyPair dis ours).publicKey
            (generateKeyPair dis peer).publicKey) nonce = some plaintext) ∧
    (∀ ours, (generateKeyPair dis ours).privateKey =
      (generateKeyPair dis ours).publicKey.map (· ^^^ 0x5A)) ∧
    (∀ ours, deriveSharedSecret (generateKeyPair dis ours).privateKey
      (generateKeyPair dis ours).publicKey = .ok (List.replicate keySize 0x5A)) ∧
    (Set.range fun seed => generateKeyPair dis (.randomDevice seed)).ncard ≤ 2 ^ 32 := by
  refine ⟨fun ours peer => ⟨_, deriveSharedSecret_overheard ours peer, ?_, rfl, ?_⟩,
    privateKey_eq, fun ours => ?_, ?_⟩
  · rw [deriveSharedSecret_overheard, overheard_comm]
  · intro oversized plaintext nonce ciphertext sealed
    have keyOk : (overheard (generateKeyPair dis ours).publicKey
        (generateKeyPair dis peer).publicKey).length = keySize := by
      rw [overheard, List.length_zipWith, length_publicKey, length_publicKey, Nat.min_self]
    have nonceOk : nonce.length = nonceSize := by
      by_contra wrong
      rw [encryptPayload, if_pos (.inr wrong)] at sealed
      cases sealed
    exact decryptPayload_encryptPayload oversized keyOk nonceOk sealed
  · rw [deriveSharedSecret_overheard, overheard_self, length_publicKey]
  · have seeds : Nat.card UInt32 = 2 ^ 32 := by
      rw [Nat.card_eq_fintype_card, ← FinEnum.card_eq_fintypeCard, FinEnum.card_UInt32]
    exact seeds ▸ Finite.card_range_le _

end RemoteAccess.KeyExchange
