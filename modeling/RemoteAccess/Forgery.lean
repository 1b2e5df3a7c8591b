import RemoteAccess.Basics.TagRecovery
import RemoteAccess.CryptoTampering
import RemoteAccess.Eavesdropper
import Mathlib.Data.Nat.Bitwise

/-! Packets sealed without the key. The tag is keyed by the session key alone, whatever
the nonce, so that two short packets give its key away; a known plaintext gives its
keystream away. With both, any text that is not longer is sealed under the number of
the known one. A login and its answer are two such packets. -/

namespace RemoteAccess.Forgery

open LittleEndian Blocks Horner CryptoEngine CryptoTampering ProtocolCodec SealedMessage
  AgentPacketHandler AgentServer SessionSend QtText NonceUse Eavesdropper
open Keystream (mask unmask)
open TagRecovery (TagKey parity crossedInverse)
open SocketWrite (fits room_of_fits)

variable (oversized : Nat → UInt64)

/-! ### The tag in crossed words -/

def tagKey (key : List UInt8) : TagKey (Crossed (BitVec 64)) where
  multiplier := limbs (multiplier0 key, multiplier1 key)
  pad := limbs ((word32 key 2).toUInt64, (word32 key 3).toUInt64)

def elements (body : List UInt8) : List (Crossed (BitVec 64)) :=
  (blocks 16 body).map (blockElement oversized)

def tagBytes (t : Crossed (BitVec 64)) : List UInt8 :=
  toBytes 8 t.re.toNat ++ toBytes 8 t.im.toNat

def readTag (bytes : List UInt8) : Crossed (BitVec 64) :=
  ⟨BitVec.ofNat 64 (word 0 8 bytes), BitVec.ofNat 64 (word 8 8 bytes)⟩

theorem length_tagBytes (t : Crossed (BitVec 64)) : (tagBytes t).length = tagSize := by
  rw [tagBytes, List.length_append, length_toBytes, length_toBytes]
  rfl

theorem readTag_tagBytes (t : Crossed (BitVec 64)) : readTag (tagBytes t) = t := by
  have half : ∀ x : BitVec 64, BitVec.ofNat 64 (x.toNat % 256 ^ 8) = x := by
    intro x
    rw [Nat.mod_eq_of_lt (Nat.lt_of_lt_of_eq x.isLt (by norm_num)), BitVec.ofNat_toNat,
      BitVec.setWidth_eq]
  have past : word 8 8 (tagBytes t) = t.im.toNat % 256 ^ 8 := by
    rw [tagBytes, word_append_right _ (by rw [length_toBytes]), length_toBytes, Nat.sub_self,
      word_toBytes_self]
  rw [readTag, past, tagBytes, word_toBytes, half, half]

theorem computePoly1305Mac_eq (msg key : List UInt8) :
    computePoly1305Mac oversized msg key =
      tagBytes ((tagKey key).tag (elements oversized msg)) := by
  have start : limbs (0, 0) = 0 := rfl
  have sum : (tagKey key).tag (elements oversized msg) =
      limbs (macAccumulate oversized msg key) + (tagKey key).pad := by
    rw [TagKey.tag, limbs_macAccumulate, start]
    rfl
  rw [computePoly1305Mac, sum, tagBytes]
  rfl

theorem elements_of_short {body : List UInt8} (nonempty : body ≠ []) (short : body.length ≤ 16) :
    elements oversized body = [blockElement oversized body] := by
  rw [elements, blocks_cons (by norm_num) nonempty, List.take_of_length_le short,
    List.drop_of_length_le short, blocks_nil, List.map_singleton]

/-! ### What two payloads say of the key, and sealing with it -/

def bodyOf (payload : List UInt8) : List UInt8 := payload.take (payload.length - tagSize)

def tagOf (payload : List UInt8) : Crossed (BitVec 64) :=
  readTag (payload.drop (payload.length - tagSize))

def recoverKey (payload payload' : List UInt8) : TagKey (Crossed (BitVec 64)) :=
  let m := blockElement oversized (bodyOf payload)
  let m' := blockElement oversized (bodyOf payload')
  TagRecovery.recover m (tagOf payload) (tagOf payload') (crossedInverse 64 (m - m'))

/-- `text` sealed with the key of the tag, under the number of a payload whose plaintext
is known. -/
def forge (key : TagKey (Crossed (BitVec 64))) (known payload text : List UInt8) : List UInt8 :=
  let body := unmask known (bodyOf payload) text
  body ++ tagBytes (key.tag (elements oversized body))

/-- The two payloads are of one block each, and their blocks of different parity. -/
structure Telling (payload payload' : List UInt8) : Prop where
  nonempty : bodyOf payload ≠ []
  nonempty' : bodyOf payload' ≠ []
  short : (bodyOf payload).length ≤ 16
  short' : (bodyOf payload').length ≤ 16
  differ : parity (blockElement oversized (bodyOf payload)) ≠
    parity (blockElement oversized (bodyOf payload'))

section Payloads

variable (key : Key) (m : Plain)

theorem payload_eq : (payload oversized key m).val =
    mask (stream key.bytes (nonceOf m.seq) 1) m.plaintext ++
      tagBytes ((tagKey key.bytes).tag (elements oversized
        (mask (stream key.bytes (nonceOf m.seq) 1) m.plaintext))) := by
  rw [← chacha20Xor_eq_mask, ← computePoly1305Mac_eq]
  rfl

theorem bodyOf_payload : bodyOf (payload oversized key m).val =
    mask (stream key.bytes (nonceOf m.seq) 1) m.plaintext := ciphertext_eq oversized key m

theorem tagOf_payload : tagOf (payload oversized key m).val =
    (tagKey key.bytes).tag (elements oversized (bodyOf (payload oversized key m).val)) := by
  rw [tagOf, bodyOf_payload, payload_eq, List.length_append, length_tagBytes, Nat.add_sub_cancel,
    List.drop_left, readTag_tagBytes]

theorem recoverKey_payload {a b : Plain} (telling : Telling oversized
    (payload oversized key a).val (payload oversized key b).val) :
    recoverKey oversized (payload oversized key a).val (payload oversized key b).val =
      tagKey key.bytes := by
  rw [recoverKey, tagOf_payload, tagOf_payload,
    elements_of_short oversized telling.nonempty telling.short,
    elements_of_short oversized telling.nonempty' telling.short']
  exact TagRecovery.recover_tag _ (TagRecovery.sub_mul_crossedInverse telling.differ)

theorem forge_payload {text : List UInt8} (fits : text.length ≤ m.plaintext.length)
    (type : PayloadType) (timestampMs : UInt64) :
    forge oversized (tagKey key.bytes) m.plaintext (payload oversized key m).val text =
      (payload oversized key ⟨type, m.seq, timestampMs, text⟩).val := by
  rw [forge, bodyOf_payload, Keystream.unmask_eq_mask _ _ fits, payload_eq]

end Payloads

/-! ### A login and its answer -/

/-- Up to eight bytes the marker is a one in the upper limb, and the first byte decides. -/
theorem parity_blockElement {b : UInt8} {rest : List UInt8} (short : (b :: rest).length ≤ 8) :
    parity (blockElement oversized (b :: rest)) = (b.toNat + 1) % 2 := by
  have marker : markerShift (b :: rest).length = 0 := if_neg (by omega)
  have low : (orBytes ((b :: rest).take 8)).toBitVec.toNat = b.toNat + 256 * toNat rest := by
    rw [List.take_of_length_le short]
    exact (toNat_orBytes _ short).trans (toNat_cons b rest)
  have high : (orBytes ((b :: rest).drop 8) +
      shiftOne oversized (markerShift (b :: rest).length)).toBitVec.toNat = 1 := by
    rw [List.drop_of_length_le short, marker]
    rfl
  rw [parity, blockElement, low, high]
  omega

theorem xor_parity (a b : UInt8) : (a ^^^ b).toNat % 2 = (a.toNat + b.toNat) % 2 := by
  rw [UInt8.toNat_xor, Nat.xor_mod_two_eq]

variable {oversized}

theorem telling_answer_iff (key : Key) {request : Plain} {accepted : Bool}
    (verdict : request.plaintext = [] → accepted = true)
    (short : request.plaintext.length ≤ 8) :
    Telling oversized (payload oversized key request).val
        (payload oversized key (authResponse request.seq accepted)).val ↔
      (request.plaintext.headD 0).toNat % 2 ≠ if accepted then 0 else 1 := by
  obtain ⟨type, seq, timestampMs, plaintext⟩ := request
  have answer : bodyOf (payload oversized key (authResponse seq accepted)).val =
      [(if accepted then 0 else 1) ^^^ stream key.bytes (nonceOf seq) 1 0] :=
    bodyOf_payload oversized key _
  have body : bodyOf (payload oversized key ⟨type, seq, timestampMs, plaintext⟩).val =
      mask (stream key.bytes (nonceOf seq) 1) plaintext := bodyOf_payload oversized key _
  cases plaintext with
  | nil =>
    rw [Keystream.mask_nil] at body
    rw [verdict rfl]
    constructor
    · intro telling
      exact absurd body telling.nonempty
    · intro odd
      exact absurd rfl odd
  | cons b rest =>
    rw [Keystream.mask_cons] at body
    have eight : ((b ^^^ stream key.bytes (nonceOf seq) 1 0) ::
        mask (fun i => stream key.bytes (nonceOf seq) 1 (i + 1)) rest).length ≤ 8 := by
      rw [List.length_cons, Keystream.length_mask]
      exact short
    have first := xor_parity b (stream key.bytes (nonceOf seq) 1 0)
    have parities : (b ^^^ stream key.bytes (nonceOf seq) 1 0).toNat % 2 =
        ((if accepted then 0 else 1) ^^^ stream key.bytes (nonceOf seq) 1 0 : UInt8).toNat % 2 ↔
        b.toNat % 2 = if accepted then 0 else 1 := by
      rw [first, xor_parity]
      cases accepted with
      | false =>
        have one : (if false = true then 0 else 1 : UInt8).toNat = 1 := rfl
        rw [one, if_neg Bool.false_ne_true]
        omega
      | true =>
        have zero : (if true = true then 0 else 1 : UInt8).toNat = 0 := rfl
        rw [zero, if_pos rfl]
        omega
    rw [List.headD_cons, Ne, ← parities]
    constructor
    · intro telling
      have differ := telling.differ
      rw [body, answer, parity_blockElement oversized eight,
        parity_blockElement oversized (by simp)] at differ
      omega
    · intro differ
      refine ⟨?_, ?_, ?_, ?_, ?_⟩
      · rw [body]
        exact List.cons_ne_nil _ _
      · rw [answer]
        exact List.cons_ne_nil _ _
      · rw [body]
        exact Nat.le_trans eight (by norm_num)
      · rw [answer, List.length_singleton]
        norm_num
      · rw [body, answer, parity_blockElement oversized eight,
          parity_blockElement oversized (by simp)]
        omega

variable {qCompress : List UInt8 → List UInt8} {host : Host}

/-- Whatever the key, in every run any two telling payloads let anybody seal any text under
the number of a packet whose plaintext is known, as far as that goes, just as the holder of
the key would. A login with at most eight bytes and its answer are telling exactly when the
first byte of the password is odd and it is accepted, or even and refused. -/
theorem run_lets_forge (events : List NonceUse.Event) (s : System)
    (ran : NonceUse.run oversized qCompress host events = some s) (key : Key) :
    (∀ a ∈ s.calls, ∀ b ∈ s.calls,
      Telling oversized (payload oversized key a).val (payload oversized key b).val →
      ∀ known ∈ s.calls, ∀ type timestampMs text, text.length ≤ known.plaintext.length →
        forge oversized (recoverKey oversized (payload oversized key a).val
            (payload oversized key b).val) known.plaintext (payload oversized key known).val text =
          (payload oversized key ⟨type, known.seq, timestampMs, text⟩).val) ∧
    ∀ x ∈ s.answers, x.1.plaintext.length ≤ 8 →
      x.1 ∈ s.calls ∧ x.2 ∈ s.calls ∧
      (Telling oversized (payload oversized key x.1).val (payload oversized key x.2).val ↔
        (x.1.plaintext.headD 0).toNat % 2 ≠
          if passwordAccepted host.dynamicOtp x.1.plaintext then 0 else 1) := by
  have inv := run_invariant oversized qCompress ran
  constructor
  · intro a _ b _ telling known _ type timestampMs text fits
    rw [recoverKey_payload oversized key telling, forge_payload oversized key known fits]
  · intro x member short
    obtain ⟨request, reply⟩ := inv.answered x member
    refine ⟨(inv.sources _).mpr (.inl request),
      (inv.sources _).mpr (.inr (.inl (List.mem_map_of_mem member))), ?_⟩
    rw [reply]
    refine telling_answer_iff key (fun empty => ?_) short
    rw [empty, passwordAccepted]
    exact Bool.or_true _

theorem step_answers {s : System} {id : SocketId} {socket : ClientSocket} {m : Plain}
    (known : s.agent.sockets id = some socket) (sent : m ∈ s.sends.map Prod.snd) (whole : fits m)
    (request : m.type = .authRequest ∧ m.plaintext ≠ []) :
    ∃ t, NonceUse.step oversized qCompress host s (.handle id m) = some t ∧
      t.answers = s.answers ++
        [(m, authResponse m.seq (passwordAccepted host.dynamicOtp m.plaintext))] := by
  simp only [NonceUse.step, known, if_pos (And.intro sent whole),
    sealed_message oversized (room_of_fits whole), if_pos request]
  exact ⟨_, rfl, rfl⟩

/-- The master password and its answer let anybody lock the host's screen. -/
theorem run_lets_forge_lock :
    let request := (payload (fun _ => 1) builtInKey login).val
    let answer := (payload (fun _ => 1) builtInKey (authResponse 1 true)).val
    forge (fun _ => 1) (recoverKey (fun _ => 1) request answer) login.plaintext request
        (toBytes 4 2) =
      (payload (fun _ => 1) builtInKey ⟨.sessionControl, 1, 0, toBytes 4 2⟩).val := by
  intro request answer
  obtain ⟨s, earlier, known, sends, answers⟩ : ∃ s, NonceUse.run (fun _ => 1) id ⟨true, true, []⟩
      [.connectToHost masterPassword, .call .onConnected,
        .newConnection [⟨false, literal ['1', '0', '.', '0', '.', '0', '.', '2']⟩]] = some s ∧
        s.agent.sockets 0 = some ⟨false, false⟩ ∧ s.sends = [(1, login)] ∧ s.answers = [] :=
    ⟨_, rfl, rfl, rfl, rfl⟩
  obtain ⟨t, answered, all⟩ := @step_answers (fun _ => 1) id ⟨true, true, []⟩ s 0 _ login known
    (by simp [sends]) (by decide) (by decide)
  have accepted : passwordAccepted [] login.plaintext = true := by decide
  rw [answers, List.nil_append, accepted] at all
  have ran : NonceUse.run (fun _ => 1) id ⟨true, true, []⟩
      ([.connectToHost masterPassword, .call .onConnected,
        .newConnection [⟨false, literal ['1', '0', '.', '0', '.', '0', '.', '2']⟩]] ++
          [.handle 0 login]) = some t := by
    rw [NonceUse.run] at earlier ⊢
    rw [Transitions.run_concat, earlier, Option.bind_some, answered]
  obtain ⟨forged, told⟩ := run_lets_forge _ t ran builtInKey
  obtain ⟨first, second, telling⟩ := told (login, authResponse 1 true)
    (all ▸ List.mem_singleton_self _) (by decide)
  exact forged _ first _ second (telling.mpr (by decide)) _ first .sessionControl 0 _ (by decide)

end RemoteAccess.Forgery
