import RemoteAccess.Basics.Keystream
import RemoteAccess.NonceUse

/-! What the ciphertexts of a run give away to somebody without the key. The
session key is the same in every copy of the program, but a secret one would
not help: the client starts to number again in each connection, the agent
answers a password under the number of the password, and frames are numbered
from one as well. Here the key is any one. -/

namespace RemoteAccess.Eavesdropper

open LittleEndian Blocks CryptoEngine ProtocolCodec SealedMessage AgentPacketHandler AgentServer
  SessionSend QtText NonceUse
open Keystream (mask unmask)

/-! ### The keystream of a key and a nonce -/

section Stream

variable (key nonce : List UInt8)

def stream (counter : UInt32) (i : Nat) : UInt8 :=
  (blockBytes (chacha20Block key (counter + UInt32.ofNat (i / 64)) nonce)).getD (i % 64) 0

theorem stream_add (counter : UInt32) (i : Nat) :
    stream key nonce counter (i + 64) = stream key nonce (counter + 1) i := by
  have next : counter + UInt32.ofNat (i / 64 + 1) = counter + 1 + UInt32.ofNat (i / 64) := by
    rw [UInt32.ofNat_add, UInt32.add_comm (UInt32.ofNat (i / 64)), ← UInt32.add_assoc]
    rfl
  rw [stream, Nat.add_div_right i (by norm_num), Nat.add_mod_right, next, stream]

theorem stream_of_lt (counter : UInt32) {i : Nat} (low : i < 64) :
    stream key nonce counter i = (blockBytes (chacha20Block key counter nonce)).getD i 0 := by
  have first : counter + UInt32.ofNat 0 = counter := UInt32.add_zero counter
  rw [stream, Nat.div_eq_of_lt low, Nat.mod_eq_of_lt low, first]

theorem chacha20Xor_eq_mask (data : List UInt8) (counter : UInt32) :
    chacha20Xor data key nonce counter = mask (stream key nonce counter) data := by
  induction data using blocks_induction (show 0 < 64 by norm_num) generalizing counter with
  | nil => rw [chacha20Xor_nil, Keystream.mask_nil]
  | cons data nonempty ih =>
    have block : mask (stream key nonce counter) (data.take 64) =
        List.zipWith (· ^^^ ·) (data.take 64) (blockBytes (chacha20Block key counter nonce)) := by
      rw [Keystream.zipWith_eq_mask _ _ (by rw [length_blockBytes]; exact List.length_take_le ..)]
      refine Keystream.mask_congr _ fun i low => stream_of_lt key nonce counter ?_
      exact Nat.lt_of_lt_of_le low (List.length_take_le ..)
    have rest : mask (fun i => stream key nonce counter (i + (data.take 64).length))
        (data.drop 64) = mask (stream key nonce (counter + 1)) (data.drop 64) := by
      refine Keystream.mask_congr _ fun i low => ?_
      rw [List.length_drop] at low
      rw [List.length_take_of_le (by omega), stream_add]
    rw [chacha20Xor_cons key nonce counter nonempty, ih]
    conv_rhs => rw [← List.take_append_drop 64 data, Keystream.mask_append, block, rest]

end Stream

/-! ### What is seen of a packet -/

structure Key where
  bytes : List UInt8
  size : bytes.length = keySize

variable (oversized : Nat → UInt64) (key : Key)

def payload (m : Plain) :
    { c // encryptPayload oversized m.plaintext key.bytes (nonceOf m.seq) = .ok c } :=
  ⟨_, encryptPayload_eq oversized key.size (length_nonceOf m.seq) m.plaintext⟩

/-- The key both programs have built in. -/
def builtInKey : Key := ⟨sessionKey, length_sessionKey⟩

/-- Under it the payload is what is sent. -/
example (m : Plain) : (payload oversized builtInKey m).val = (m.message oversized).payload := rfl

/-- The payload without the tag at its end. -/
def ciphertext (m : Plain) : List UInt8 :=
  (payload oversized key m).val.take ((payload oversized key m).val.length - tagSize)

theorem ciphertext_eq (m : Plain) :
    ciphertext oversized key m = mask (stream key.bytes (nonceOf m.seq) 1) m.plaintext := by
  rw [ciphertext, payload, List.length_append, length_computePoly1305Mac, Nat.add_sub_cancel,
    List.take_left, chacha20Xor_eq_mask]

section Pair

variable {a b : Plain} (same : a.seq = b.seq)
include same

theorem zipWith_ciphertext :
    List.zipWith (· ^^^ ·) (ciphertext oversized key a) (ciphertext oversized key b) =
      List.zipWith (· ^^^ ·) a.plaintext b.plaintext := by
  rw [ciphertext_eq, ciphertext_eq, same, Keystream.zipWith_mask]

theorem unmask_ciphertext {known : List UInt8} (start : a.plaintext.take known.length = known) :
    unmask known (ciphertext oversized key a) (ciphertext oversized key b) =
      b.plaintext.take known.length := by
  rw [ciphertext_eq, ciphertext_eq, same, Keystream.unmask_mask _ _ _ start]

end Pair

/-! ### What the calls of a run have in common -/

variable (qCompress : List UInt8 → List UInt8) (host : Host)

/-- Every packet of the client's is from one of its calls, a login under number 1;
every frame is from the capture callback. -/
structure Origins (s : System) : Prop where
  calls : ∀ x ∈ s.sends, ∃ (call : Call) (password : QString), x.2.type = call.type ∧
    x.2.plaintext = call.plaintext password ∧ (call = .onConnected → x.1 = 1)
  frames : ∀ f ∈ s.frames, ∃ frame, f = framePacket qCompress frame

variable {qCompress}

theorem Origins.sent {s t : System} (known : Origins qCompress s) (call : Call)
    (sends : t.sends = s.sends ++ (call.perform s.client).2.map
      ((if (call.perform s.client).2.isEmpty then s.position
        else call.countsFrom 0 s.position + 1), ·))
    (frames : t.frames = s.frames) : Origins qCompress t where
  calls := by
    intro x member
    rw [sends, List.mem_append, List.mem_map] at member
    obtain old | ⟨m, sent, rfl⟩ := member
    · exact known.calls x old
    · obtain ⟨type, plaintext⟩ := Call.emitted sent
      refine ⟨call, s.client.requestedPassword, type, plaintext, ?_⟩
      rintro rfl
      rfl
  frames := by
    rw [frames]
    exact known.frames

theorem Origins.captured {s t : System} (known : Origins qCompress s) (sends : t.sends = s.sends)
    (frame : FrameData) (packets : List Plain)
    (callback : ∀ f ∈ packets, f = framePacket qCompress frame)
    (frames : t.frames = s.frames ++ packets) : Origins qCompress t where
  calls := by
    rw [sends]
    exact known.calls
  frames := by
    intro f member
    rw [frames, List.mem_append] at member
    obtain old | new := member
    · exact known.frames f old
    · exact ⟨frame, callback f new⟩

theorem Origins.silent {s t : System} (known : Origins qCompress s) (sends : t.sends = s.sends)
    (frames : t.frames = s.frames) : Origins qCompress t where
  calls := by
    rw [sends]
    exact known.calls
  frames := by
    rw [frames]
    exact known.frames

variable {oversized host}

theorem step_origins {s t : System} {event : NonceUse.Event}
    (stepped : NonceUse.step oversized qCompress host s event = some t)
    (known : Origins qCompress s) : Origins qCompress t := by
  cases event with
  | connectToHost password =>
    obtain rfl := Option.some.inj stepped
    exact known.silent rfl rfl
  | call k =>
    simp only [NonceUse.step] at stepped
    by_cases ok : allowed s.client k = true
    · rw [if_pos ok] at stepped
      obtain rfl := Option.some.inj stepped
      exact known.sent k rfl rfl
    · rw [if_neg ok] at stepped
      cases stepped
  | socketDisconnected =>
    obtain rfl := Option.some.inj stepped
    exact known.silent rfl rfl
  | newConnection pending =>
    simp only [NonceUse.step] at stepped
    obtain ⟨agent, -, rfl⟩ := Option.map_eq_some_iff.mp stepped
    exact known.silent rfl rfl
  | handle id m =>
    simp only [NonceUse.step] at stepped
    split at stepped
    · cases stepped
    · split_ifs at stepped
      obtain rfl := Option.some.inj stepped
      exact known.silent rfl rfl
  | clientDisconnected id =>
    simp only [NonceUse.step] at stepped
    obtain ⟨agent, -, rfl⟩ := Option.map_eq_some_iff.mp stepped
    exact known.silent rfl rfl
  | frameCaptured frame =>
    simp only [NonceUse.step] at stepped
    obtain ⟨agent, -, rfl⟩ := Option.map_eq_some_iff.mp stepped
    refine known.captured rfl frame _ ?_ rfl
    intro f member
    split_ifs at member
    · cases member
    · exact List.mem_singleton.mp member

theorem origins_start : Origins qCompress NonceUse.start where
  calls := by
    intro x member
    cases member
  frames := by
    intro f member
    cases member

theorem run_origins {events : List NonceUse.Event} {s : System}
    (ran : NonceUse.run oversized qCompress host events = some s) : Origins qCompress s :=
  Transitions.run_invariant (Origins qCompress) origins_start step_origins ran

def sizeWords (frame : FrameData) : List UInt8 :=
  toBytes 4 frame.width.toNat ++ toBytes 4 frame.height.toNat ++
    toBytes 4 (UInt32.ofNat frame.pixelData.length).toNat

theorem length_sizeWords (frame : FrameData) : (sizeWords frame).length = 12 := by
  simp only [sizeWords, List.length_append, length_toBytes]

theorem sizeWords_framePacket (frame : FrameData) :
    (framePacket qCompress frame).plaintext.take (sizeWords frame).length = sizeWords frame :=
  List.take_left

def pointerWords (type : UInt16) (x y : Int32) : List UInt8 :=
  toBytes 2 type.toNat ++ List.replicate 2 0 ++ toBytes 4 x.toUInt32.toNat ++
    toBytes 4 y.toUInt32.toNat

theorem pointerWords_inputPlaintext (type : UInt16) (x y : Int32) (button : UInt32)
    (delta : Int32) (keycode : UInt32) :
    (inputPlaintext type x y button delta keycode).take 12 = pointerWords type x y := by
  rw [inputPlaintext, List.append_assoc, List.append_assoc]
  refine List.take_left' ?_
  simp only [List.length_append, length_toBytes, List.length_replicate]

theorem Call.eq_onConnected {call : Call} (login : call.type = .authRequest) :
    call = .onConnected := by
  cases call with
  | onConnected => rfl
  | sendInputEvent =>
    exact absurd (show PayloadType.inputEvent = .authRequest from login) (by decide)
  | sendClipboardText =>
    exact absurd (show PayloadType.clipboardData = .authRequest from login) (by decide)
  | sendSessionControlAction =>
    exact absurd (show PayloadType.sessionControl = .authRequest from login) (by decide)

theorem Call.plaintext_inputEvent {call : Call} (input : call.type = .inputEvent)
    (password : QString) : ∃ type x y button delta keycode,
      call.plaintext password = inputPlaintext type x y button delta keycode := by
  cases call with
  | onConnected =>
    exact absurd (show PayloadType.authRequest = .inputEvent from input) (by decide)
  | sendInputEvent type x y button delta keycode _ =>
    exact ⟨type, x, y, button, delta, keycode, rfl⟩
  | sendClipboardText =>
    exact absurd (show PayloadType.clipboardData = .inputEvent from input) (by decide)
  | sendSessionControlAction =>
    exact absurd (show PayloadType.sessionControl = .inputEvent from input) (by decide)

/-- `logins`: who knows one password sent in the run reads every other one as far
as the known one goes. `connections`: packets at one place of two connections
differ as their plaintexts do. `answers`: the verdict opens the first byte of the
password. `pointers`: the size of the screen opens the type and position of the
input event with the number of a frame. -/
structure GivesAway (oversized : Nat → UInt64) (qCompress : List UInt8 → List UInt8) (host : Host)
    (key : Key) (s : System) : Prop where
  logins : ∀ x ∈ s.sends, ∀ y ∈ s.sends, x.2.type = .authRequest → y.2.type = .authRequest →
    unmask x.2.plaintext (ciphertext oversized key x.2) (ciphertext oversized key y.2) =
      y.2.plaintext.take x.2.plaintext.length
  connections : ∀ x ∈ s.sends, ∀ y ∈ s.sends, x.1 ≡ y.1 [MOD 2 ^ 64] →
    List.zipWith (· ^^^ ·) (ciphertext oversized key x.2) (ciphertext oversized key y.2) =
      List.zipWith (· ^^^ ·) x.2.plaintext y.2.plaintext
  answers : ∀ x ∈ s.answers,
    unmask [if passwordAccepted host.dynamicOtp x.1.plaintext then 0 else 1]
        (ciphertext oversized key x.2) (ciphertext oversized key x.1) =
      x.1.plaintext.take 1
  pointers : ∀ f ∈ s.frames, ∃ frame, f = framePacket qCompress frame ∧
    ∀ x ∈ s.sends, frame.frameNumber.toNat ≡ x.1 [MOD 2 ^ 64] → x.2.type = .inputEvent →
      ∃ type px py button delta keycode,
        x.2.plaintext = inputPlaintext type px py button delta keycode ∧
        unmask (sizeWords frame) (ciphertext oversized key f) (ciphertext oversized key x.2) =
          pointerWords type px py

/-- What the calls of every run give away, whatever the key. -/
theorem run_gives_away (events : List NonceUse.Event) (s : System)
    (ran : NonceUse.run oversized qCompress host events = some s) (key : Key) :
    GivesAway oversized qCompress host key s := by
  have inv := run_invariant oversized qCompress ran
  have known := run_origins ran
  constructor
  · intro x memx y memy typex typey
    have first : ∀ z ∈ s.sends, z.2.type = .authRequest → z.1 = 1 := by
      intro z member type
      obtain ⟨call, password, sameType, -, login⟩ := known.calls z member
      exact login (Call.eq_onConnected (sameType.symm.trans type))
    have same : x.2.seq = y.2.seq := by
      rw [inv.numbered x memx, inv.numbered y memy, first x memx typex, first y memy typey]
    exact unmask_ciphertext oversized key same List.take_length
  · intro x memx y memy place
    have same : x.2.seq = y.2.seq := by
      rw [inv.numbered x memx, inv.numbered y memy, (ofNat_eq_iff _ _).mpr place]
    exact zipWith_ciphertext oversized key same
  · intro x member
    obtain ⟨-, reply⟩ := inv.answered x member
    refine unmask_ciphertext oversized key ?_ ?_
    · rw [reply, authResponse]
    · rw [reply, authResponse]
      exact List.take_length
  · intro f memf
    obtain ⟨frame, rfl⟩ := known.frames f memf
    refine ⟨frame, rfl, fun x memx place type => ?_⟩
    obtain ⟨call, password, sameType, plaintext, -⟩ := known.calls x memx
    obtain ⟨eventType, px, py, button, delta, keycode, event⟩ :=
      Call.plaintext_inputEvent (sameType.symm.trans type) password
    have same : (framePacket qCompress frame).seq = x.2.seq := by
      rw [inv.numbered x memx, ← (ofNat_eq_iff _ _).mpr place, UInt64.ofNat_toNat]
      rfl
    refine ⟨eventType, px, py, button, delta, keycode, plaintext.trans event, ?_⟩
    rw [unmask_ciphertext oversized key same (sizeWords_framePacket frame), length_sizeWords,
      plaintext, event, pointerWords_inputPlaintext]

theorem run_gives_away_secret :
    ∃ s first second, NonceUse.run (fun _ => 1) id ⟨true, true, []⟩
        [.connectToHost masterPassword, .call .onConnected,
          .connectToHost (literal ['s', 'e', 'c', 'r', 'e', 't']), .call .onConnected] = some s ∧
      s.sends = [(1, first), (1, second)] ∧
      unmask first.plaintext (ciphertext (fun _ => 1) builtInKey first)
        (ciphertext (fun _ => 1) builtInKey second) = [0x73, 0x65, 0x63, 0x72, 0x65, 0x74] := by
  obtain ⟨s, ran, sends⟩ : ∃ s, NonceUse.run (fun _ => 1) id ⟨true, true, []⟩
      [.connectToHost masterPassword, .call .onConnected,
        .connectToHost (literal ['s', 'e', 'c', 'r', 'e', 't']), .call .onConnected] = some s ∧
      s.sends = [(1, login), (1, ⟨.authRequest, 1, 0, [0x73, 0x65, 0x63, 0x72, 0x65, 0x74]⟩)] :=
    ⟨_, rfl, rfl⟩
  refine ⟨s, login, _, ran, sends, ?_⟩
  refine ((run_gives_away _ s ran builtInKey).logins (1, login) (by simp [sends])
    (1, ⟨.authRequest, 1, 0, [0x73, 0x65, 0x63, 0x72, 0x65, 0x74]⟩) ?_ rfl rfl).trans rfl
  rw [sends]
  exact List.mem_cons_of_mem _ (List.mem_singleton_self _)

end RemoteAccess.Eavesdropper
