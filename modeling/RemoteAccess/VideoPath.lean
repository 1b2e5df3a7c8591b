import RemoteAccess.AgentBroadcast
import RemoteAccess.Basics.Blocks
import RemoteAccess.SessionPackets
import Mathlib.Data.List.Forall2

/-! A captured frame from the agent's callback to the client's image: three size
words and the compressed pixels, sealed and framed, broadcast, reassembled,
opened and shown. -/

namespace RemoteAccess.VideoPath

open LittleEndian ProtocolCodec PacketStream SealedMessage AgentServer AgentBroadcast
open SessionReceive SessionSend SessionPackets
open AgentPacketHandler (Host)

variable (oversized : Nat → UInt64) (qCompress qUncompress : List UInt8 → List UInt8)

/-- A frame of a screen, small enough to be written in one piece. -/
structure Sendable (frame : FrameData) : Prop where
  width_pos : 1 ≤ frame.width.toNat
  width_le : frame.width.toNat ≤ 32767
  height_pos : 1 ≤ frame.height.toNat
  height_le : frame.height.toNat ≤ 32767
  pixels : frame.pixelData.length = 4 * frame.width.toNat * frame.height.toNat
  packet : headerSize + (12 + (qCompress frame.pixelData).length + CryptoEngine.tagSize) < 2 ^ 31

structure Shows (frame : FrameData) (image : QImage) : Prop where
  width : image.width = frame.width.toNat
  height : image.height = frame.height.toNat
  count : image.rows.length = frame.height.toNat
  full : ∀ row ∈ image.rows, row.length = 4 * frame.width.toNat
  pixels : image.rows.flatten = frame.pixelData

/-! ### One frame -/

section Frame

variable {qCompress} {qUncompress} {frame : FrameData} (sendable : Sendable qCompress frame)
include sendable

theorem plaintext_framePacket : (framePacket qCompress frame).plaintext =
    toBytes 4 frame.width.toNat ++ toBytes 4 frame.height.toNat ++
      toBytes 4 (UInt32.ofNat frame.pixelData.length).toNat ++ qCompress frame.pixelData := by
  have short : (qCompress frame.pixelData).length < 2 ^ 32 := by
    have packet := sendable.packet
    omega
  simp only [framePacket, UInt32.toNat_ofNat_of_lt' short, List.take_length]

theorem length_framePacket : (framePacket qCompress frame).plaintext.length =
    12 + (qCompress frame.pixelData).length := by
  rw [plaintext_framePacket sendable]
  simp only [List.length_append, length_toBytes]

/-- The image the client makes of the frame. -/
def imageOf (frame : FrameData) : QImage :=
  QImage.ofData frame.pixelData frame.width.toInt32 frame.height.toInt32 (frame.width * 4).toNat

theorem imageOf_eq : imageOf frame =
    { width := frame.width.toNat
      height := frame.height.toNat
      rows := (List.range frame.height.toNat).map fun y =>
        (frame.pixelData.drop (4 * frame.width.toNat * y)).take (4 * frame.width.toNat) } := by
  have width_pos := sendable.width_pos
  have width_le := sendable.width_le
  have height_pos := sendable.height_pos
  have height_le := sendable.height_le
  have width := AgentPacketHandler.toInt_toInt32_of_lt (show frame.width.toNat < 2 ^ 31 by omega)
  have height := AgentPacketHandler.toInt_toInt32_of_lt (show frame.height.toNat < 2 ^ 31 by omega)
  have stride : (frame.width * 4).toNat = 4 * frame.width.toNat := by
    rw [UInt32.toNat_mul, Nat.mul_comm]
    exact Nat.mod_eq_of_lt (by change 4 * frame.width.toNat < 2 ^ 32; omega)
  have valid : ¬ (frame.width.toInt32 ≤ 0 ∨ frame.height.toInt32 ≤ 0 ∨
      (2 ^ 31 - 1 - 31) / 32 < frame.width.toInt32.toInt) := by
    rw [Int32.le_iff_toInt_le, Int32.le_iff_toInt_le, width, height]
    have zero : Int32.toInt 0 = 0 := rfl
    omega
  rw [imageOf, QImage.ofData, if_neg valid]
  simp only [width, height, stride, Int.toNat_natCast, Nat.lt_irrefl, and_false, if_false]
  rw [if_neg (by omega)]

theorem imageOf_shows : Shows frame (imageOf frame) where
  width := by rw [imageOf_eq sendable]
  height := by rw [imageOf_eq sendable]
  count := by
    rw [imageOf_eq sendable]
    simp
  full := by
    rw [imageOf_eq sendable]
    intro row member
    obtain ⟨y, inside, rfl⟩ := List.mem_map.mp member
    rw [List.length_take, List.length_drop, sendable.pixels]
    have fits : 4 * frame.width.toNat * y + 4 * frame.width.toNat ≤
        4 * frame.width.toNat * frame.height.toNat := by
      rw [← Nat.mul_succ]
      exact Nat.mul_le_mul_left _ (List.mem_range.mp inside)
    omega
  pixels := by
    rw [imageOf_eq sendable]
    simp only [Blocks.flatten_slices]
    rw [← sendable.pixels, List.take_length]

theorem fields_framePacket :
    word 0 4 (framePacket qCompress frame).plaintext = frame.width.toNat ∧
      word 4 4 (framePacket qCompress frame).plaintext = frame.height.toNat ∧
      (framePacket qCompress frame).plaintext.drop 12 = qCompress frame.pixelData := by
  rw [plaintext_framePacket sendable]
  refine ⟨?_, ?_, List.drop_left' (by simp)⟩
  · simp only [List.append_assoc, word_toBytes]
    exact Nat.mod_eq_of_lt frame.width.toNat_lt
  · simp (disch := simp) only [List.append_assoc, word_append_right, length_toBytes, Nat.reduceSub,
      word_toBytes]
    exact Nat.mod_eq_of_lt frame.height.toNat_lt

theorem showFrame_framePacket {s : Session}
    (undo : qUncompress (qCompress frame.pixelData) = frame.pixelData)
    (provider : s.hasFrameProvider = true) :
    showFrame qUncompress s (framePacket qCompress frame).plaintext =
      { s with receivedFrames := s.receivedFrames + 1 }.emit (.updateFrame (imageOf frame)) := by
  obtain ⟨width, height, compressed⟩ := fields_framePacket sendable
  have filled : ¬ frame.pixelData.isEmpty = true := by
    rw [List.isEmpty_iff_length_eq_zero, sendable.pixels]
    exact Nat.ne_of_gt (Nat.mul_pos (Nat.mul_pos (by decide) sendable.width_pos)
      sendable.height_pos)
  have pixels : framePixels qUncompress (framePacket qCompress frame).plaintext frame.width
      frame.height = frame.pixelData := by
    rw [framePixels, compressed, undo, if_neg fun both => filled both.1]
  have shown : 0 < frame.width ∧ 0 < frame.height ∧ ¬ frame.pixelData.isEmpty = true :=
    ⟨UInt32.lt_iff_toNat_lt.mpr sendable.width_pos, UInt32.lt_iff_toNat_lt.mpr sendable.height_pos,
      filled⟩
  simp only [showFrame, width, height, UInt32.ofNat_toNat, pixels, if_pos shown, if_pos provider,
    imageOf]

end Frame

/-! ### A stream of frames -/

def act (s : Session) (p : Packet) : Session :=
  (dispatch oversized qUncompress p ⟨s, []⟩).session

theorem dispatch_acts : ActsOn (dispatch oversized qUncompress) (act oversized qUncompress)
    fun p => p.header.type = .frameHeader := by
  intro p session buffer type
  rw [act, dispatch, dispatch, type]
  by_cases empty : p.payload = []
  · simp [empty]
  · simp [empty]

section Stream

variable {qCompress} {qUncompress} {frames : List FrameData}
  (sendable : ∀ frame ∈ frames, Sendable qCompress frame)
  (undo : ∀ frame ∈ frames, qUncompress (qCompress frame.pixelData) = frame.pixelData)
include sendable undo

theorem foldl_act {s : Session} (provider : s.hasFrameProvider = true)
    (active : s.renderGated = false) :
    ((frames.map fun frame => ((framePacket qCompress frame).message oversized).packet).foldl
        (act oversized qUncompress) s).effects =
      s.effects ++ frames.map fun frame => .updateFrame (imageOf frame) := by
  induction frames generalizing s with
  | nil => simp
  | cons frame frames ih =>
    obtain ⟨here, later⟩ := List.forall_mem_cons.mp sendable
    obtain ⟨undone, others⟩ := List.forall_mem_cons.mp undo
    have room : (framePacket qCompress frame).plaintext.length + CryptoEngine.tagSize < 2 ^ 32 := by
      have packet := here.packet
      rw [length_framePacket here]
      omega
    have long : ¬ (s.renderGated = true ∨ (framePacket qCompress frame).plaintext.length < 12) := by
      rw [length_framePacket here, active]
      simp
    have first : act oversized qUncompress s
        ((framePacket qCompress frame).message oversized).packet =
          { s with receivedFrames := s.receivedFrames + 1 }.emit
            (.updateFrame (imageOf frame)) := by
      rw [act, dispatch_frame oversized qUncompress room rfl, if_neg long,
        showFrame_framePacket here undone provider]
    have rest := ih later others
      (s := { s with receivedFrames := s.receivedFrames + 1 }.emit (.updateFrame (imageOf frame)))
      provider active
    rw [List.map_cons, List.foldl_cons, first, rest, Session.emit_effects, List.append_assoc,
      List.singleton_append, List.map_cons]

theorem readAll_frames {s : Session} (provider : s.hasFrameProvider = true)
    (active : s.renderGated = false) {reads : List (List UInt8)} {fuel : Nat}
    (arrived : reads.flatten =
      (frames.map fun frame => ((framePacket qCompress frame).message oversized).bytes).flatten)
    (enough : reads.flatten.length < fuel) :
    ∃ session, readAll (dispatch oversized qUncompress) fuel ⟨s, []⟩ reads = some ⟨session, []⟩ ∧
      session.effects = s.effects ++ frames.map fun frame => .updateFrame (imageOf frame) := by
  have d := drains_messages true
    (frames.map fun frame => (framePacket qCompress frame).message oversized) inspect_nil
  rw [List.map_map, List.map_map, List.append_nil] at d
  have all : ∀ p ∈ frames.map fun frame => ((framePacket qCompress frame).message oversized).packet,
      p.header.type = .frameHeader ∧ Fits p := by
    intro p member
    obtain ⟨frame, among, rfl⟩ := List.mem_map.mp member
    have packet := (sendable frame among).packet
    have size : ((framePacket qCompress frame).message oversized).payload.length =
        12 + (qCompress frame.pixelData).length + CryptoEngine.tagSize := by
      rw [Plain.message, length_sealPayload, length_framePacket (sendable frame among)]
    refine ⟨rfl, ?_⟩
    rw [Fits, Message.size_packet _ (by rw [size]; omega), size]
    omega
  exact ⟨_, readAll_of_drains (dispatch_acts oversized qUncompress) (arrived ▸ d) all enough s,
    foldl_act oversized sendable undo provider active⟩

end Stream

/-! ### From the callback to the image -/

/-- What was written to a socket between two states. -/
def sentSince (id : SocketId) (s t : Agent) : List Plain :=
  (written id t.log).drop (written id s.log).length

theorem sentSince_drained {id : SocketId} {s t : Agent} {frames : List FrameData}
    (sent : Conserves qCompress id s t frames) (before : s.queued = []) (after : t.queued = []) :
    sentSince id s t = frames.map (framePacket qCompress) := by
  have all := sent.written
  rw [before, after, List.append_nil, List.append_nil] at all
  rw [sentSince, all, List.drop_left]

/-- Whatever the other sockets do, and however the stream is cut, the client of a
socket that stays shows the frames captured, once each and in order, with their
geometry and pixels. -/
theorem frames_shown (host : Host) (earlier events : List Event) (s t : Agent) (id : SocketId)
    (ran : run oversized qCompress host earlier = some s) (viewing : Viewing id s)
    (before : s.queued = [])
    (ran' : Transitions.run (step oversized qCompress host) s events = some t)
    (after : t.queued = []) (spared : ∀ event ∈ events, spares id event = true)
    (sendable : ∀ frame ∈ events.flatMap captured, Sendable qCompress frame)
    (undo : ∀ frame ∈ events.flatMap captured,
      qUncompress (qCompress frame.pixelData) = frame.pixelData)
    (client : Session) (provider : client.hasFrameProvider = true)
    (active : client.renderGated = false) (reads : List (List UInt8))
    (arrived : reads.flatten =
      ((sentSince id s t).map fun m => (m.message oversized).bytes).flatten)
    (fuel : Nat) (enough : reads.flatten.length < fuel) :
    ∃ session images,
      readAll (dispatch oversized qUncompress) fuel ⟨client, []⟩ reads = some ⟨session, []⟩ ∧
      session.effects = client.effects ++ images.map .updateFrame ∧
      List.Forall₂ Shows (events.flatMap captured) images := by
  have sent := run_viewing ran' (run_registered ran) viewing spared
  rw [sentSince_drained qCompress sent before after, List.map_map] at arrived
  obtain ⟨session, received, effects⟩ :=
    readAll_frames oversized sendable undo provider active arrived enough
  refine ⟨session, (events.flatMap captured).map imageOf, received, ?_, ?_⟩
  · rw [effects, List.map_map]
    rfl
  · rw [List.forall₂_map_right_iff, List.forall₂_same]
    exact fun frame among => imageOf_shows (sendable frame among)

def pixel : FrameData := ⟨1, 1, [0x0a, 0x14, 0x1e, 0xff], 1, 2000⟩

def compressedPixel : List UInt8 :=
  [0x00, 0x00, 0x00, 0x04, 0x78, 0x01, 0xe3, 0x12, 0x91, 0xfb, 0x0f, 0x00, 0x01, 0xa3, 0x01,
   0x3c]

theorem frames_shown_pixel :
    ∃ bytes, bytes = ((framePacket (fun _ => compressedPixel) pixel).message fun _ => 1).bytes ∧
      ∃ session images, readAll (dispatch (fun _ => 1) fun _ => pixel.pixelData) (bytes.length + 1)
          ⟨newSession, []⟩ [bytes.take 20, bytes.drop 20] = some ⟨session, []⟩ ∧
        session.effects = images.map .updateFrame ∧ List.Forall₂ Shows [pixel] images := by
  obtain ⟨s, t, ran, ran', listed, isOpen, known, idle, before, after, sent⟩ : ∃ s t,
      run (fun _ => 1) (fun _ => compressedPixel) ⟨true, true, []⟩ [.newConnection [⟨true, []⟩]] =
          some s ∧
        Transitions.run (step (fun _ => 1) (fun _ => compressedPixel) ⟨true, true, []⟩) s
          [.frameCaptured pixel, .frameDelivered] = some t ∧
        s.clients = [0] ∧ s.isOpen 0 = true ∧ s.sockets 0 = some ⟨true, true⟩ ∧
        s.reading = none ∧ s.queued = [] ∧ t.queued = [] ∧
        sentSince 0 s t = [framePacket (fun _ => compressedPixel) pixel] :=
    ⟨_, _, rfl, rfl, rfl, rfl, rfl, rfl, rfl, rfl, rfl⟩
  have viewing : Viewing 0 s := ⟨by simp [listed], ⟨isOpen, _, known, rfl⟩, by simp [idle]⟩
  have sendable : Sendable (fun _ => compressedPixel) pixel := by constructor <;> decide
  refine ⟨_, rfl, frames_shown (fun _ => 1) (fun _ => compressedPixel) (fun _ => pixel.pixelData)
    ⟨true, true, []⟩ [.newConnection [⟨true, []⟩]] [.frameCaptured pixel, .frameDelivered] s t 0
    ran viewing before ran' after (by simp [spares]) (by simpa [captured] using sendable)
    (by simp [captured]) newSession rfl rfl _ ?_ _ ?_⟩
  · simp [sent]
  · simp

end RemoteAccess.VideoPath
