import RemoteAccess.SessionPackets

/-! The buffer behind each image that the client builds of a frame: decompressed pixels of
whatever length the peer's data give, or bytes of the packet that were counted first. -/

namespace RemoteAccess.FrameBuffers

open LittleEndian ProtocolCodec SessionReceive SessionPackets
open AgentPacketHandler (openPacket)

variable (oversized : Nat → UInt64) (qUncompress : List UInt8 → List UInt8)

/-- The arguments of the `QImage` constructor; the line length is `width * 4`. -/
structure ImageSource where
  width : UInt32
  height : UInt32
  pixels : List UInt8

def ImageSource.image (src : ImageSource) : QImage :=
  QImage.ofData src.pixels src.width.toInt32 src.height.toInt32 (src.width * 4).toNat

def widthOf (decrypted : List UInt8) : UInt32 := UInt32.ofNat (word 0 4 decrypted)

def heightOf (decrypted : List UInt8) : UInt32 := UInt32.ofNat (word 4 4 decrypted)

/-- What a frame's plaintext makes the client build an image of. -/
def imageSource (decrypted : List UInt8) : Option ImageSource :=
  let width := widthOf decrypted
  let height := heightOf decrypted
  let pixels := framePixels qUncompress decrypted width height
  if 0 < width ∧ 0 < height ∧ ¬ pixels.isEmpty then some ⟨width, height, pixels⟩ else none

theorem showFrame_eq (s : Session) (decrypted : List UInt8) :
    showFrame qUncompress s decrypted =
      match imageSource qUncompress decrypted with
      | some src =>
        if s.hasFrameProvider then
          { s with receivedFrames := s.receivedFrames + 1 }.emit (.updateFrame src.image)
        else s
      | none => s := by
  simp only [imageSource]
  by_cases built : 0 < widthOf decrypted ∧ 0 < heightOf decrypted ∧
      ¬ (framePixels qUncompress decrypted (widthOf decrypted) (heightOf decrypted)).isEmpty
  · rw [if_pos built]
    exact if_pos built
  · rw [if_neg built]
    exact if_neg built

theorem dispatch_frame_packet {packet : Packet} (frame : packet.header.type = .frameHeader)
    (filled : packet.payload ≠ []) {decrypted : List UInt8}
    (opened : openPacket oversized packet = some decrypted) (long : 12 ≤ decrypted.length)
    (r : Receiver Session) (shown : r.session.renderGated = false) :
    dispatch oversized qUncompress packet r =
      { r with session := showFrame qUncompress r.session decrypted } := by
  rw [dispatch, if_pos ⟨frame, filled⟩, handleFrameHeader, opened, if_neg (by simp [shown])]
  simp only [if_pos long]

/-! ### Sizes that Qt builds an image for -/

def Displayable (width height : UInt32) : Prop :=
  0 < width.toNat ∧ width.toNat ≤ 67108863 ∧ 0 < height.toNat ∧ height.toNat < 2 ^ 31

instance (width height : UInt32) : Decidable (Displayable width height) :=
  inferInstanceAs (Decidable (_ ∧ _))

theorem toInt_toInt32 (n : UInt32) :
    n.toInt32.toInt = if 2 * n.toNat < 2 ^ 32 then (n.toNat : Int) else n.toNat - 2 ^ 32 :=
  BitVec.toInt_eq_toNat_cond n.toBitVec

theorem image_ne_null_iff (src : ImageSource) :
    src.image ≠ .null ↔ Displayable src.width src.height := by
  have width := toInt_toInt32 src.width
  have height := toInt_toInt32 src.height
  have width_lt := src.width.toNat_lt
  have height_lt := src.height.toNat_lt
  have zero : Int32.toInt 0 = 0 := rfl
  have refused : (src.width.toInt32 ≤ 0 ∨ src.height.toInt32 ≤ 0 ∨
      (2 ^ 31 - 1 - 31) / 32 < src.width.toInt32.toInt) ↔
      ¬ Displayable src.width src.height := by
    rw [Int32.le_iff_toInt_le, Int32.le_iff_toInt_le, width, height, zero, Displayable]
    split_ifs <;> omega
  rw [ImageSource.image, QImage.ofData]
  by_cases shown : Displayable src.width src.height
  · have small := shown.2.1
    have stride : (src.width * 4).toNat = 4 * src.width.toNat := by
      have four : (4 : UInt32).toNat = 4 := rfl
      rw [UInt32.toNat_mul, four, Nat.mul_comm, Nat.mod_eq_of_lt (by omega)]
    have positive := shown.1
    rw [if_pos (by omega)] at width
    rw [if_neg (by rwa [refused, not_not])]
    simp only [width, stride, Int.toNat_natCast, Nat.lt_irrefl, and_false, if_false]
    simp only [QImage.null, ne_eq, QImage.mk.injEq, shown, iff_true, not_and]
    omega
  · rw [if_pos (refused.mpr shown)]
    simp [shown]

/-! ### The buffers -/

variable {oversized} {qUncompress}

theorem length_openPacket_lt {data decrypted : List UInt8} {packet : Packet}
    (accepted : decode data = .ok packet) (opened : openPacket oversized packet = some decrypted) :
    decrypted.length < 2 ^ 32 := by
  obtain ⟨-, -, rfl⟩ := (decode_eq_ok_iff data packet).mp accepted
  have payload_lt : (packetOf data).payload.length < 2 ^ 32 :=
    Nat.lt_of_le_of_lt (List.length_take_le _ _) (payloadSizeOf data).toNat_lt
  simp only [openPacket, CryptoEngine.decryptPayload] at opened
  split_ifs at opened
  obtain rfl := Option.some.inj opened
  rw [CryptoEngine.length_chacha20Xor, List.length_take]
  omega

theorem fallback_backed {decrypted : List UInt8} {width height : UInt32}
    (short : decrypted.length < 2 ^ 32) (shown : Displayable width height)
    (counted : (8 + width.toNat * height.toNat * 4) % 2 ^ 64 ≤ decrypted.length) :
    ((decrypted.drop 8).take (width * height * 4).toNat).length =
      width.toNat * height.toNat * 4 := by
  obtain ⟨-, wide, -, high⟩ := shown
  have area : width.toNat * height.toNat ≤ 67108863 * 2 ^ 31 :=
    Nat.mul_le_mul wide (Nat.le_of_lt high)
  rw [Nat.mod_eq_of_lt (by omega)] at counted
  have product : (width * height * 4).toNat = width.toNat * height.toNat * 4 := by
    have four : (4 : UInt32).toNat = 4 := rfl
    rw [UInt32.toNat_mul, UInt32.toNat_mul, four, Nat.mod_eq_of_lt (by omega : _ < 2 ^ 32),
      Nat.mod_eq_of_lt (by omega)]
  rw [product, List.length_take, List.length_drop]
  omega

/-- The pixels read are there exactly when Qt refuses the size, the data do not decompress, or
they decompress to enough of them. -/
theorem frame_backed_iff {data decrypted : List UInt8} {packet : Packet}
    (accepted : decode data = .ok packet) (opened : openPacket oversized packet = some decrypted) :
    (∀ src, imageSource qUncompress decrypted = some src → src.image ≠ .null →
      src.width.toNat * src.height.toNat * 4 ≤ src.pixels.length) ↔
    ¬ Displayable (widthOf decrypted) (heightOf decrypted) ∨
      qUncompress (decrypted.drop 12) = [] ∨
      (widthOf decrypted).toNat * (heightOf decrypted).toNat * 4 ≤
        (qUncompress (decrypted.drop 12)).length := by
  have short := length_openPacket_lt accepted opened
  simp only [image_ne_null_iff]
  by_cases empty : qUncompress (decrypted.drop 12) = []
  · refine ⟨fun _ => .inr (.inl empty), fun _ src source shown => ?_⟩
    simp only [imageSource, framePixels, empty, List.isEmpty_nil, true_and] at source
    split_ifs at source with counted built unbuilt
    · obtain rfl := Option.some.inj source
      have counted_pixels := fallback_backed short shown counted
      rw [counted_pixels]
    · exact absurd rfl unbuilt.2.2
  · have pixels : framePixels qUncompress decrypted (widthOf decrypted) (heightOf decrypted) =
        qUncompress (decrypted.drop 12) := if_neg fun both => empty (List.isEmpty_iff.mp both.1)
    simp only [imageSource, pixels, empty, false_or, List.isEmpty_iff, not_false_eq_true, and_true,
      Option.ite_none_right_eq_some, Option.some.injEq, and_imp]
    constructor
    · intro backed
      by_cases shown : Displayable (widthOf decrypted) (heightOf decrypted)
      · let src : ImageSource :=
          ⟨widthOf decrypted, heightOf decrypted, qUncompress (decrypted.drop 12)⟩
        exact .inr (backed src (UInt32.lt_iff_toNat_lt.mpr shown.1)
          (UInt32.lt_iff_toNat_lt.mpr shown.2.2.1) rfl shown)
      · exact .inl shown
    · rintro enough src wide high rfl shown
      exact enough.resolve_left (not_not.mpr shown)

theorem frame_arrives {m : SealedMessage.Plain} (type : m.type = .frameHeader)
    (fits : m.plaintext.length + CryptoEngine.tagSize < 2 ^ 32) :
    ∃ data packet, decode data = .ok packet ∧ packet.header.type = .frameHeader ∧
      openPacket (fun _ => 1) packet = some m.plaintext := by
  have opened := AgentPacketHandler.openPacket_message (fun _ => 1) fits
  rw [SealedMessage.packet_message _ _ fits] at opened
  refine ⟨_, _, decode_encode_append ?_ [], type, opened⟩
  rw [SealedMessage.length_sealPayload]
  exact fits

def blackPixel : SealedMessage.Plain where
  type := .frameHeader
  seq := 1
  timestampMs := 0
  plaintext := [1, 0, 0, 0, 1, 0, 0, 0, 4, 0, 0, 0] ++
    [0, 0, 0, 4, 0x78, 0x9C, 0x63, 0x60, 0x60, 0x60, 0, 0, 0, 4, 0, 1]

/-- `qUncompress` on the compressed form of the pixel; anything else is taken as corrupt. -/
def uncompressPixel (bytes : List UInt8) : List UInt8 :=
  if bytes = [0, 0, 0, 4, 0x78, 0x9C, 0x63, 0x60, 0x60, 0x60, 0, 0, 0, 4, 0, 1] then [0, 0, 0, 0]
  else []

theorem frame_backed_iff_black_pixel :
    ∃ data packet, decode data = .ok packet ∧
      openPacket (fun _ => 1) packet = some blackPixel.plaintext ∧
      (∃ src, imageSource uncompressPixel blackPixel.plaintext = some src ∧ src.image ≠ .null) ∧
      ∀ src, imageSource uncompressPixel blackPixel.plaintext = some src → src.image ≠ .null →
        src.width.toNat * src.height.toNat * 4 ≤ src.pixels.length := by
  obtain ⟨data, packet, accepted, -, opened⟩ := @frame_arrives blackPixel rfl (by decide)
  exact ⟨data, packet, accepted, opened, ⟨_, rfl, by decide⟩,
    (frame_backed_iff accepted opened).mpr (.inr (.inr (by decide)))⟩

/-- `qUncompress` on the compressed form of one zero byte; anything else is taken as corrupt. -/
def uncompressZero (bytes : List UInt8) : List UInt8 :=
  if bytes = [0, 0, 0, 1, 0x78, 0x9C, 0x63, 0, 0, 0, 1, 0, 1] then [0] else []

def oneByteFrame : SealedMessage.Plain where
  type := .frameHeader
  seq := 1
  timestampMs := 0
  plaintext := [2, 0, 0, 0, 2, 0, 0, 0, 1, 0, 0, 0] ++
    [0, 0, 0, 1, 0x78, 0x9C, 0x63, 0, 0, 0, 1, 0, 1]

/-- Sixteen bytes are read of a buffer of one. -/
theorem one_byte_unbacked :
    ¬ ∀ (data decrypted : List UInt8) (packet : Packet), decode data = .ok packet →
      packet.header.type = .frameHeader → openPacket (fun _ => 1) packet = some decrypted →
      12 ≤ decrypted.length →
      ∀ src, imageSource uncompressZero decrypted = some src → src.image ≠ .null →
        src.width.toNat * src.height.toNat * 4 ≤ src.pixels.length := by
  intro claimed
  obtain ⟨data, packet, accepted, frame, opened⟩ := @frame_arrives oneByteFrame rfl (by decide)
  obtain ⟨src, source, shown, pixels⟩ : ∃ src,
      imageSource uncompressZero oneByteFrame.plaintext = some src ∧
        src.image ≠ .null ∧ (src.width = 2 ∧ src.height = 2 ∧ src.pixels = [0]) :=
    ⟨_, rfl, by decide, by decide⟩
  have backed := claimed data _ packet accepted frame opened (by decide) src source shown
  rw [pixels.1, pixels.2.1, pixels.2.2] at backed
  exact absurd backed (by decide)

end RemoteAccess.FrameBuffers
