import RemoteAccess.MobileApi

/-! The length check of `decode` on the targets the platform is packaged for. The sum of the
header size and an announced payload size is a `size_t`, which has 32 bits on armeabi-v7a. -/

namespace RemoteAccess.LengthCheck

open ProtocolCodec MobileApi

inductive Target
  | bits64
  | bits32
deriving DecidableEq

def Target.sizeBits : Target → Nat
  | .bits64 => 64
  | .bits32 => 32

/-- A byte buffer whose size is a `size_t` of the target. -/
structure Buffer (target : Target) where
  bytes : List UInt8
  fits : bytes.length < 2 ^ target.sizeBits

variable {target : Target}

def Buffer.decode (b : Buffer target) : ParseResult := decodeOn target.sizeBits b.bytes

/-- Behind the check the payload is resized, and as many bytes are copied from offset 28 on.
Where `size_t` has 32 bits, a resize to 2^31 bytes or more throws `std::length_error`, and
nothing is copied any more. -/
def Buffer.copied (b : Buffer target) : Option Nat :=
  match b.decode with
  | .ok packet =>
    if 0 < packet.header.payloadSize then some packet.header.payloadSize.toNat else none
  | .error _ => none

def Buffer.Short (b : Buffer target) : Prop :=
  HeaderOk b.bytes ∧ b.bytes.length < headerSize + (payloadSizeOf b.bytes).toNat

section Sum

variable {size : UInt32}

end Sum

section Checked

variable {b : Buffer target}

end Checked

end RemoteAccess.LengthCheck
