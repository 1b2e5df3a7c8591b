import RemoteAccess.Basics.BigEndian

/-! Numbers in the memory of a machine of either byte order, and the conversion between the
machine's order and that of the network. -/

namespace RemoteAccess.HostOrder

inductive Endian
  | little
  | big
deriving DecidableEq

/-- What a number of `width` bytes is in memory. -/
def store : Endian → (width n : Nat) → List UInt8
  | .little => LittleEndian.toBytes
  | .big => BigEndian.toBytes

def load : Endian → List UInt8 → Nat
  | .little => LittleEndian.toNat
  | .big => BigEndian.toNat

/-- `hton` and `ntoh`: the bytes put the other way round where the orders differ. -/
def swapped : Endian → (width n : Nat) → Nat
  | .little, width, n => BigEndian.toNat (LittleEndian.toBytes width n)
  | .big, width, n => n % 256 ^ width

theorem swapped_lt (order : Endian) (width n : Nat) : swapped order width n < 256 ^ width := by
  cases order with
  | little =>
    have bound := BigEndian.toNat_lt (LittleEndian.toBytes width n)
    rwa [LittleEndian.length_toBytes] at bound
  | big => exact Nat.mod_lt n (Nat.pow_pos (by decide))

theorem load_lt (order : Endian) (bytes : List UInt8) : load order bytes < 256 ^ bytes.length := by
  cases order with
  | little => exact LittleEndian.toNat_lt bytes
  | big => exact BigEndian.toNat_lt bytes

theorem store_swapped (order : Endian) (width n : Nat) :
    store order width (swapped order width n) = BigEndian.toBytes width n := by
  cases order with
  | little =>
    have back := LittleEndian.toBytes_toNat (LittleEndian.toBytes width n).reverse
    rw [List.length_reverse, LittleEndian.length_toBytes] at back
    rw [store, swapped, BigEndian.toNat, back, BigEndian.toBytes]
  | big =>
    have back := BigEndian.toBytes_toNat (BigEndian.toBytes width n)
    rwa [BigEndian.length_toBytes, BigEndian.toNat_toBytes] at back

theorem swapped_load (order : Endian) (bytes : List UInt8) :
    swapped order bytes.length (load order bytes) = BigEndian.toNat bytes := by
  cases order with
  | little => rw [load, swapped, LittleEndian.toBytes_toNat]
  | big => exact Nat.mod_eq_of_lt (BigEndian.toNat_lt bytes)

end RemoteAccess.HostOrder
