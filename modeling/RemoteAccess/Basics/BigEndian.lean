import RemoteAccess.Basics.LittleEndian

/-! Fixed-width words in network byte order: the little-endian bytes reversed. -/

namespace RemoteAccess.BigEndian

def toBytes (width n : Nat) : List UInt8 := (LittleEndian.toBytes width n).reverse

def toNat (bytes : List UInt8) : Nat := LittleEndian.toNat bytes.reverse

@[simp] theorem length_toBytes (width n : Nat) : (toBytes width n).length = width := by
  rw [toBytes, List.length_reverse, LittleEndian.length_toBytes]

theorem toNat_toBytes (width n : Nat) : toNat (toBytes width n) = n % 256 ^ width := by
  rw [toNat, toBytes, List.reverse_reverse, LittleEndian.toNat_toBytes]

theorem toBytes_toNat (bytes : List UInt8) : toBytes bytes.length (toNat bytes) = bytes := by
  have back := LittleEndian.toBytes_toNat bytes.reverse
  rw [List.length_reverse] at back
  rw [toBytes, toNat, back, List.reverse_reverse]

theorem toNat_lt (bytes : List UInt8) : toNat bytes < 256 ^ bytes.length := by
  have bound := LittleEndian.toNat_lt bytes.reverse
  rwa [List.length_reverse] at bound

end RemoteAccess.BigEndian
