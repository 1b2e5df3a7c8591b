import RemoteAccess.Basics.BigEndian

/-! Sequences of items in network byte order, each a kind, a length and as many bytes,
padded to a boundary. `items` reads them up to the first one that is cut off; a `Padded`
item is what an encoder writes. -/

namespace RemoteAccess.TypeLengthValue

structure Layout where
  kindWidth : Nat
  lengthWidth : Nat
  align : Nat
  header_pos : 0 < kindWidth + lengthWidth

structure Item where
  kind : Nat
  value : List UInt8
deriving DecidableEq

def padding (align length : Nat) : Nat := (align - length % align) % align

variable (F : Layout)

def Layout.header : Nat := F.kindWidth + F.lengthWidth

def Layout.kind (bytes : List UInt8) : Nat := BigEndian.toNat (bytes.take F.kindWidth)

def Layout.length (bytes : List UInt8) : Nat :=
  BigEndian.toNat ((bytes.drop F.kindWidth).take F.lengthWidth)

/-- The first item, if it is complete, and what follows its padding. -/
def takeItem (bytes : List UInt8) : Option (Item × List UInt8) :=
  if bytes.length < F.header ∨ bytes.length < F.header + F.length bytes then none
  else some (⟨F.kind bytes, (bytes.drop F.header).take (F.length bytes)⟩,
    bytes.drop (F.header + F.length bytes + padding F.align (F.length bytes)))

def Item.bytes (item : Item) : List UInt8 :=
  BigEndian.toBytes F.kindWidth item.kind ++
    (BigEndian.toBytes F.lengthWidth item.value.length ++ item.value)

variable {F}

theorem takeItem_rest {bytes rest : List UInt8} {item : Item}
    (taken : takeItem F bytes = some (item, rest)) :
    rest <:+ bytes ∧ rest.length < bytes.length := by
  have pos := F.header_pos
  unfold takeItem at taken
  split_ifs at taken with short
  obtain ⟨-, rfl⟩ := Prod.mk.inj (Option.some.inj taken)
  refine ⟨List.drop_suffix _ _, ?_⟩
  rw [List.length_drop]
  unfold Layout.header at short ⊢
  omega

variable (F) in
/-- The items up to the first one that is cut off. -/
def items (bytes : List UInt8) : List Item :=
  match _ : takeItem F bytes with
  | none => []
  | some (item, rest) => item :: items rest
termination_by bytes.length
decreasing_by exact (takeItem_rest ‹_›).2

theorem items_none {bytes : List UInt8} (cut : takeItem F bytes = none) : items F bytes = [] := by
  rw [items]
  split
  · rfl
  · next taken => rw [cut] at taken; cases taken

theorem items_some {bytes rest : List UInt8} {item : Item}
    (taken : takeItem F bytes = some (item, rest)) :
    items F bytes = item :: items F rest := by
  rw [items]
  split
  · next cut => rw [taken] at cut; cases cut
  · next taken' =>
    rw [taken] at taken'
    obtain ⟨rfl, rfl⟩ := Prod.mk.inj (Option.some.inj taken')
    rfl

/-! ### Items are parts of the bytes -/

theorem takeItem_first {bytes rest : List UInt8} {item : Item}
    (taken : takeItem F bytes = some (item, rest)) : item.bytes F <+: bytes := by
  unfold takeItem at taken
  split_ifs at taken with short
  obtain ⟨rfl, -⟩ := Prod.mk.inj (Option.some.inj taken)
  unfold Layout.header Layout.length Layout.kind at *
  have kind_length : (bytes.take F.kindWidth).length = F.kindWidth := by
    rw [List.length_take]; omega
  have length_length : ((bytes.drop F.kindWidth).take F.lengthWidth).length = F.lengthWidth := by
    rw [List.length_take, List.length_drop]; omega
  have kind := BigEndian.toBytes_toNat (bytes.take F.kindWidth)
  rw [kind_length] at kind
  have length := BigEndian.toBytes_toNat ((bytes.drop F.kindWidth).take F.lengthWidth)
  rw [length_length] at length
  generalize BigEndian.toNat ((bytes.drop F.kindWidth).take F.lengthWidth) = n at *
  have value_length : ((bytes.drop (F.kindWidth + F.lengthWidth)).take n).length = n := by
    rw [List.length_take, List.length_drop]; omega
  refine ⟨bytes.drop (F.kindWidth + F.lengthWidth + n), ?_⟩
  calc _ ++ bytes.drop (F.kindWidth + F.lengthWidth + n)
      = bytes.take F.kindWidth ++ ((bytes.drop F.kindWidth).take F.lengthWidth ++
          ((bytes.drop (F.kindWidth + F.lengthWidth)).take n ++
            (bytes.drop (F.kindWidth + F.lengthWidth)).drop n)) := by
        rw [Item.bytes, kind, value_length, length, List.drop_drop, List.append_assoc,
          List.append_assoc]
    _ = bytes := by
        rw [List.take_append_drop, ← List.drop_drop, List.take_append_drop,
          List.take_append_drop]

theorem bytes_infix {bytes : List UInt8} {item : Item} (found : item ∈ items F bytes) :
    item.bytes F <:+: bytes := by
  induction size : bytes.length using Nat.strongRecOn generalizing bytes with
  | ind size ih =>
    subst size
    cases taken : takeItem F bytes with
    | none => rw [items_none taken] at found; cases found
    | some parts =>
      obtain ⟨first, rest⟩ := parts
      have shorter := takeItem_rest taken
      rw [items_some taken] at found
      rcases List.mem_cons.mp found with rfl | found
      · exact (takeItem_first taken).isInfix
      · exact (ih rest.length shorter.2 found rfl).trans shorter.1.isInfix

/-! ### Reading back what was written -/

variable (F) in
structure Padded where
  kind : Nat
  value : List UInt8
  filler : List UInt8
  kind_lt : kind < 256 ^ F.kindWidth
  length_lt : value.length < 256 ^ F.lengthWidth
  filler_length : filler.length = padding F.align value.length

def Padded.item (p : Padded F) : Item := ⟨p.kind, p.value⟩

def Padded.bytes (p : Padded F) : List UInt8 := p.item.bytes F ++ p.filler

theorem Padded.length_bytes (p : Padded F) :
    p.bytes.length = F.header + p.value.length + padding F.align p.value.length := by
  simp only [bytes, item, Item.bytes, Layout.header, List.length_append,
    BigEndian.length_toBytes, p.filler_length]
  omega

theorem takeItem_bytes (p : Padded F) (rest : List UInt8) :
    takeItem F (p.bytes ++ rest) = some (p.item, rest) := by
  have layout : p.bytes ++ rest = BigEndian.toBytes F.kindWidth p.kind ++
      (BigEndian.toBytes F.lengthWidth p.value.length ++ (p.value ++ (p.filler ++ rest))) := by
    simp [Padded.bytes, Padded.item, Item.bytes]
  have kind : (p.bytes ++ rest).take F.kindWidth = BigEndian.toBytes F.kindWidth p.kind := by
    rw [layout, List.take_left' (BigEndian.length_toBytes _ _)]
  have past_kind : (p.bytes ++ rest).drop F.kindWidth =
      BigEndian.toBytes F.lengthWidth p.value.length ++ (p.value ++ (p.filler ++ rest)) := by
    rw [layout, List.drop_left' (BigEndian.length_toBytes _ _)]
  have past_header : (p.bytes ++ rest).drop F.header = p.value ++ (p.filler ++ rest) := by
    rw [Layout.header, ← List.drop_drop, past_kind, List.drop_left' (BigEndian.length_toBytes _ _)]
  have past : (p.bytes ++ rest).drop
      (F.header + p.value.length + padding F.align p.value.length) = rest := by
    rw [← p.length_bytes, List.drop_left' rfl]
  have size : (p.bytes ++ rest).length =
      F.header + p.value.length + padding F.align p.value.length + rest.length := by
    rw [List.length_append, p.length_bytes]
  have length : F.length (p.bytes ++ rest) = p.value.length := by
    rw [Layout.length, past_kind, List.take_left' (BigEndian.length_toBytes _ _),
      BigEndian.toNat_toBytes, Nat.mod_eq_of_lt p.length_lt]
  unfold takeItem
  rw [length, if_neg (by omega), Layout.kind, kind, past_header, past, List.take_left' rfl,
    BigEndian.toNat_toBytes, Nat.mod_eq_of_lt p.kind_lt, Padded.item]

theorem items_bytes_append (written : List (Padded F)) (rest : List UInt8) :
    items F ((written.map Padded.bytes).flatten ++ rest) =
      written.map Padded.item ++ items F rest := by
  induction written with
  | nil => rfl
  | cons p written ih =>
    rw [List.map_cons, List.flatten_cons, List.append_assoc, items_some (takeItem_bytes p _), ih,
      List.map_cons, List.cons_append]

theorem items_nil : items F [] = [] := items_none (if_pos (.inl F.header_pos))

theorem items_bytes (written : List (Padded F)) :
    items F (written.map Padded.bytes).flatten = written.map Padded.item := by
  have all := items_bytes_append written []
  rwa [List.append_nil, items_nil, List.append_nil] at all

end RemoteAccess.TypeLengthValue
