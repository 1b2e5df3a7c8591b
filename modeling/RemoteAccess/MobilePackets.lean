import RemoteAccess.MobileApi
import RemoteAccess.Basics.Ownership
import RemoteAccess.Basics.Transitions

/-! `rap_mobile_decode_packet` and `rap_mobile_free_packet` on the caller's packets, whose
payloads are blocks of the heap. A call that frees what is not allocated has no result. -/

namespace RemoteAccess.MobilePackets

open MobileApi ProtocolCodec Ownership

/-- A `rap_c_packet_t` as it is in memory. -/
structure Slot where
  payloadType : UInt32
  sequenceNum : UInt64
  timestampMs : UInt64
  payloadData : Option Nat
  payloadSize : Nat

structure Memory where
  packets : Nat → Slot
  heap : Heap (List UInt8)

def start : Memory where
  packets _ := ⟨0, 0, 0, none, 0⟩
  heap := Heap.empty

def Memory.pointer (m : Memory) (i : Nat) : Option Nat := (m.packets i).payloadData

/-- What a packet is with its payload behind its pointer. -/
def Memory.view (m : Memory) (i : Nat) : CPacket where
  payloadType := (m.packets i).payloadType
  sequenceNum := (m.packets i).sequenceNum
  timestampMs := (m.packets i).timestampMs
  payloadData := (m.packets i).payloadData.bind m.heap.cells
  payloadSize := (m.packets i).payloadSize

def Memory.setPacket (m : Memory) (i : Nat) (slot : Slot) : Memory :=
  { m with packets := Function.update m.packets i slot }

/-- What is written behind `out_packet` when the decoder has accepted. -/
def Memory.fill (m : Memory) (i : Nat) (pkt : Packet) : Memory :=
  let slot := (m.packets i)
  let slot := { slot with
    payloadType := pkt.header.type.code.toUInt32
    sequenceNum := pkt.header.sequenceNumber
    timestampMs := pkt.header.timestampMs
    payloadSize := pkt.payload.length }
  if pkt.payload ≠ [] then
    { m with heap := m.heap.alloc pkt.payload }.setPacket i
      { slot with payloadData := some m.heap.next }
  else m.setPacket i { slot with payloadData := none }

def rapMobileDecodePacket (sizeBits : Nat) (m : Memory) (inBuf : Option (List UInt8)) (inLen : Nat)
    (outPacket : Option Nat) : Int32 × Memory :=
  match inBuf, outPacket with
  | some bytes, some i =>
    if inLen < 28 then (-1, m) else
    match decodeOn sizeBits (bytes.take inLen) with
    | .error _ => (-2, m)
    | .ok pkt => (0, m.fill i pkt)
  | _, _ => (-1, m)

def rapMobileFreePacket (m : Memory) (packet : Option Nat) : Option Memory :=
  match packet with
  | none => some m
  | some i =>
    match m.pointer i with
    | none => some m
    | some a => (m.heap.free a).map fun heap =>
      { m with heap := heap }.setPacket i { m.packets i with payloadData := none }

inductive Call
  | decode (inBuf : Option (List UInt8)) (inLen : Nat) (outPacket : Option Nat)
  | free (packet : Option Nat)

def step (sizeBits : Nat) (m : Memory) : Call → Option Memory
  | .decode inBuf inLen outPacket => some (rapMobileDecodePacket sizeBits m inBuf inLen outPacket).2
  | .free packet => rapMobileFreePacket m packet

def run (sizeBits : Nat) (calls : List Call) : Option Memory :=
  Transitions.run (step sizeBits) start calls

/-! ### The same calls on values -/

/-- What the caller is to see: the functions on packets that hold their payloads. -/
def stepValues (sizeBits : Nat) (values : Nat → CPacket) : Call → Nat → CPacket
  | .decode inBuf inLen (some i) =>
    match (MobileApi.rapMobileDecodePacket sizeBits inBuf inLen (some (values i))).2 with
    | some packet => Function.update values i packet
    | none => values
  | .decode _ _ none => values
  | .free (some i) => Function.update values i { values i with payloadData := none }
  | .free none => values

def values (sizeBits : Nat) (calls : List Call) : Nat → CPacket :=
  calls.foldl (stepValues sizeBits) fun _ => ⟨0, 0, 0, none, 0⟩

/-! ### One call -/

section Steps

variable {sizeBits : Nat} {m : Memory}

theorem packets_setPacket (m : Memory) (i : Nat) (slot : Slot) :
    (m.setPacket i slot).packets i = slot := Function.update_self ..

theorem packets_setPacket_of_ne {i j : Nat} (apart : j ≠ i) (m : Memory) (slot : Slot) :
    (m.setPacket i slot).packets j = m.packets j := Function.update_of_ne apart ..

theorem pointer_setPacket (m : Memory) (i : Nat) (slot : Slot) :
    (m.setPacket i slot).pointer = Function.update m.pointer i slot.payloadData := by
  funext j
  by_cases same : j = i
  · rw [same, Function.update_self, Memory.pointer, packets_setPacket]
  · rw [Function.update_of_ne same, Memory.pointer, packets_setPacket_of_ne same, Memory.pointer]

def Slot.view (slot : Slot) (heap : Heap (List UInt8)) : CPacket where
  payloadType := slot.payloadType
  sequenceNum := slot.sequenceNum
  timestampMs := slot.timestampMs
  payloadData := slot.payloadData.bind heap.cells
  payloadSize := slot.payloadSize

theorem view_eq (m : Memory) (i : Nat) : m.view i = (m.packets i).view m.heap := rfl

theorem view_setPacket {heap : Heap (List UInt8)} {i : Nat} (slot : Slot)
    (kept : ∀ j, j ≠ i → ∀ a, m.pointer j = some a → heap.cells a = m.heap.cells a) :
    ({ m with heap := heap }.setPacket i slot).view =
      Function.update m.view i (slot.view heap) := by
  funext j
  by_cases same : j = i
  · rw [same, Function.update_self, view_eq, packets_setPacket]
    rfl
  · rw [Function.update_of_ne same, view_eq, view_eq, packets_setPacket_of_ne same, Slot.view,
      Slot.view]
    congr 1
    cases pointer : (m.packets j).payloadData with
    | none => rfl
    | some a => exact kept j same a pointer

def filled (pkt : Packet) : CPacket where
  payloadType := pkt.header.type.code.toUInt32
  sequenceNum := pkt.header.sequenceNumber
  timestampMs := pkt.header.timestampMs
  payloadData := if pkt.payload = [] then none else some pkt.payload
  payloadSize := pkt.payload.length

theorem fill_spec (owned : Owned m.heap m.pointer) (i : Nat) (pkt : Packet) :
    Owned (m.fill i pkt).heap (m.fill i pkt).pointer ∧
      (m.fill i pkt).view = Function.update m.view i (filled pkt) ∧
      (NoLeak m.heap m.pointer →
        (NoLeak (m.fill i pkt).heap (m.fill i pkt).pointer ↔ m.pointer i = none)) := by
  unfold Memory.fill
  dsimp only
  split_ifs with nonempty
  · rw [pointer_setPacket]
    refine ⟨owned.alloc i pkt.payload, ?_, fun tight => noLeak_alloc_iff owned tight i _⟩
    rw [view_setPacket _ fun j _ a pointer => alloc_old (owned.live pointer) pkt.payload]
    congr 1
    simp only [Slot.view, filled, Option.bind_some, alloc_new, if_neg nonempty]
  · rw [pointer_setPacket]
    refine ⟨owned.forget i, ?_, fun tight => noLeak_forget_iff owned tight i⟩
    rw [show m = { m with heap := m.heap } from rfl, view_setPacket _ fun _ _ _ _ => rfl]
    congr 1
    simp only [Slot.view, filled, Option.bind_none, if_pos (not_not.mp nonempty)]

theorem decode_spec (m : Memory) (inBuf : Option (List UInt8)) (inLen i : Nat) :
    ((rapMobileDecodePacket sizeBits m inBuf inLen (some i)).1 = 0 ∧ ∃ pkt,
        (rapMobileDecodePacket sizeBits m inBuf inLen (some i)).2 = m.fill i pkt ∧
        MobileApi.rapMobileDecodePacket sizeBits inBuf inLen (some (m.view i)) =
          (0, some (filled pkt))) ∨
      ((rapMobileDecodePacket sizeBits m inBuf inLen (some i)).1 ≠ 0 ∧
        (rapMobileDecodePacket sizeBits m inBuf inLen (some i)).2 = m ∧
        (MobileApi.rapMobileDecodePacket sizeBits inBuf inLen (some (m.view i))).2 =
          some (m.view i)) := by
  obtain ⟨refused, rejected⟩ : (-1 : Int32) ≠ 0 ∧ (-2 : Int32) ≠ 0 := by decide
  cases inBuf with
  | none => exact .inr ⟨refused, rfl, rfl⟩
  | some bytes =>
    simp only [rapMobileDecodePacket, MobileApi.rapMobileDecodePacket]
    split_ifs with short
    · exact .inr ⟨refused, rfl, rfl⟩
    · cases decodeOn sizeBits (bytes.take inLen) with
      | error e => exact .inr ⟨rejected, rfl, rfl⟩
      | ok pkt => exact .inl ⟨rfl, pkt, rfl, rfl⟩

theorem free_spec (owned : Owned m.heap m.pointer) (i : Nat) :
    ∃ m', rapMobileFreePacket m (some i) = some m' ∧ Owned m'.heap m'.pointer ∧
      m'.view = Function.update m.view i { m.view i with payloadData := none } ∧
      (NoLeak m.heap m.pointer → NoLeak m'.heap m'.pointer) := by
  cases pointer : m.pointer i with
  | none =>
    have unseen : (m.view i).payloadData = none := by
      change (m.pointer i).bind m.heap.cells = none
      rw [pointer, Option.bind_none]
    refine ⟨m, by simp only [rapMobileFreePacket, pointer], owned, ?_, id⟩
    rw [eq_comm, Function.update_eq_self_iff, ← unseen]
  | some a =>
    obtain ⟨heap, freed, still, others⟩ := owned.free pointer
    refine ⟨_, by simp only [rapMobileFreePacket, pointer, freed, Option.map_some]; rfl, ?_, ?_,
      fun tight => ?_⟩
    · rw [pointer_setPacket]
      exact still
    · rw [view_setPacket _ others]
      rfl
    · rw [pointer_setPacket]
      exact tight.free pointer freed (owned.live pointer)

/-- The packet written has no payload, or the call fails. -/
def IntoEmpty (sizeBits : Nat) (m : Memory) : Call → Prop
  | .decode inBuf inLen (some i) =>
    (rapMobileDecodePacket sizeBits m inBuf inLen (some i)).1 = 0 → m.pointer i = none
  | .decode _ _ none | .free _ => True

theorem step_spec (owned : Owned m.heap m.pointer) (call : Call) :
    ∃ m', step sizeBits m call = some m' ∧ Owned m'.heap m'.pointer ∧
      m'.view = stepValues sizeBits m.view call ∧
      (NoLeak m.heap m.pointer → (NoLeak m'.heap m'.pointer ↔ IntoEmpty sizeBits m call)) := by
  have same : ∀ i, Function.update m.view i (m.view i) = m.view := fun i =>
    Function.update_eq_self i m.view
  cases call with
  | decode inBuf inLen outPacket =>
    cases outPacket with
    | none =>
      have untouched : (rapMobileDecodePacket sizeBits m inBuf inLen none).2 = m := by
        cases inBuf <;> rfl
      exact ⟨m, congrArg some untouched, owned, rfl, fun tight => iff_of_true tight trivial⟩
    | some i =>
      obtain ⟨succeeds, pkt, memory, value⟩ | ⟨fails, memory, value⟩ :=
        @decode_spec sizeBits m inBuf inLen i
      · obtain ⟨kept, seen, leaks⟩ := fill_spec owned i pkt
        refine ⟨m.fill i pkt, congrArg some memory, kept, ?_, fun tight => ?_⟩
        · rw [seen, stepValues, value]
        · rw [leaks tight, IntoEmpty]
          exact ⟨fun empty _ => empty, fun into => into succeeds⟩
      · refine ⟨m, congrArg some memory, owned, ?_, fun tight => ?_⟩
        · simp only [stepValues, value, same]
        · exact iff_of_true tight fun succeeds => absurd succeeds fails
  | free packet =>
    cases packet with
    | none => exact ⟨m, rfl, owned, rfl, fun tight => iff_of_true tight trivial⟩
    | some i =>
      obtain ⟨m', freed, kept, seen, tight⟩ := free_spec owned i
      exact ⟨m', freed, kept, seen, fun before => iff_of_true (tight before) trivial⟩

end Steps

/-! ### Whole runs -/

theorem owned_start : Owned start.heap start.pointer where
  live found := by cases found
  apart found := by cases found

theorem noLeak_start : NoLeak start.heap start.pointer := fun _ live => absurd rfl live

theorem run_spec (sizeBits : Nat) (calls : List Call) :
    ∃ m, run sizeBits calls = some m ∧ Owned m.heap m.pointer ∧
      m.view = values sizeBits calls := by
  induction calls using List.reverseRecOn with
  | nil => exact ⟨start, rfl, owned_start, rfl⟩
  | append_singleton calls call ih =>
    obtain ⟨m, ran, owned, seen⟩ := ih
    obtain ⟨m', stepped, kept, next, -⟩ := @step_spec sizeBits m owned call
    refine ⟨m', ?_, kept, ?_⟩
    · unfold run at *
      rw [Transitions.run_concat, ran, Option.bind_some, stepped]
    · rw [next, seen, values, values, List.foldl_append, List.foldl_cons, List.foldl_nil]

/-- Every sequence of calls on zeroed packets is defined: nothing is freed twice. A packet sees
what the functions give on values, whatever is done to the other packets, and no two share a
payload. No block is lost exactly as long as packets are decoded into packets without one. -/
theorem packets_own_their_payloads (sizeBits : Nat) (calls : List Call) :
    ∃ m, run sizeBits calls = some m ∧ m.view = values sizeBits calls ∧
      Owned m.heap m.pointer ∧
      ((∀ before after s, calls = before ++ after → run sizeBits before = some s →
          NoLeak s.heap s.pointer) ↔
        Transitions.Throughout (step sizeBits) (IntoEmpty sizeBits) start calls) := by
  obtain ⟨m, ran, owned, seen⟩ := run_spec sizeBits calls
  refine ⟨m, ran, seen, owned, Transitions.always_iff_throughout
    (fun s : Memory => Owned s.heap s.pointer) (fun s => NoLeak s.heap s.pointer) owned_start
    noLeak_start ?_ ?_ ran⟩
  · intro s t call stepped before
    obtain ⟨t', next, kept, -⟩ := @step_spec sizeBits s before call
    exact Option.some.inj (next.symm.trans stepped) ▸ kept
  · intro s t call stepped before tight
    obtain ⟨t', next, -, -, leaks⟩ := @step_spec sizeBits s before call
    exact Option.some.inj (next.symm.trans stepped) ▸ leaks tight

end RemoteAccess.MobilePackets
