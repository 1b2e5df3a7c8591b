import Mathlib.Data.List.Nodup
import RemoteAccess.Basics.History
import RemoteAccess.Basics.Interleaving
import RemoteAccess.Basics.LittleEndian

/-! The audit log: a vector of events under one lock, each with the hash of the
event before it. The lock is held for the whole of every call, so a call is one
atomic step; callers wait for it in any number and any order. The digest is a
parameter, and so is what a call draws from outside (a UUID and the time). -/

namespace RemoteAccess.AuditLog

open History LittleEndian

def genesisPrevHash : String :=
  "0000000000000000000000000000000000000000000000000000000000000000"

structure AuditEvent where
  sequenceNumber : UInt64
  eventId : String
  timestamp : String
  eventType : String
  actor : String
  resource : String
  status : String
  details : String
  prevHash : String
  hash : String
deriving DecidableEq

def asBytes (s : String) : List UInt8 := s.toUTF8.data.toList

def hexDigit (n : Nat) : Char :=
  if n < 10 then Char.ofNat (48 + n) else Char.ofNat (87 + n)

/-- `format!("{:02x}", b)` of every byte. -/
def hexEncode (bytes : List UInt8) : String :=
  String.ofList (bytes.flatMap fun b => [hexDigit (b.toNat / 16), hexDigit (b.toNat % 16)])

theorem hexDigit_inj : ∀ m n : Fin 16, hexDigit m = hexDigit n → m = n := by decide

theorem hexEncode_injective : Function.Injective hexEncode := by
  intro bytes other same
  unfold hexEncode at same
  replace same := String.ofList_injective same
  induction bytes generalizing other with
  | nil =>
    cases other with
    | nil => rfl
    | cons b other => simp at same
  | cons b bytes ih =>
    cases other with
    | nil => simp at same
    | cons c other =>
      simp only [List.flatMap_cons, List.cons_append, List.nil_append, List.cons.injEq] at same
      obtain ⟨high, low, rest⟩ := same
      have bound : ∀ b : UInt8, b.toNat / 16 < 16 ∧ b.toNat % 16 < 16 := by
        intro b
        have := b.toNat_lt
        omega
      have highs := congrArg Fin.val
        (hexDigit_inj ⟨_, (bound b).1⟩ ⟨_, (bound c).1⟩ high)
      have lows := congrArg Fin.val (hexDigit_inj ⟨_, (bound b).2⟩ ⟨_, (bound c).2⟩ low)
      simp only at highs lows
      rw [UInt8.toNat_inj.mp (show b.toNat = c.toNat by omega), ih rest]

variable (sha256 : List UInt8 → List UInt8)

def computeHash (sequenceNumber : UInt64)
    (eventId timestamp eventType actor resource status details prevHash : String) : String :=
  hexEncode (sha256 ((toBytes 8 sequenceNumber.toNat).reverse ++ asBytes eventId ++
    asBytes timestamp ++ asBytes eventType ++ asBytes actor ++ asBytes resource ++
    asBytes status ++ asBytes details ++ asBytes prevHash))

/-- What an event's own fields hash to. -/
def AuditEvent.computed (e : AuditEvent) : String :=
  computeHash sha256 e.sequenceNumber e.eventId e.timestamp e.eventType e.actor e.resource
    e.status e.details e.prevHash

structure Fields where
  eventType : String
  actor : String
  resource : String
  status : String
  details : String

/-- `Uuid::new_v4()` and `Utc::now()` as text. -/
structure Draw where
  eventId : String
  timestamp : String

/-- A vector holds at most `isize::MAX` bytes, and an event takes 224. -/
def maxEvents : Nat := (2 ^ 63 - 1) / 224

/-- The event returned and the chain after it; `none` is `push` panicking on a
vector that cannot grow. -/
def logEvent (chain : List AuditEvent) (f : Fields) (draw : Draw) :
    Option (AuditEvent × List AuditEvent) :=
  let sequenceNumber := UInt64.ofNat chain.length
  let prevHash :=
    match chain.getLast? with
    | some lastEvent => lastEvent.hash
    | none => genesisPrevHash
  let hash := computeHash sha256 sequenceNumber draw.eventId draw.timestamp f.eventType f.actor
    f.resource f.status f.details prevHash
  let event : AuditEvent :=
    { sequenceNumber := sequenceNumber
      eventId := draw.eventId
      timestamp := draw.timestamp
      eventType := f.eventType
      actor := f.actor
      resource := f.resource
      status := f.status
      details := f.details
      prevHash := prevHash
      hash := hash }
  if chain.length < maxEvents then some (event, chain ++ [event]) else none

def queryLogs (chain : List AuditEvent) (eventTypeFilter actorFilter : Option String)
    (limit : Nat) : List AuditEvent :=
  let wanted (filter : Option String) (value : String) : Bool :=
    match filter with
    | some text => text.isEmpty || value == text
    | none => true
  (chain.filter fun e => wanted eventTypeFilter e.eventType && wanted actorFilter e.actor).take
    (if limit = 0 then 2 ^ 64 - 1 else limit)

structure AuditLogIntegrityReport where
  isValid : Bool
  totalEvents : Nat
  genesisHash : String
  headHash : String
  tamperedEventId : Option String
deriving DecidableEq

/-- The `for` loop of `verify_integrity`: the event it returns at. -/
def firstTampered (expectedPrevHash : String) : List AuditEvent → Option AuditEvent
  | [] => none
  | event :: rest =>
    if event.prevHash ≠ expectedPrevHash then some event
    else if event.computed sha256 ≠ event.hash then some event
    else firstTampered event.hash rest

def verifyIntegrity (chain : List AuditEvent) : AuditLogIntegrityReport :=
  match chain with
  | [] =>
    { isValid := true
      totalEvents := 0
      genesisHash := genesisPrevHash
      headHash := genesisPrevHash
      tamperedEventId := none }
  | first :: _ =>
    let headHash := (chain.getLast?.map AuditEvent.hash).getD ""
    match firstTampered sha256 genesisPrevHash chain with
    | some event =>
      { isValid := false
        totalEvents := chain.length
        genesisHash := first.hash
        headHash := headHash
        tamperedEventId := some event.eventId }
    | none =>
      { isValid := true
        totalEvents := chain.length
        genesisHash := first.hash
        headHash := headHash
        tamperedEventId := none }

/-! ### Chains -/

def headHash (chain : List AuditEvent) : String :=
  (chain.getLast?.map AuditEvent.hash).getD genesisPrevHash

@[simp] theorem headHash_nil : headHash [] = genesisPrevHash := rfl

@[simp] theorem headHash_concat (chain : List AuditEvent) (e : AuditEvent) :
    headHash (chain ++ [e]) = e.hash := by
  simp [headHash]

structure Linked (before : List AuditEvent) (e : AuditEvent) : Prop where
  sequenceNumber : e.sequenceNumber = UInt64.ofNat before.length
  prevHash : e.prevHash = headHash before
  hash : e.hash = e.computed sha256

structure Chained (chain : List AuditEvent) : Prop where
  linked : EachAfter (Linked sha256) chain
  length_le : chain.length ≤ maxEvents

theorem chained_nil : Chained sha256 [] where
  linked := eachAfter_nil _
  length_le := Nat.zero_le _

variable {sha256}

theorem logEvent_cases {chain chain' : List AuditEvent} {f : Fields} {draw : Draw}
    {event : AuditEvent} (logged : logEvent sha256 chain f draw = some (event, chain')) :
    chain' = chain ++ [event] ∧ Linked sha256 chain event ∧ chain.length < maxEvents ∧
      event.eventType = f.eventType ∧ event.actor = f.actor ∧ event.resource = f.resource ∧
      event.status = f.status ∧ event.details = f.details := by
  unfold logEvent at logged
  dsimp only at logged
  split_ifs at logged with room
  obtain ⟨rfl, rfl⟩ := Prod.mk.inj (Option.some.inj logged)
  refine ⟨rfl, ⟨rfl, ?_, rfl⟩, room, rfl, rfl, rfl, rfl, rfl⟩
  unfold headHash
  cases chain.getLast? <;> rfl

theorem Chained.concat {chain : List AuditEvent} {e : AuditEvent} (ok : Chained sha256 chain)
    (link : Linked sha256 chain e) (room : chain.length < maxEvents) :
    Chained sha256 (chain ++ [e]) where
  linked := by
    apply ok.linked.append
    intro before other since split
    obtain ⟨rfl, rfl, -⟩ : before = [] ∧ other = e ∧ since = [] := by
      cases before <;> simp_all
    rwa [List.append_nil]
  length_le := by
    rw [List.length_append, List.length_singleton]
    exact room

theorem Chained.get {chain : List AuditEvent} (ok : Chained sha256 chain) {i : Nat}
    {e : AuditEvent} (here : chain[i]? = some e) : Linked sha256 (chain.take i) e := by
  obtain ⟨inside, rfl⟩ := List.getElem?_eq_some_iff.mp here
  exact ok.linked _ _ (chain.drop (i + 1)) (by
    rw [← List.drop_eq_getElem_cons inside, List.take_append_drop])

theorem Chained.sequenceNumber {chain : List AuditEvent} (ok : Chained sha256 chain) {i : Nat}
    {e : AuditEvent} (here : chain[i]? = some e) : e.sequenceNumber.toNat = i := by
  obtain ⟨inside, -⟩ := List.getElem?_eq_some_iff.mp here
  have bound : chain.length ≤ maxEvents := ok.length_le
  rw [(ok.get here).sequenceNumber, List.length_take, min_eq_left (Nat.le_of_lt inside)]
  exact UInt64.toNat_ofNat_of_lt' (Nat.lt_of_lt_of_le inside
    (Nat.le_trans bound (by norm_num [maxEvents])))

theorem Chained.nodup {chain : List AuditEvent} (ok : Chained sha256 chain) : chain.Nodup := by
  rw [List.nodup_iff_injective_get]
  intro i j same
  have at_i := ok.sequenceNumber (List.getElem?_eq_getElem i.isLt)
  have at_j := ok.sequenceNumber (List.getElem?_eq_getElem j.isLt)
  simp only [List.get_eq_getElem] at same
  rw [same] at at_i
  exact Fin.ext (at_i.symm.trans at_j)

theorem firstTampered_along (before : List AuditEvent) {more : List AuditEvent}
    (linked : EachAfter (Linked sha256) (before ++ more)) (rest : List AuditEvent) :
    firstTampered sha256 (headHash before) (more ++ rest) =
      firstTampered sha256 (headHash (before ++ more)) rest := by
  induction more generalizing before with
  | nil => rw [List.append_nil, List.nil_append]
  | cons e more ih =>
    have link := linked before e more rfl
    have later := ih (before ++ [e]) (by rwa [List.append_assoc])
    rw [headHash_concat, List.append_assoc] at later
    rw [List.cons_append, firstTampered, if_neg (not_not.mpr link.prevHash),
      if_neg (not_not.mpr link.hash.symm)]
    exact later

theorem firstTampered_eq_none (before : List AuditEvent) {rest : List AuditEvent}
    (linked : EachAfter (Linked sha256) (before ++ rest)) :
    firstTampered sha256 (headHash before) rest = none := by
  have along := firstTampered_along before linked []
  rwa [List.append_nil, firstTampered] at along

theorem verifyIntegrity_chained {chain : List AuditEvent} (ok : Chained sha256 chain) :
    (verifyIntegrity sha256 chain).isValid = true ∧
      (verifyIntegrity sha256 chain).totalEvents = chain.length ∧
      (verifyIntegrity sha256 chain).headHash = headHash chain ∧
      (verifyIntegrity sha256 chain).tamperedEventId = none := by
  have accepted := firstTampered_eq_none [] ok.linked
  rw [headHash_nil] at accepted
  cases chain with
  | nil => exact ⟨rfl, rfl, rfl, rfl⟩
  | cons first rest =>
    simp only [verifyIntegrity, accepted]
    refine ⟨trivial, trivial, ?_, trivial⟩
    rw [headHash, List.getLast?_cons]
    rfl

end RemoteAccess.AuditLog
