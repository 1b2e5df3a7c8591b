import RemoteAccess.AuditTampering

/-! What the digest of an audit record covers. The eight texts are hashed one after the other
without their lengths, so the bytes fix the sequence number and the joined text but not where
one text ends and the next begins. -/

namespace RemoteAccess.AuditDigest

open AuditLog AuditTampering AuditCallers

structure Hashed where
  sequenceNumber : UInt64
  eventId : String
  timestamp : String
  eventType : String
  actor : String
  resource : String
  status : String
  details : String
  prevHash : String
deriving DecidableEq

namespace Hashed

def texts (t : Hashed) : List String :=
  [t.eventId, t.timestamp, t.eventType, t.actor, t.resource, t.status, t.details, t.prevHash]

/-- The bytes that SHA-256 is fed. -/
def bytes (t : Hashed) : List UInt8 :=
  (LittleEndian.toBytes 8 t.sequenceNumber.toNat).reverse ++ asBytes t.eventId ++
    asBytes t.timestamp ++ asBytes t.eventType ++ asBytes t.actor ++ asBytes t.resource ++
    asBytes t.status ++ asBytes t.details ++ asBytes t.prevHash

def joined (t : Hashed) : List Char := (t.texts.map String.toList).flatten

def lengths (t : Hashed) : List Nat := t.texts.map String.length

end Hashed

theorem computeHash_eq (sha256 : List UInt8 → List UInt8) (t : Hashed) :
    computeHash sha256 t.sequenceNumber t.eventId t.timestamp t.eventType t.actor t.resource
      t.status t.details t.prevHash = hexEncode (sha256 t.bytes) := rfl

def hashedOf (e : AuditEvent) : Hashed where
  sequenceNumber := e.sequenceNumber
  eventId := e.eventId
  timestamp := e.timestamp
  eventType := e.eventType
  actor := e.actor
  resource := e.resource
  status := e.status
  details := e.details
  prevHash := e.prevHash

theorem computed_eq (sha256 : List UInt8 → List UInt8) (e : AuditEvent) :
    e.computed sha256 = hexEncode (sha256 (hashedOf e).bytes) := rfl

/-! ### What the bytes determine -/

theorem asBytes_append (s t : String) : asBytes (s ++ t) = asBytes s ++ asBytes t := by
  simp [asBytes]

theorem asBytes_injective : Function.Injective asBytes := by
  intro s t same
  have data : s.toUTF8.data = t.toUTF8.data := Array.toList_inj.mp same
  exact String.toByteArray_inj.mp (ByteArray.ext data)

theorem bytes_eq (t : Hashed) :
    t.bytes = (LittleEndian.toBytes 8 t.sequenceNumber.toNat).reverse ++
      asBytes (String.ofList t.joined) := by
  have joined : String.ofList t.joined = t.eventId ++ t.timestamp ++ t.eventType ++ t.actor ++
      t.resource ++ t.status ++ t.details ++ t.prevHash := by
    apply String.toList_injective
    simp [Hashed.joined, Hashed.texts]
  rw [joined]
  simp only [asBytes_append, Hashed.bytes, List.append_assoc]

theorem bytes_eq_iff (t t' : Hashed) :
    t.bytes = t'.bytes ↔ t.sequenceNumber = t'.sequenceNumber ∧ t.joined = t'.joined := by
  constructor
  · intro same
    rw [bytes_eq, bytes_eq] at same
    obtain ⟨numbers, texts⟩ := List.append_inj same (by simp)
    have number := LittleEndian.toBytes_injective t.sequenceNumber.toNat_lt
      t'.sequenceNumber.toNat_lt (List.reverse_injective numbers)
    exact ⟨UInt64.toNat_inj.mp number, String.ofList_injective (asBytes_injective texts)⟩
  · rintro ⟨number, joined⟩
    rw [bytes_eq, bytes_eq, number, joined]

theorem eq_iff (t t' : Hashed) :
    t = t' ↔ t.sequenceNumber = t'.sequenceNumber ∧ t.joined = t'.joined ∧
      t.lengths = t'.lengths := by
  have same_texts : t.texts = t'.texts ↔ t.joined = t'.joined ∧ t.lengths = t'.lengths := by
    have cut (t : Hashed) : (t.texts.map String.toList).map List.length = t.lengths := by
      rw [Hashed.lengths, List.map_map]
      exact List.map_congr_left fun _ _ => String.length_toList
    have separate : Function.Injective String.toList := fun _ _ => String.toList_injective
    rw [Hashed.joined, Hashed.joined, ← cut t, ← cut t', ← List.eq_iff_flatten_eq,
      (List.map_injective_iff.mpr separate).eq_iff]
  rw [← same_texts]
  cases t
  cases t'
  simp [Hashed.texts]

/-- Two tuples that differ are told apart by the bytes hashed exactly when their sequence
numbers or their joined texts differ, or the texts are cut at the same places. -/
theorem bytes_tell_apart_iff (t t' : Hashed) :
    (t ≠ t' → t.bytes ≠ t'.bytes) ↔
      t.sequenceNumber ≠ t'.sequenceNumber ∨ t.joined ≠ t'.joined ∨ t.lengths = t'.lengths := by
  rw [ne_eq, ne_eq, eq_iff, bytes_eq_iff]
  tauto

/-- A login by `ab` and one of the type that ends in `a`, by `b`. -/
theorem bytes_confused :
    ¬ ∀ t t' : Hashed, t ≠ t' → t.bytes ≠ t'.bytes := by
  intro claimed
  refine claimed ⟨0, "id", "now", "LOGIN", "ab", "host", "OK", "", genesisPrevHash⟩
    ⟨0, "id", "now", "LOGINa", "b", "host", "OK", "", genesisPrevHash⟩ (by decide) ?_
  exact (bytes_eq_iff _ _).mpr ⟨rfl, by decide⟩

theorem unmistakable_iff (t : Hashed) :
    (∀ t', t' ≠ t → t'.bytes ≠ t.bytes) ↔ t.joined = [] := by
  constructor
  · intro unmistakable
    let front : Hashed := ⟨t.sequenceNumber, String.ofList t.joined, "", "", "", "", "", "", ""⟩
    let back : Hashed := ⟨t.sequenceNumber, "", "", "", "", "", "", "", String.ofList t.joined⟩
    have same_front : front.bytes = t.bytes :=
      (bytes_eq_iff _ _).mpr ⟨rfl, by simp [front, Hashed.joined, Hashed.texts]⟩
    have same_back : back.bytes = t.bytes :=
      (bytes_eq_iff _ _).mpr ⟨rfl, by simp [back, Hashed.joined, Hashed.texts]⟩
    have at_front : front = t := by
      by_contra other
      exact unmistakable front other same_front
    have at_back : back = t := by
      by_contra other
      exact unmistakable back other same_back
    have ends : front.eventId = back.eventId :=
      congrArg Hashed.eventId (at_front.trans at_back.symm)
    simpa [front, back] using congrArg String.toList ends
  · intro empty t' other same
    obtain ⟨number, joined⟩ := (bytes_eq_iff t' t).mp same
    refine other ((eq_iff t' t).mpr ⟨number, joined, ?_⟩)
    have all_empty (t : Hashed) (empty : t.joined = []) : t.lengths = List.replicate 8 0 := by
      simpa [Hashed.joined, Hashed.texts, Hashed.lengths] using empty
    rw [all_empty t' (joined.trans empty), all_empty t empty]

/-! ### Altered records -/

variable {sha256 : List UInt8 → List UInt8}

/-- The verifier stops at a record whose fields no longer give its hash. -/
theorem firstTampered_altered {chain : List AuditEvent} (ok : Chained sha256 chain) {i : Nat}
    {e altered : AuditEvent} (here : chain[i]? = some e) (kept : altered.hash = e.hash)
    (noCollision : sha256 (hashedOf altered).bytes ≠ sha256 (hashedOf e).bytes) :
    firstTampered sha256 genesisPrevHash (chain.set i altered) = some altered := by
  obtain ⟨inside, rfl⟩ := List.getElem?_eq_some_iff.mp here
  have before_linked : History.EachAfter (Linked sha256) ([] ++ chain.take i) := by
    have linked := ok.linked
    rw [← List.take_append_drop i chain] at linked
    exact linked.left
  have unequal : altered.computed sha256 ≠ altered.hash := by
    rw [kept, (ok.get here).hash, computed_eq, computed_eq]
    exact fun same => noCollision (hexEncode_injective same)
  rw [List.set_eq_take_append_cons_drop, if_pos inside, ← headHash_nil,
    firstTampered_along [] before_linked, firstTampered, if_pos unequal, ite_self]

/-- An altered record is found, and it is the one that is named. -/
theorem altered_record_named (calls : List (Fields × Draw)) (chain : List AuditEvent)
    (built : logAll sha256 calls = some chain) (i : Nat) (e altered : AuditEvent)
    (here : chain[i]? = some e) (kept : altered.hash = e.hash)
    (noCollision : sha256 (hashedOf altered).bytes ≠ sha256 (hashedOf e).bytes) :
    (verifyIntegrity sha256 (chain.set i altered)).isValid = false ∧
    (verifyIntegrity sha256 (chain.set i altered)).totalEvents = chain.length ∧
    (verifyIntegrity sha256 (chain.set i altered)).tamperedEventId = some altered.eventId := by
  have found := firstTampered_altered (logAll_chained built) here kept noCollision
  have size : (chain.set i altered).length = chain.length := List.length_set
  cases records : chain.set i altered with
  | nil => rw [records] at found; cases found
  | cons first rest =>
    rw [records] at found size
    simp only [verifyIntegrity, found, size, true_and]

def logoutFields : Fields := ⟨"AUTH_LOGOUT", "admin", "192.168.1.100", "SUCCESS", "User logout"⟩

def logoutDraw : Draw := ⟨"16fd2706-8baf-433b-82eb-8c7fada847da", "2026-01-01T00:00:01+00:00"⟩

def logoutDigest : List UInt8 :=
  [0x9d, 0x6e, 0x0a, 0x43, 0xe4, 0x6b, 0x24, 0x3b, 0x13, 0xc7, 0x59, 0xc6, 0x6f, 0x47, 0x7c, 0x18,
   0xb5, 0x2b, 0x72, 0x66, 0x93, 0xae, 0xd5, 0x82, 0x1f, 0xcd, 0xf2, 0x26, 0x8c, 0x15, 0xf3, 0x6d]

def attackerDigest : List UInt8 :=
  [0x6f, 0xe0, 0x3b, 0xd8, 0x23, 0x48, 0xb8, 0x08, 0x50, 0x03, 0x7e, 0x32, 0x97, 0x6a, 0x51, 0x13,
   0xc9, 0x66, 0x70, 0x7e, 0xb4, 0xc5, 0x7f, 0x3a, 0xd5, 0xa3, 0x06, 0x22, 0x24, 0xab, 0x4a, 0x12]

def threeDigests (bytes : List UInt8) : List UInt8 :=
  if bytes.length = 178 then loginDigest
  else if bytes.length = 180 then logoutDigest
  else attackerDigest

theorem altered_record_named_attacker :
    ∃ e f, logAll threeDigests [(loginFields, loginDraw), (logoutFields, logoutDraw)] =
        some [e, f] ∧
      (verifyIntegrity threeDigests [e, { f with actor := "attacker" }]).isValid = false ∧
      (verifyIntegrity threeDigests [e, { f with actor := "attacker" }]).totalEvents = 2 ∧
      (verifyIntegrity threeDigests [e, { f with actor := "attacker" }]).tamperedEventId =
        some f.eventId := by
  obtain ⟨e, f, built, fields⟩ : ∃ e f,
      logAll threeDigests [(loginFields, loginDraw), (logoutFields, logoutDraw)] = some [e, f] ∧
      hashedOf f = ⟨1, logoutDraw.eventId, logoutDraw.timestamp, "AUTH_LOGOUT", "admin",
        "192.168.1.100", "SUCCESS", "User logout", hexEncode loginDigest⟩ := by
    refine ⟨_, _, rfl, ?_⟩
    decide +kernel
  have noCollision : threeDigests (hashedOf { f with actor := "attacker" }).bytes ≠
      threeDigests (hashedOf f).bytes := by
    have altered : hashedOf { f with actor := "attacker" } =
        { hashedOf f with actor := "attacker" } := rfl
    rw [altered, fields]
    decide +kernel
  exact ⟨e, f, built, altered_record_named _ [e, f] built 1 f _ rfl rfl noCollision⟩

end RemoteAccess.AuditDigest
