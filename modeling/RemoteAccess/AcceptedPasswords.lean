import RemoteAccess.AgentPacketHandler
import RemoteAccess.Basics.Trimming
import RemoteAccess.QtUtf8

/-! Which plaintexts of an `AuthRequest` open the host: the bytes of the texts that come down
to a password once white space around them and spaces in them are gone. -/

namespace RemoteAccess.AcceptedPasswords

open QtText QtUtf8 AgentPacketHandler ProtocolCodec

/-- White space, then the secret with spaces anywhere in it, then white space. -/
def Spells (secret text : QString) : Prop :=
  ∃ before core after, text = before ++ core ++ after ∧ (∀ u ∈ before, isSpace u = true) ∧
    (∀ u ∈ after, isSpace u = true) ∧ removeSpaces core = secret

/-- The UTF-8 bytes of a text, with or without a byte order mark. -/
def Encodes (bytes : List UInt8) (text : QString) : Prop :=
  bytes = toUtf8 text ∨ bytes = [0xEF, 0xBB, 0xBF] ++ toUtf8 text

/-- A code unit that is neither removed nor mistaken for another one. -/
def isClear (u : UInt16) : Bool := !isSpace u && isOwn u && u != 0xFFFD && u != 0xFEFF

theorem isSpace_own {u : UInt16} (space : isSpace u = true) :
    isOwn u = true ∧ u ≠ 0xFFFD ∧ u ≠ 0xFEFF := by
  have bound : u.toNat ≤ 0x3000 ∧ u.toNat ≠ 0x3F := by
    simp only [isSpace, Bool.or_eq_true, Bool.and_eq_true, beq_iff_eq, decide_eq_true_eq,
      UInt16.le_iff_toNat_le, ← UInt16.toNat_inj, UInt16.reduceToNat] at space
    omega
  have single : isHighSurrogate u = false ∧ isLowSurrogate u = false := by
    rw [← Bool.not_eq_true, ← Bool.not_eq_true, isHighSurrogate_iff, isLowSurrogate_iff]
    omega
  refine ⟨?_, ?_, ?_⟩
  · rw [isOwn, single.1, single.2, Bool.or_self, Bool.not_false, Bool.true_and, bne_iff_ne]
    rintro rfl
    exact bound.2 rfl
  · rintro rfl
    exact absurd bound.1 (by decide)
  · rintro rfl
    exact absurd bound.1 (by decide)

theorem Spells.own {secret text : QString} (clear : ∀ u ∈ secret, isClear u = true)
    (spells : Spells secret text) :
    ∀ u ∈ text, isOwn u = true ∧ u ≠ 0xFFFD ∧ u ≠ 0xFEFF := by
  obtain ⟨before, core, after, rfl, front, back, rfl⟩ := spells
  intro u found
  rw [List.mem_append, List.mem_append] at found
  obtain (found | found) | found := found
  · exact isSpace_own (front u found)
  · by_cases blank : u = 0x20
    · exact blank ▸ isSpace_own rfl
    · have kept := clear u (List.mem_filter.mpr ⟨found, by simpa using blank⟩)
      simp only [isClear, Bool.and_eq_true, bne_iff_ne] at kept
      exact ⟨kept.1.1.2, kept.1.2, kept.2⟩
  · exact isSpace_own (back u found)

theorem spells_iff {secret text : QString} (clear : ∀ u ∈ secret, isClear u = true) :
    removeSpaces (trimmed text) = secret ↔ Spells secret text := by
  have dark : ∀ u ∈ secret, ¬ isSpace u = true := by
    intro u found space
    have kept := clear u found
    simp [isClear, space] at kept
  have remove (text : QString) : removeSpaces text = text.filter fun u => !(u == 0x20) := by
    rw [removeSpaces]
    exact List.filter_congr fun u _ => by rw [decide_not, beq_eq_decide]
  simp only [Spells, remove]
  exact Trimming.filter_trim_eq_iff dark

theorem fromUtf8_eq_iff {bytes : List UInt8} {text : QString} (fits : bytes.length < 2 ^ 31)
    (own : ∀ u ∈ text, isOwn u = true ∧ u ≠ 0xFFFD ∧ u ≠ 0xFEFF) :
    fromUtf8 bytes (intOfSize bytes.length) = text ↔ Encodes bytes text := by
  have whole : ¬ (bytes.length : Int) < 0 := by omega
  have back : convertToUnicode 0 (toUtf8 text) = text := by
    have read := convertToUnicode_append (fun u found => (own u found).1) []
    rwa [List.append_nil, convertToUnicode, List.append_nil] at read
  have unmarked : [0xEF, 0xBB, 0xBF].isPrefixOf (toUtf8 text) ≠ true := by
    rw [ne_eq, isPrefixOf_toUtf8]
    intro marked
    exact (own 0xFEFF (List.mem_of_mem_head? marked)).2.2 rfl
  simp only [fromUtf8, intOfSize_eq fits, if_neg whole, Int.toNat_natCast, List.take_length]
  constructor
  · intro read
    split_ifs at read with marked
    · obtain ⟨rest, rfl⟩ := List.isPrefixOf_iff_prefix.mp marked
      change convertToUnicode 0 rest = text at read
      have written := @toUtf8_convertToUnicode rest
        (by rw [read]; exact fun found => (own _ found).2.1 rfl)
      exact .inr (by rw [← written, read])
    · have written := @toUtf8_convertToUnicode bytes
        (by rw [read]; exact fun found => (own _ found).2.1 rfl)
      exact .inl (by rw [← written, read])
  · rintro (rfl | rfl)
    · rw [if_neg unmarked, back]
    · rw [if_pos (List.isPrefixOf_iff_prefix.mpr (List.prefix_append _ _))]
      exact back

/-- The password read off a plaintext is the secret exactly for the bytes of its spellings. -/
theorem password_eq_iff {bytes : List UInt8} {secret : QString} (fits : bytes.length < 2 ^ 31)
    (clear : ∀ u ∈ secret, isClear u = true) :
    removeSpaces (trimmed (fromUtf8 bytes (intOfSize bytes.length))) = secret ↔
      ∃ text, Spells secret text ∧ Encodes bytes text := by
  rw [spells_iff clear]
  constructor
  · intro spells
    exact ⟨_, spells, (fromUtf8_eq_iff fits (spells.own clear)).mp rfl⟩
  · rintro ⟨text, spells, encodes⟩
    rwa [(fromUtf8_eq_iff fits (spells.own clear)).mpr encodes]

/-! ### The handler -/

/-- `QString::number` of a number of six digits. -/
structure SixDigits (otp : QString) : Prop where
  length : otp.length = 6
  digits : ∀ u ∈ otp, 0x30 ≤ u.toNat ∧ u.toNat ≤ 0x39

theorem isClear_of_digit {u : UInt16} (digit : 0x30 ≤ u.toNat ∧ u.toNat ≤ 0x39) :
    isClear u = true := by
  have all : ∀ k ≤ 0x39, 0x30 ≤ k → isClear (UInt16.ofNat k) = true := by decide
  have here := all u.toNat digit.2 digit.1
  rwa [UInt16.ofNat_toNat] at here

theorem masterPassword_clear : ∀ u ∈ masterPassword, isClear u = true :=
  List.all_eq_true.mp (by decide)

theorem SixDigits.removeSpaces {otp : QString} (six : SixDigits otp) :
    QtText.removeSpaces otp = otp := by
  refine List.filter_eq_self.mpr fun u found => ?_
  have digit := six.digits u found
  rw [decide_eq_true_iff]
  rintro rfl
  exact absurd digit.1 (by decide)

theorem passwordAccepted_iff {otp : QString} (six : SixDigits otp) {plaintext : List UInt8}
    (fits : plaintext.length < 2 ^ 31) :
    passwordAccepted otp plaintext = true ↔
      ∃ secret ∈ [otp, masterPassword, []], ∃ text, Spells secret text ∧
        Encodes plaintext text := by
  have otp_clear : ∀ u ∈ otp, isClear u = true :=
    fun u found => isClear_of_digit (six.digits u found)
  have none_clear : ∀ u ∈ ([] : QString), isClear u = true := by simp
  simp only [passwordAccepted, six.removeSpaces, Bool.or_eq_true, beq_iff_eq, List.isEmpty_iff,
    password_eq_iff fits otp_clear, password_eq_iff fits masterPassword_clear,
    password_eq_iff fits none_clear, List.mem_cons, List.not_mem_nil, or_false, exists_eq_or_imp,
    exists_eq_left, or_assoc]

variable (oversized : Nat → UInt64)

theorem payload_of_opened {oversized : Nat → UInt64} {packet : Packet} {plaintext : List UInt8}
    (opened : openPacket oversized packet = some plaintext) : packet.payload ≠ [] := by
  intro empty
  rw [openPacket, empty] at opened
  cases opened

/-- The host is opened by exactly the spellings of the one-time password, of the master
password and of nothing. -/
theorem opened_by_spellings (host : Host) (socket : ClientSocket) (packet : Packet)
    (plaintext : List UInt8) (six : SixDigits host.dynamicOtp)
    (request : packet.header.type = .authRequest)
    (opened : openPacket oversized packet = some plaintext) (filled : plaintext ≠ [])
    (fits : plaintext.length < 2 ^ 31) :
    (handleClientPacket oversized host socket packet).1.authenticated = true ↔
      ∃ secret ∈ [host.dynamicOtp, masterPassword, []], ∃ text, Spells secret text ∧
        Encodes plaintext text := by
  have nonempty : ¬ plaintext.isEmpty = true := by simpa using filled
  rw [← passwordAccepted_iff six fits, handleClientPacket,
    if_pos ⟨request, payload_of_opened opened⟩, handleAuthRequest, opened]
  simp only [nonempty, Bool.false_eq_true, if_false]

def spelledHost : Host := ⟨true, true, literal ['1', '2', '3', '4', '5', '6']⟩

theorem spelledHost_six : SixDigits spelledHost.dynamicOtp where
  length := rfl
  digits u found := by
    simp only [spelledHost, literal, List.map_cons, List.map_nil, List.mem_cons, List.not_mem_nil,
      or_false] at found
    rcases found with rfl | rfl | rfl | rfl | rfl | rfl <;> decide

def requestOf (bytes : List UInt8) : SealedMessage.Plain := ⟨.authRequest, 1, 0, bytes⟩

theorem openPacket_requestOf {bytes : List UInt8} (fits : bytes.length < 2 ^ 31) :
    openPacket (fun _ => 1) ((requestOf bytes).message fun _ => 1).packet = some bytes :=
  openPacket_message _ (m := requestOf bytes) (by
    change bytes.length + 16 < 2 ^ 32
    omega)

/-- ` 123 456` and a line break. -/
theorem opened_by_spellings_grouped :
    (handleClientPacket (fun _ => 1) spelledHost ⟨false, false⟩
      ((requestOf [0x20, 0x31, 0x32, 0x33, 0x20, 0x34, 0x35, 0x36, 0x0A]).message
        fun _ => 1).packet).1.authenticated = true := by
  refine (opened_by_spellings (fun _ => 1) spelledHost ⟨false, false⟩ _ _ spelledHost_six rfl
    (openPacket_requestOf (by decide)) (by decide) (by decide)).mpr
    ⟨spelledHost.dynamicOtp, by simp, [0x20, 0x31, 0x32, 0x33, 0x20, 0x34, 0x35, 0x36, 0x0A], ?_,
      .inl (by decide)⟩
  exact ⟨[0x20], [0x31, 0x32, 0x33, 0x20, 0x34, 0x35, 0x36], [0x0A], rfl,
    List.all_eq_true.mp (by decide), List.all_eq_true.mp (by decide), by decide⟩

/-- One space is no spelling of a password, and is let in. -/
theorem opened_by_a_space :
    ¬ ∀ (host : Host) (socket : ClientSocket) (packet : Packet) (plaintext : List UInt8),
      SixDigits host.dynamicOtp → packet.header.type = .authRequest →
      openPacket (fun _ => 1) packet = some plaintext → plaintext ≠ [] →
      ((handleClientPacket (fun _ => 1) host socket packet).1.authenticated = true ↔
        ∃ secret ∈ [host.dynamicOtp, masterPassword], ∃ text, Spells secret text ∧
          Encodes plaintext text) := by
  intro claimed
  have opened := @openPacket_requestOf [0x20] (by decide)
  have authenticated : (handleClientPacket (fun _ => 1) spelledHost ⟨false, false⟩
      ((requestOf [0x20]).message fun _ => 1).packet).1.authenticated = true := by
    rw [handleClientPacket, if_pos ⟨rfl, payload_of_opened opened⟩, handleAuthRequest, opened]
    decide
  obtain ⟨secret, listed, text, spells, encodes⟩ := (claimed spelledHost ⟨false, false⟩ _ [0x20]
    spelledHost_six rfl opened (by decide)).mp authenticated
  have clear : ∀ u ∈ secret, isClear u = true := by
    simp only [List.mem_cons, List.not_mem_nil, or_false] at listed
    rcases listed with rfl | rfl
    · exact fun u found => isClear_of_digit (spelledHost_six.digits u found)
    · exact masterPassword_clear
  have empty : [] = secret :=
    (@password_eq_iff [0x20] secret (by decide) clear).mpr ⟨text, spells, encodes⟩
  rw [← empty] at listed
  exact absurd listed (by decide)

end RemoteAccess.AcceptedPasswords
