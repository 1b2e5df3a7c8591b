import RemoteAccess.SessionPackets

/-! How much the receive loop keeps and how much it removes. No header is
rejected for the size it announces, so a header announcing more than the limit
makes the loop wait for all of it; and the number of bytes removed is computed in
32 bits, where the sizes of the largest packets wrap. -/

namespace RemoteAccess.ReceiveBuffer

open ProtocolCodec StreamFraming PacketStream SessionReceive SessionPackets

/-! ### What is waited for -/

def payloadLimit : Nat := 64 * 2 ^ 20

def bufferLimit : Nat := 28 + payloadLimit

/-- A header announces a payload over the limit, and as many bytes as the limit
allows have come. -/
structure Overlong (buffer : List UInt8) : Prop where
  header : HeaderOk buffer
  announced : payloadLimit < (payloadSizeOf buffer).toNat
  arrived : bufferLimit ≤ buffer.length

theorem inspect_wait_iff (buffer : List UInt8) :
    (packetReader true).inspect buffer = .wait ↔
      buffer.length < headerSize ∨
        HeaderOk buffer ∧ buffer.length < headerSize + (payloadSizeOf buffer).toNat := by
  rw [packetReader_inspect, inspectPacket]
  obtain ⟨short, h⟩ | ⟨⟨whole, magic⟩, h⟩ | ⟨⟨whole, magic, version⟩, h⟩ | ⟨incomplete, h⟩ |
    ⟨⟨ok, size⟩, h⟩ := decode_cases buffer <;> rw [h]
  · simp [short]
  · simp only [if_true, reduceCtorEq, false_iff, not_or, not_and]
    exact ⟨by omega, fun ok => absurd ok.magic magic⟩
  · simp only [if_true, reduceCtorEq, false_iff, not_or, not_and]
    exact ⟨by omega, fun ok => absurd ok.version version⟩
  · simp [incomplete]
  · simp only [reduceCtorEq, false_iff, not_or, not_and]
    exact ⟨Nat.not_lt.mpr ok.size, fun _ => Nat.not_lt.mpr size⟩

theorem inspect_append {buffer : List UInt8} (more : List UInt8)
    (whole : headerSize ≤ buffer.length)
    (announced : HeaderOk buffer → headerSize + (payloadSizeOf buffer).toNat ≤ buffer.length) :
    (packetReader true).inspect (buffer ++ more) = (packetReader true).inspect buffer := by
  refine (packetReader true).stable more fun waits => ?_
  obtain short | ⟨ok, incomplete⟩ := (inspect_wait_iff buffer).mp waits
  · omega
  · have complete := announced ok
    omega

theorem HeaderOk.take {buffer : List UInt8} (ok : HeaderOk buffer) {count : Nat}
    (whole : headerSize ≤ count) : HeaderOk (buffer.take count) ∧
      payloadSizeOf (buffer.take count) = payloadSizeOf buffer := by
  have size := ok.size
  have kept : headerSize ≤ (buffer.take count).length := by
    rw [List.length_take]
    omega
  have split := List.take_append_drop count buffer
  refine ⟨⟨kept, ?_, ?_⟩, ?_⟩
  · rw [← magicOf_append (buffer.drop count) kept, split, ok.magic]
  · rw [← versionOf_append (buffer.drop count) kept, split, ok.version]
  · rw [← payloadSizeOf_append (buffer.drop count) kept, split]

theorem fits_of_payloadLimit {p : Packet} (small : p.header.payloadSize.toNat ≤ payloadLimit) :
    Fits p := by
  rw [Fits, headerSize]
  rw [payloadLimit] at small
  omega

theorem skip_not_headerOk {buffer : List UInt8}
    (skipped : (packetReader true).inspect buffer = .skip) : ¬ HeaderOk buffer := by
  intro ok
  obtain ⟨-, rejected⟩ := (inspectPacket_eq_skip_iff true buffer).mp skipped
  obtain rejected | rejected := rejected
  · obtain ⟨h, -⟩ | ⟨-, -, magic⟩ | ⟨h, -⟩ | ⟨h, -⟩ := (decode_eq_error_iff _ _).mp rejected
    · cases h
    · exact magic ok.magic
    · cases h
    · cases h
  · obtain ⟨h, -⟩ | ⟨h, -⟩ | ⟨-, -, -, version⟩ | ⟨h, -⟩ := (decode_eq_error_iff _ _).mp rejected
    · cases h
    · cases h
    · exact version ok.version
    · cases h

theorem inspect_take {buffer : List UInt8} {p : Packet}
    (read : (packetReader true).inspect buffer = .item p) :
    (packetReader true).inspect (buffer.take ((packetReader true).size p)) = .item p := by
  obtain ⟨ok, size, rfl⟩ := (decode_eq_ok_iff _ _).mp ((inspectPacket_eq_item_iff _ _ _).mp read)
  have header : headerSize ≤ headerSize + (payloadSizeOf buffer).toNat := Nat.le_add_right _ _
  obtain ⟨taken, same⟩ := HeaderOk.take ok header
  have whole : (packetReader true).size (packetOf buffer) =
      headerSize + (payloadSizeOf buffer).toNat := rfl
  rw [whole, ← inspect_append (buffer.drop (headerSize + (payloadSizeOf buffer).toNat)) taken.size,
    List.take_append_drop, read]
  intro _
  rw [same, List.length_take, Nat.min_eq_left size]

theorem Overlong.waits {buffer : List UInt8} (overlong : Overlong buffer) :
    (packetReader true).inspect (buffer.take bufferLimit) = .wait ∧
      (buffer.take bufferLimit).length = bufferLimit := by
  obtain ⟨ok, size⟩ := HeaderOk.take overlong.header (show headerSize ≤ bufferLimit by decide)
  have len : (buffer.take bufferLimit).length = bufferLimit := by
    rw [List.length_take, Nat.min_eq_left overlong.arrived]
  have announced := overlong.announced
  refine ⟨(inspect_wait_iff _).mpr (.inr ⟨ok, ?_⟩), len⟩
  rw [size, len, headerSize, bufferLimit]
  omega

theorem Overlong.drained {stream buffer : List UInt8}
    {ok : Packet → Prop} (reached : ReachesBy (packetReader true) ok stream buffer)
    (overlong : Overlong buffer) :
    ∃ arrived more packets rest, stream = arrived ++ more ∧
      Drains (packetReader true) arrived packets rest ∧ (∀ p ∈ packets, ok p ∧ Fits p) ∧
      rest.length = bufferLimit := by
  have here : ∀ {stream : List UInt8}, Overlong stream →
      ∃ arrived more packets rest, stream = arrived ++ more ∧
        Drains (packetReader true) arrived packets rest ∧ (∀ p ∈ packets, ok p ∧ Fits p) ∧
        rest.length = bufferLimit := fun overlong =>
    ⟨_, _, [], _, (List.take_append_drop ..).symm, .wait overlong.waits.1, by simp,
      overlong.waits.2⟩
  induction reached with
  | refl => exact here overlong
  | @skip stream buffer skipped _ ih =>
    obtain ⟨arrived, more, packets, rest, split, drains, fits, len⟩ := ih overlong
    have pos := List.length_pos_of_ne_nil ((packetReader true).skip_nonempty skipped)
    have first : (stream.take 1).length = 1 := by
      rw [List.length_take]
      omega
    have whole : stream = (stream.take 1 ++ arrived) ++ more := by
      rw [List.append_assoc, ← split, List.take_append_drop]
    have long := drains.length_le
    have size : headerSize ≤ (stream.take 1 ++ arrived).length := by
      rw [List.length_append, first, headerSize]
      rw [len, bufferLimit] at long
      omega
    have again : (packetReader true).inspect (stream.take 1 ++ arrived) = .skip := by
      rw [← inspect_append more size, ← whole, skipped]
      intro ok
      exact absurd (ok.append more) (whole ▸ skip_not_headerOk skipped)
    refine ⟨stream.take 1 ++ arrived, more, packets, rest, whole, .skip again ?_, fits, len⟩
    rwa [List.drop_left' first]
  | @item stream p buffer read passes reached ih =>
    by_cases small : p.header.payloadSize.toNat ≤ payloadLimit
    · obtain ⟨arrived, more, packets, rest, split, drains, fits, len⟩ := ih overlong
      have bounds := (packetReader true).item_bounds read
      have first : (stream.take ((packetReader true).size p)).length =
          (packetReader true).size p := by
        rw [List.length_take, Nat.min_eq_left bounds.2]
      have again : (packetReader true).inspect
          (stream.take ((packetReader true).size p) ++ arrived) = .item p := by
        rw [(packetReader true).stable arrived (by rw [inspect_take read]; simp), inspect_take read]
      refine ⟨stream.take ((packetReader true).size p) ++ arrived, more, p :: packets, rest, ?_,
        .item again ?_, List.forall_mem_cons.mpr ⟨⟨passes, fits_of_payloadLimit small⟩, fits⟩, len⟩
      · rw [List.append_assoc, ← split, List.take_append_drop]
      · rwa [List.drop_left' first]
    · obtain ⟨ok, size, rfl⟩ :=
        (decode_eq_ok_iff _ _).mp ((inspectPacket_eq_item_iff _ _ _).mp read)
      have announced : payloadLimit < (payloadSizeOf stream).toNat := Nat.not_le.mp small
      refine here ⟨ok, announced, ?_⟩
      rw [headerSize] at size
      rw [bufferLimit]
      omega

/-! ### What is removed -/

section Passes

variable {σ : Type*} (dispatch : Packet → Receiver σ → Receiver σ)

/-- The loop leaves the buffer, each pass shortens it, and a pass that decodes a
packet takes away the bytes the packet occupies. -/
structure MakesProgress (r : Receiver σ) : Prop where
  terminates : ∃ fuel t, WhileLoop.run (receiveStep dispatch) fuel r = some t
  removes : ∀ t next, WhileLoop.Passes (receiveStep dispatch) r t →
    receiveStep dispatch t = some next → next.receiveBuffer.length < t.receiveBuffer.length
  occupied : ∀ t next p, WhileLoop.Passes (receiveStep dispatch) r t →
    decode t.receiveBuffer = .ok p → receiveStep dispatch t = some next →
    next.receiveBuffer = t.receiveBuffer.drop (headerSize + p.header.payloadSize.toNat)

variable {dispatch}

theorem MakesProgress.pass {r next : Receiver σ} (progress : MakesProgress dispatch r)
    (pass : receiveStep dispatch r = some next) : MakesProgress dispatch next where
  terminates := WhileLoop.exists_run (·.receiveBuffer.length)
    fun t later reached => progress.removes t later (.head pass reached)
  removes := fun t later reached => progress.removes t later (.head pass reached)
  occupied := fun t later p reached => progress.occupied t later p (.head pass reached)

theorem receiveStep_ok {r : Receiver σ} {p : Packet} (read : decode r.receiveBuffer = .ok p) :
    receiveStep dispatch r = some
      ⟨(dispatch p r).session, (dispatch p r).receiveBuffer.drop (totalPacketSize p)⟩ := by
  have long := ((decode_eq_ok_iff _ _).mp read).1.size
  rw [headerSize] at long
  rw [receiveStep, if_neg (by omega), read]

theorem nothing_acts : ActsOn dispatch (fun session _ => session) fun _ => False :=
  fun _ _ _ no => no.elim

theorem receiveStep_wait {r : Receiver σ}
    (waits : (packetReader true).inspect r.receiveBuffer = .wait) : receiveStep dispatch r = none :=
  (receiveStep_follows nothing_acts).wait r.session waits

theorem receiveStep_skip {r : Receiver σ}
    (skipped : (packetReader true).inspect r.receiveBuffer = .skip) :
    receiveStep dispatch r = some { r with receiveBuffer := r.receiveBuffer.drop 1 } :=
  (receiveStep_follows nothing_acts).skip r.session skipped

theorem receiveStep_cases {r next : Receiver σ} (pass : receiveStep dispatch r = some next) :
    (packetReader true).inspect r.receiveBuffer = .skip ∧
        next = { r with receiveBuffer := r.receiveBuffer.drop 1 } ∨
      ∃ p, decode r.receiveBuffer = .ok p ∧ next =
        ⟨(dispatch p r).session, (dispatch p r).receiveBuffer.drop (totalPacketSize p)⟩ := by
  cases verdict : (packetReader true).inspect r.receiveBuffer with
  | wait =>
    rw [receiveStep_wait verdict] at pass
    cases pass
  | skip =>
    rw [receiveStep_skip verdict] at pass
    exact .inl ⟨rfl, (Option.some.inj pass).symm⟩
  | item p =>
    have read := (inspectPacket_eq_item_iff true _ p).mp verdict
    rw [receiveStep_ok read] at pass
    exact .inr ⟨p, read, (Option.some.inj pass).symm⟩

/-- Handling a packet leaves the buffer alone, unless it closes the connection and
with that empties it; `closes` says when, and stays as it was. -/
def KeepsUnless (closes : σ → Packet → Prop) (dispatch : Packet → Receiver σ → Receiver σ) : Prop :=
  ∀ p r, closes r.session p ∧ (dispatch p r).receiveBuffer = [] ∨
    ¬ closes r.session p ∧ (dispatch p r).receiveBuffer = r.receiveBuffer ∧
      ∀ later, closes (dispatch p r).session later ↔ closes r.session later

/-- A packet that closes the connection is the last of the buffer, and no other is
so large that its size wraps. -/
def Removable (closes : σ → Packet → Prop) (r : Receiver σ) : Prop :=
  ∀ rest p, Reaches (packetReader true) r.receiveBuffer rest → decode rest = .ok p →
    (closes r.session p → rest.length = headerSize + p.header.payloadSize.toNat) ∧
      (¬ closes r.session p → Fits p)

theorem fits_of_totalPacketSize {p : Packet}
    (same : headerSize + p.header.payloadSize.toNat ≤ totalPacketSize p) : Fits p :=
  Nat.lt_of_le_of_lt same (UInt32.toNat_lt _)

theorem not_decode_of_reaches_nil {rest : List UInt8} {p : Packet}
    (reached : Reaches (packetReader true) [] rest) : decode rest ≠ .ok p := by
  intro read
  have short := reached.length_le
  have long := ((decode_eq_ok_iff _ _).mp read).1.size
  rw [List.length_nil] at short
  rw [headerSize] at long
  omega

variable {closes : σ → Packet → Prop} (keeps : KeepsUnless closes dispatch)
include keeps

theorem Removable.pass {r next : Receiver σ} (removable : Removable closes r)
    (step : receiveStep dispatch r = some next) :
    Removable closes next ∧ next.receiveBuffer.length < r.receiveBuffer.length ∧
      ∀ p, decode r.receiveBuffer = .ok p →
        next.receiveBuffer = r.receiveBuffer.drop (headerSize + p.header.payloadSize.toNat) := by
  obtain ⟨skipped, rfl⟩ | ⟨p, read, rfl⟩ := receiveStep_cases step
  · have pos := List.length_pos_of_ne_nil ((packetReader true).skip_nonempty skipped)
    refine ⟨fun rest p reached => removable rest p (.skip skipped reached), ?_, fun p read => ?_⟩
    · rw [List.length_drop]
      omega
    · rw [packetReader_inspect, (inspectPacket_eq_item_iff true _ p).mpr read] at skipped
      cases skipped
  · have item := (inspectPacket_eq_item_iff true _ p).mpr read
    have bounds := (packetReader true).item_bounds item
    obtain ⟨whole, fits⟩ := removable r.receiveBuffer p .refl read
    rw [packetReader_size] at bounds
    obtain ⟨closed, empty⟩ | ⟨opened, same, later⟩ := keeps p r
    · have nothing : (dispatch p r).receiveBuffer.drop (totalPacketSize p) = [] := by
        rw [empty, List.drop_nil]
      have all : r.receiveBuffer.drop (headerSize + p.header.payloadSize.toNat) = [] :=
        List.drop_of_length_le (Nat.le_of_eq (whole closed))
      rw [nothing]
      refine ⟨fun rest p reached read => absurd read (not_decode_of_reaches_nil reached), ?_, ?_⟩
      · rw [List.length_nil]
        omega
      · intro p' again
        obtain rfl := Except.ok.inj (read.symm.trans again)
        exact all.symm
    · rw [same, totalPacketSize_eq (fits opened)]
      refine ⟨fun rest p' reached again => ?_, ?_, ?_⟩
      · rw [later]
        exact removable rest p' (.item item reached) again
      · rw [List.length_drop]
        omega
      · intro p' again
        obtain rfl := Except.ok.inj (read.symm.trans again)
        rfl

theorem Removable.passes {r t : Receiver σ} (removable : Removable closes r)
    (reached : WhileLoop.Passes (receiveStep dispatch) r t) : Removable closes t := by
  induction reached with
  | refl => exact removable
  | tail _ step ih => exact (ih.pass keeps step).1

theorem Removable.makesProgress {r : Receiver σ} (removable : Removable closes r) :
    MakesProgress dispatch r where
  terminates := WhileLoop.exists_run (·.receiveBuffer.length) fun _ _ reached step =>
    ((removable.passes keeps reached).pass keeps step).2.1
  removes := fun _ _ reached step => ((removable.passes keeps reached).pass keeps step).2.1
  occupied := fun _ _ p reached read step =>
    ((removable.passes keeps reached).pass keeps step).2.2 p read

theorem MakesProgress.removable {r : Receiver σ} (progress : MakesProgress dispatch r) :
    Removable closes r := by
  intro rest p reached read
  generalize start : r.receiveBuffer = buffer at reached
  induction reached generalizing r with
  | refl =>
    subst start
    have bounds := (packetReader true).item_bounds ((inspectPacket_eq_item_iff true _ p).mpr read)
    rw [packetReader_size] at bounds
    have removed := progress.occupied r _ p .refl read (receiveStep_ok read)
    have left := congrArg List.length removed
    obtain ⟨closed, empty⟩ | ⟨opened, same, -⟩ := keeps p r
    · refine ⟨fun _ => ?_, fun stays => absurd closed stays⟩
      simp only [empty, List.drop_nil, List.length_nil, List.length_drop] at left
      omega
    · refine ⟨fun closed => absurd closed opened, fun _ => fits_of_totalPacketSize ?_⟩
      simp only [same, List.length_drop] at left
      omega
  | skip skipped _ ih =>
    subst start
    have next := progress.pass (receiveStep_skip skipped)
    have later := ih next read rfl
    exact later
  | @item buffer first rest item reached ih =>
    subst start
    have here := (inspectPacket_eq_item_iff true _ first).mp item
    have removed := progress.occupied r _ first .refl here (receiveStep_ok here)
    have next := progress.pass (receiveStep_ok here)
    have later := ih next read removed
    obtain ⟨closed, empty⟩ | ⟨-, -, unchanged⟩ := keeps first r
    · rw [empty, List.drop_nil] at removed
      rw [packetReader_size, ← removed] at reached
      exact absurd read (not_decode_of_reaches_nil reached)
    · rw [unchanged] at later
      exact later

theorem makesProgress_iff_removable (r : Receiver σ) :
    MakesProgress dispatch r ↔ Removable closes r :=
  ⟨fun progress => progress.removable keeps, fun removable => removable.makesProgress keeps⟩

end Passes

/-! ### The packet branches -/

section Client

variable (oversized : Nat → UInt64) (qUncompress : List UInt8 → List UInt8)

/-- A rejecting `AuthResponse` reaches a connected client with nothing left to
write: its socket closes before the handling is over. -/
structure ClosesAtOnce (s : Session) (packet : Packet) : Prop where
  connected : s.connected = true
  written : s.bytesToWrite = false
  type : packet.header.type = .authResponse
  payload : packet.payload ≠ []
  rejects : ∃ authCode rest, AgentPacketHandler.openPacket oversized packet =
    some (authCode :: rest) ∧ authCode ≠ 0

def link (s : Session) : Bool × Bool := (s.connected, s.bytesToWrite)

theorem closesAtOnce_of_link {s s' : Session} (same : link s' = link s) (packet : Packet) :
    ClosesAtOnce oversized s' packet ↔ ClosesAtOnce oversized s packet := by
  obtain ⟨connected, written⟩ := Prod.mk.inj same
  exact ⟨fun c => ⟨connected ▸ c.connected, written ▸ c.written, c.type, c.payload, c.rejects⟩,
    fun c => ⟨connected ▸ c.connected, written ▸ c.written, c.type, c.payload, c.rejects⟩⟩

theorem link_setStatus (s : Session) (e : ClientEffect) (status : QtText.QString) :
    link ((s.emit e).setStatus status) = link s := by
  obtain same | same := (s.emit e).setStatus_cases status <;> rw [same] <;> rfl

theorem link_handleFrameHeader (s : Session) (packet : Packet) :
    link (handleFrameHeader oversized qUncompress s packet) = link s := by
  unfold handleFrameHeader showFrame
  dsimp only
  split
  · rfl
  · split
    · rfl
    · split_ifs <;> rfl

theorem link_withText {act : Session → QtText.QString → Session}
    (kept : ∀ s text, link (act s text) = link s) (s : Session) (packet : Packet) :
    link (withText oversized packet act s) = link s := by
  unfold withText
  split
  · rfl
  · split_ifs
    · rfl
    · exact kept s _

theorem link_applyClipboardText (s : Session) (text : QtText.QString) :
    link (applyClipboardText s text) = link s := by
  unfold applyClipboardText
  dsimp only
  split_ifs <;> rfl

/-- After `disconnectFromHost` nothing closes the connection any more. -/
theorem disconnectFromHost_keeps (packet : Packet) (r : Receiver Session)
    (rejects : ∀ s : Session, s.connected = true → s.bytesToWrite = false →
      ClosesAtOnce oversized s packet) :
    ClosesAtOnce oversized r.session packet ∧ (disconnectFromHost r).receiveBuffer = [] ∨
      ¬ ClosesAtOnce oversized r.session packet ∧
        (disconnectFromHost r).receiveBuffer = r.receiveBuffer ∧
        ∀ later, ClosesAtOnce oversized (disconnectFromHost r).session later ↔
          ClosesAtOnce oversized r.session later := by
  unfold disconnectFromHost
  by_cases connected : r.session.connected = true
  · rw [if_neg (not_not.mpr connected)]
    by_cases pending : r.session.bytesToWrite = true
    · refine .inr ⟨fun c => ?_, ?_, fun later => ⟨fun c => ?_, fun c => ?_⟩⟩
      · rw [c.written] at pending
        cases pending
      · simp [Session.emit, pending]
      · have closed := c.connected
        simp [Session.emit, pending] at closed
      · rw [c.written] at pending
        cases pending
    · rw [Bool.not_eq_true] at pending
      refine .inl ⟨rejects r.session connected pending, ?_⟩
      simp [Session.emit, pending]
  · rw [if_pos connected]
    exact .inr ⟨fun c => connected c.connected, rfl, fun _ => Iff.rfl⟩

theorem handleAuthResponse_keeps {packet : Packet} (r : Receiver Session)
    (type : packet.header.type = .authResponse) (payload : packet.payload ≠ []) :
    ClosesAtOnce oversized r.session packet ∧
        (handleAuthResponse oversized packet r).receiveBuffer = [] ∨
      ¬ ClosesAtOnce oversized r.session packet ∧
        (handleAuthResponse oversized packet r).receiveBuffer = r.receiveBuffer ∧
        ∀ later, ClosesAtOnce oversized (handleAuthResponse oversized packet r).session later ↔
          ClosesAtOnce oversized r.session later := by
  have unread : (∀ authCode rest,
      AgentPacketHandler.openPacket oversized packet ≠ some (authCode :: rest)) →
      ¬ ClosesAtOnce oversized r.session packet := by
    intro none c
    obtain ⟨authCode, rest, same, -⟩ := c.rejects
    exact none authCode rest same
  unfold handleAuthResponse
  split
  · next opened => exact .inr ⟨unread (by simp [opened]), rfl, fun _ => Iff.rfl⟩
  · next opened => exact .inr ⟨unread (by simp [opened]), rfl, fun _ => Iff.rfl⟩
  · next authCode rest opened =>
    by_cases granted : authCode = 0
    · simp only [granted, if_true]
      refine .inr ⟨fun c => ?_, trivial, fun later => ?_⟩
      · obtain ⟨code, rest', same, nonzero⟩ := c.rejects
        rw [opened] at same
        simp only [Option.some.injEq, List.cons.injEq] at same
        exact nonzero (same.1 ▸ granted)
      · exact closesAtOnce_of_link oversized (link_setStatus ..) later
    · simp only [granted, if_false]
      have rejects : ∀ s : Session, s.connected = true → s.bytesToWrite = false →
          ClosesAtOnce oversized s packet :=
        fun s connected written => ⟨connected, written, type, payload, authCode, rest, opened,
          granted⟩
      have same := closesAtOnce_of_link oversized
        (link_setStatus r.session (.authResponse (authCode == 0)) authenticationFailed)
      have ended := disconnectFromHost_keeps oversized packet
        ⟨(r.session.emit (.authResponse (authCode == 0))).setStatus authenticationFailed,
          r.receiveBuffer⟩ rejects
      simp only [same] at ended
      exact ended

theorem link_appendTerminalOutput (s : Session) (text : QtText.QString) :
    link (appendTerminalOutput s text) = link s := rfl

theorem dispatch_keepsUnless :
    KeepsUnless (ClosesAtOnce oversized) (dispatch oversized qUncompress) := by
  intro p r
  unfold dispatch
  split_ifs with frame clipboard auth terminal
  · exact .inr ⟨fun c => absurd (frame.1.symm.trans c.type) (by decide), rfl,
      closesAtOnce_of_link oversized (link_handleFrameHeader ..)⟩
  · exact .inr ⟨fun c => absurd (clipboard.1.symm.trans c.type) (by decide), rfl,
      closesAtOnce_of_link oversized (link_withText oversized link_applyClipboardText ..)⟩
  · exact handleAuthResponse_keeps oversized r auth.1 auth.2
  · exact .inr ⟨fun c => absurd (terminal.1.symm.trans c.type) (by decide), rfl,
      closesAtOnce_of_link oversized (link_withText oversized link_appendTerminalOutput ..)⟩
  · exact .inr ⟨fun c => auth ⟨c.type, c.payload⟩, rfl, fun _ => Iff.rfl⟩

/-- The client's loop ends and removes what it decoded exactly on the buffers whose
packets fit in 32 bits with their header, a closing one being the last. -/
theorem makesProgress_iff (r : Receiver Session) :
    MakesProgress (dispatch oversized qUncompress) r ↔ Removable (ClosesAtOnce oversized) r :=
  makesProgress_iff_removable (dispatch_keepsUnless oversized qUncompress) r

end Client

/-- A header and its payload, together 2^32 bytes. -/
def wrappingPacket : List UInt8 :=
  encodeHeader .audioFrame 1 0 0xFFFFFFE4 ++ List.replicate 0xFFFFFFE4 0

theorem decode_wrappingPacket : decode wrappingPacket = .ok (packetOf wrappingPacket) := by
  refine (decode_eq_ok_iff _ _).mpr ⟨headerOk_header .., ?_, rfl⟩
  rw [wrappingPacket, payloadSizeOf_header, List.length_append, length_encodeHeader,
    List.length_replicate]
  rfl

/-- The packet stays in front of the buffer and is handled for ever. -/
theorem wrappingPacket_loops :
    (∀ fuel, WhileLoop.run (receiveStep (dispatch (fun _ => 1) id)) fuel
        ⟨newSession, wrappingPacket⟩ = none) ∧
      ¬ MakesProgress (dispatch (fun _ => 1) id) ⟨newSession, wrappingPacket⟩ := by
  have type : (packetOf wrappingPacket).header.type = .audioFrame := typeOf_header ..
  have size : (packetOf wrappingPacket).header.payloadSize = 0xFFFFFFE4 := payloadSizeOf_header ..
  have stuck : receiveStep (dispatch (fun _ => 1) id) ⟨newSession, wrappingPacket⟩ =
      some ⟨newSession, wrappingPacket⟩ := by
    have logged : dispatch (fun _ => 1) id (packetOf wrappingPacket)
        ⟨newSession, wrappingPacket⟩ = ⟨newSession, wrappingPacket⟩ := by
      simp [dispatch, type, PayloadType.audioFrame, PayloadType.frameHeader,
        PayloadType.clipboardData, PayloadType.authResponse, PayloadType.terminalData]
    have none_removed : totalPacketSize (packetOf wrappingPacket) = 0 := by
      rw [totalPacketSize, size]
      rfl
    have pass := @receiveStep_ok _ (dispatch (fun _ => 1) id) ⟨newSession, wrappingPacket⟩ _
      decode_wrappingPacket
    rw [logged, none_removed, List.drop_zero] at pass
    exact pass
  refine ⟨WhileLoop.run_stuck stuck, fun progress => ?_⟩
  obtain ⟨fuel, t, done⟩ := progress.terminates
  rw [WhileLoop.run_stuck stuck] at done
  cases done

/-! ### How much is kept -/

section Bound

variable {σ : Type*} (dispatch : Packet → Receiver σ → Receiver σ) (reading : σ → Bool)

/-- One call of `onReadyRead` after the other, as long as the socket is not closed. -/
def readOpen (fuel : Nat) : Receiver σ → List (List UInt8) → Option (Receiver σ)
  | r, [] => some r
  | r, data :: reads =>
    if reading r.session then (onReadyRead dispatch fuel r data).bind (readOpen fuel · reads)
    else some r

/-- However `stream` is cut into reads of at most `most` bytes, every call returns
and leaves fewer bytes in the buffer than the limit. -/
def StaysBelow (session : σ) (most : Nat) (stream : List UInt8) : Prop :=
  ∀ reads : List (List UInt8), (∀ data ∈ reads, data.length ≤ most) → reads.flatten = stream →
    ∀ calls fuel, stream.length < fuel →
      ∃ r, readOpen dispatch reading fuel ⟨session, []⟩ (reads.take calls) = some r ∧
        r.receiveBuffer.length < bufferLimit

/-- A packet that closes the connection is the last that is read, and no other ends that. -/
structure ReadsUnless (closes : σ → Packet → Prop) : Prop where
  keeps : KeepsUnless closes dispatch
  reads : ∀ p r, reading r.session = true →
    (reading (dispatch p r).session = true ↔ ¬ closes r.session p)

variable {dispatch reading} {closes : σ → Packet → Prop} {session : σ}

theorem receiveStep_item {r : Receiver σ} {p : Packet}
    (item : (packetReader true).inspect r.receiveBuffer = .item p) :
    receiveStep dispatch r = some
      ⟨(dispatch p r).session, (dispatch p r).receiveBuffer.drop (totalPacketSize p)⟩ :=
  receiveStep_ok ((inspectPacket_eq_item_iff true _ p).mp item)

structure Alike (closes : σ → Packet → Prop) (reading : σ → Bool) (session now : σ) : Prop where
  reads : reading now = true
  closes_iff : ∀ p, closes now p ↔ closes session p

theorem ReadsUnless.pass (until_ : ReadsUnless dispatch reading closes) {now : σ}
    {buffer : List UInt8} {p : Packet} (alike : Alike closes reading session now)
    (item : (packetReader true).inspect buffer = .item p) (opened : ¬ closes session p)
    (fits : Fits p) :
    ∃ next, receiveStep dispatch ⟨now, buffer⟩ =
        some ⟨next, buffer.drop ((packetReader true).size p)⟩ ∧
      Alike closes reading session next := by
  have still : ¬ closes now p := mt (alike.closes_iff p).mp opened
  obtain ⟨closed, -⟩ | ⟨-, same, later⟩ := until_.keeps p ⟨now, buffer⟩
  · exact absurd closed still
  · refine ⟨(dispatch p ⟨now, buffer⟩).session, ?_, ?_⟩
    · rw [receiveStep_item item, same, totalPacketSize_eq fits, packetReader_size]
    · exact ⟨(until_.reads p ⟨now, buffer⟩ alike.reads).mpr still,
        fun p' => (later p').trans (alike.closes_iff p')⟩

theorem ReadsUnless.run_of_drains (until_ : ReadsUnless dispatch reading closes) {now : σ}
    {buffer rest : List UInt8} {packets : List Packet}
    (drains : Drains (packetReader true) buffer packets rest)
    (alike : Alike closes reading session now)
    (passes : ∀ p ∈ packets, ¬ closes session p ∧ Fits p) {fuel : Nat}
    (enough : buffer.length < fuel) :
    ∃ next, WhileLoop.run (receiveStep dispatch) fuel ⟨now, buffer⟩ = some ⟨next, rest⟩ ∧
      Alike closes reading session next := by
  induction drains generalizing fuel now with
  | wait waits =>
    obtain ⟨fuel, rfl⟩ := Nat.exists_eq_add_of_le' (Nat.one_le_of_lt enough)
    exact ⟨now, WhileLoop.run_exit _ ((receiveStep_follows nothing_acts).wait now waits), alike⟩
  | @skip buffer packets rest skipped _ ih =>
    obtain ⟨fuel, rfl⟩ := Nat.exists_eq_add_of_le' (Nat.one_le_of_lt enough)
    have pos := List.length_pos_of_ne_nil ((packetReader true).skip_nonempty skipped)
    have pass := @receiveStep_skip _ dispatch ⟨now, buffer⟩ skipped
    rw [WhileLoop.run_pass _ pass]
    exact ih alike passes (by rw [List.length_drop]; omega)
  | @item buffer p packets rest item _ ih =>
    obtain ⟨fuel, rfl⟩ := Nat.exists_eq_add_of_le' (Nat.one_le_of_lt enough)
    obtain ⟨⟨opened, fits⟩, others⟩ := List.forall_mem_cons.mp passes
    have bounds := (packetReader true).item_bounds item
    obtain ⟨next, pass, still⟩ := until_.pass alike item opened fits
    rw [WhileLoop.run_pass _ pass]
    exact ih still others (by rw [List.length_drop]; omega)

theorem ReadsUnless.readOpen_of_feeds (until_ : ReadsUnless dispatch reading closes) {now : σ}
    {pending rest : List UInt8} {reads : List (List UInt8)} {packets : List Packet}
    (feeds : Feeds (packetReader true) pending reads packets rest)
    (alike : Alike closes reading session now)
    (passes : ∀ p ∈ packets, ¬ closes session p ∧ Fits p) {fuel : Nat}
    (enough : (pending ++ reads.flatten).length < fuel) :
    ∃ next, readOpen dispatch reading fuel ⟨now, pending⟩ reads = some ⟨next, rest⟩ := by
  induction reads generalizing now pending packets with
  | nil =>
    obtain ⟨-, rfl⟩ := feeds
    exact ⟨now, rfl⟩
  | cons data reads ih =>
    obtain ⟨first, left, later, drains, feeds, rfl⟩ := feeds
    rw [List.flatten_cons, ← List.append_assoc, List.length_append] at enough
    rw [List.forall_mem_append] at passes
    have shrinks := drains.length_le
    have room : (pending ++ data).length < fuel := by omega
    obtain ⟨between, ran, still⟩ := until_.run_of_drains drains alike passes.1 room
    rw [readOpen, if_pos alike.reads, onReadyRead, ran, Option.bind_some]
    exact ih feeds still passes.2 (by rw [List.length_append]; omega)

/-- No boundary before a closing packet is followed by an overlong header. -/
def Allowed (closes : σ → Packet → Prop) (session : σ) (stream : List UInt8) : Prop :=
  ∀ rest, ReachesBy (packetReader true) (fun p => ¬ closes session p) stream rest →
    ¬ Overlong rest

theorem Allowed.below {buffer more : List UInt8} (allowed : Allowed closes session (buffer ++ more))
    (waits : (packetReader true).inspect buffer = .wait) : buffer.length < bufferLimit := by
  by_contra long
  obtain short | ⟨ok, incomplete⟩ := (inspect_wait_iff buffer).mp waits
  · rw [headerSize] at short
    rw [bufferLimit] at long
    omega
  · refine allowed _ .refl ⟨ok.append more, ?_, ?_⟩
    · rw [payloadSizeOf_append more ok.size]
      rw [headerSize] at incomplete
      rw [bufferLimit] at long
      omega
    · rw [List.length_append]
      omega

theorem Allowed.fits {buffer more : List UInt8} {p : Packet}
    (allowed : Allowed closes session (buffer ++ more))
    (item : (packetReader true).inspect buffer = .item p) : Fits p := by
  obtain ⟨ok, size, rfl⟩ := (decode_eq_ok_iff _ _).mp ((inspectPacket_eq_item_iff _ _ _).mp item)
  refine fits_of_payloadLimit ?_
  by_contra announced
  refine allowed _ .refl ⟨ok.append more, ?_, ?_⟩
  · rw [payloadSizeOf_append more ok.size]
    exact Nat.not_le.mp announced
  · simp only [packetOf] at announced
    rw [List.length_append, bufferLimit]
    rw [headerSize] at size
    omega

/-- The buffer is empty when the rest of a closing packet is to be removed from it. -/
theorem ReadsUnless.run_closing (until_ : ReadsUnless dispatch reading closes) {now : σ}
    {buffer : List UInt8} {p : Packet} (reads : reading now = true)
    (item : (packetReader true).inspect buffer = .item p) (closed : closes now p) {fuel : Nat}
    (enough : buffer.length < fuel) :
    ∃ next, WhileLoop.run (receiveStep dispatch) fuel ⟨now, buffer⟩ = some ⟨next, []⟩ ∧
      reading next = false := by
  have bounds := (packetReader true).item_bounds item
  obtain ⟨fuel, rfl⟩ := Nat.exists_eq_add_of_le' (show 2 ≤ fuel by omega)
  obtain ⟨-, empty⟩ | ⟨opened, -⟩ := until_.keeps p ⟨now, buffer⟩
  · have pass := @receiveStep_item _ dispatch ⟨now, buffer⟩ p item
    rw [empty, List.drop_nil] at pass
    have stop : receiveStep dispatch ⟨(dispatch p ⟨now, buffer⟩).session, []⟩ = none :=
      (receiveStep_follows nothing_acts).wait _ inspect_nil
    refine ⟨(dispatch p ⟨now, buffer⟩).session, ?_, ?_⟩
    · rw [WhileLoop.run_pass _ pass, WhileLoop.run_exit _ stop]
    · exact Bool.eq_false_iff.mpr fun still =>
        (until_.reads p ⟨now, buffer⟩ reads).mp still closed
  · exact absurd closed opened

theorem ReadsUnless.run_allowed (until_ : ReadsUnless dispatch reading closes) {now : σ}
    {buffer more : List UInt8} (alike : Alike closes reading session now)
    (allowed : Allowed closes session (buffer ++ more)) {fuel : Nat}
    (enough : buffer.length < fuel) :
    ∃ next left, WhileLoop.run (receiveStep dispatch) fuel ⟨now, buffer⟩ = some ⟨next, left⟩ ∧
      (reading next = false ∧ left = [] ∨
        Alike closes reading session next ∧ (packetReader true).inspect left = .wait ∧
          Allowed closes session (left ++ more) ∧ left.length ≤ buffer.length) := by
  induction len : buffer.length using Nat.strongRecOn generalizing buffer now fuel with
  | ind n ih =>
    subst len
    obtain ⟨fuel, rfl⟩ := Nat.exists_eq_add_of_le' (Nat.one_le_of_lt enough)
    cases verdict : (packetReader true).inspect buffer with
    | wait =>
      have stop := @receiveStep_wait _ dispatch ⟨now, buffer⟩ verdict
      exact ⟨now, buffer, WhileLoop.run_exit _ stop,
        .inr ⟨alike, verdict, allowed, Nat.le_refl _⟩⟩
    | skip =>
      have pos := List.length_pos_of_ne_nil ((packetReader true).skip_nonempty verdict)
      have again : (packetReader true).inspect (buffer ++ more) = .skip :=
        ((packetReader true).stable more
          fun waits => nomatch verdict.symm.trans waits).trans verdict
      have later : Allowed closes session (buffer.drop 1 ++ more) := by
        intro rest reached
        rw [← List.drop_append_of_le_length (by omega)] at reached
        exact allowed rest (.skip again reached)
      rw [WhileLoop.run_pass _ (@receiveStep_skip _ dispatch ⟨now, buffer⟩ verdict)]
      obtain ⟨next, left, ran, ended⟩ := @ih (buffer.drop 1).length
        (by rw [List.length_drop]; omega) now (buffer.drop 1) alike later fuel
        (by rw [List.length_drop]; omega) rfl
      refine ⟨next, left, ran, ended.imp_right fun ⟨still, waits, allowed, short⟩ =>
        ⟨still, waits, allowed, ?_⟩⟩
      rw [List.length_drop] at short
      omega
    | item p =>
      have bounds := (packetReader true).item_bounds verdict
      have again : (packetReader true).inspect (buffer ++ more) = .item p :=
        ((packetReader true).stable more
          fun waits => nomatch verdict.symm.trans waits).trans verdict
      by_cases closed : closes session p
      · obtain ⟨next, ran, stopped⟩ := until_.run_closing alike.reads verdict
          ((alike.closes_iff p).mpr closed) enough
        exact ⟨next, [], ran, .inl ⟨stopped, rfl⟩⟩
      · have later : Allowed closes session
            (buffer.drop ((packetReader true).size p) ++ more) := by
          intro rest reached
          rw [← List.drop_append_of_le_length bounds.2] at reached
          exact allowed rest (.item again closed reached)
        obtain ⟨between, pass, still⟩ := until_.pass alike verdict closed (allowed.fits verdict)
        rw [WhileLoop.run_pass _ pass]
        obtain ⟨next, left, ran, ended⟩ := @ih (buffer.drop ((packetReader true).size p)).length
          (by rw [List.length_drop]; omega) between _ still later fuel
          (by rw [List.length_drop]; omega) rfl
        refine ⟨next, left, ran, ended.imp_right fun ⟨still, waits, allowed, short⟩ =>
          ⟨still, waits, allowed, ?_⟩⟩
        rw [List.length_drop] at short
        omega

theorem ReadsUnless.readOpen_below (until_ : ReadsUnless dispatch reading closes) {now : σ}
    {buffer more : List UInt8} {reads : List (List UInt8)}
    (alike : Alike closes reading session now)
    (waits : (packetReader true).inspect buffer = .wait)
    (allowed : Allowed closes session (buffer ++ (reads.flatten ++ more))) {fuel : Nat}
    (enough : (buffer ++ reads.flatten).length < fuel) :
    ∃ r, readOpen dispatch reading fuel ⟨now, buffer⟩ reads = some r ∧
      r.receiveBuffer.length < bufferLimit := by
  induction reads generalizing now buffer with
  | nil => exact ⟨_, rfl, allowed.below waits⟩
  | cons data reads ih =>
    rw [List.flatten_cons, List.length_append, List.length_append] at enough
    have split : buffer ++ ((data :: reads).flatten ++ more) =
        (buffer ++ data) ++ (reads.flatten ++ more) := by
      simp only [List.flatten_cons, List.append_assoc]
    rw [split] at allowed
    have room : (buffer ++ data).length < fuel := by
      rw [List.length_append]
      omega
    obtain ⟨next, left, ran, ended⟩ := until_.run_allowed alike allowed room
    rw [readOpen, if_pos alike.reads, onReadyRead, ran, Option.bind_some]
    obtain ⟨closed, rfl⟩ | ⟨still, waits', allowed', short⟩ := ended
    · have pos : ([] : List UInt8).length < bufferLimit := by decide
      cases reads with
      | nil => exact ⟨_, rfl, pos⟩
      | cons later reads =>
        rw [readOpen, if_neg (Bool.eq_false_iff.mp closed)]
        exact ⟨_, rfl, pos⟩
    · refine ih still waits' allowed' ?_
      rw [List.length_append] at short ⊢
      omega

theorem ReadsUnless.not_staysBelow (until_ : ReadsUnless dispatch reading closes)
    (alike : Alike closes reading session session) {most : Nat} (some_byte : 0 < most)
    {stream rest : List UInt8} (reached : ReachesBy (packetReader true)
      (fun p => ¬ closes session p) stream rest) (overlong : Overlong rest) :
    ¬ StaysBelow dispatch reading session most stream := by
  intro below
  obtain ⟨arrived, more, packets, left, rfl, drains, passes, len⟩ := overlong.drained reached
  let reads := (arrived ++ more).map fun b => [b]
  have whole : reads.flatten = arrived ++ more := List.flatMap_singleton' _
  have taken : (reads.take arrived.length).flatten = arrived := by
    rw [← List.map_take, List.take_left' rfl]
    exact List.flatMap_singleton' _
  have single : ∀ data ∈ reads, data.length ≤ most := by
    intro data mem
    obtain ⟨b, -, rfl⟩ := List.mem_map.mp mem
    exact some_byte
  obtain ⟨r, returned, short⟩ := below reads single whole arrived.length _ (Nat.lt_succ_self _)
  have feeds : Feeds (packetReader true) [] (reads.take arrived.length) packets left := by
    rw [feeds_iff_drains inspect_nil, List.nil_append, taken]
    exact drains
  have room :
      ([] ++ (reads.take arrived.length).flatten).length < (arrived ++ more).length + 1 := by
    rw [List.nil_append, taken, List.length_append]
    omega
  obtain ⟨next, ran⟩ := until_.readOpen_of_feeds feeds alike passes room
  rw [ran] at returned
  rw [← Option.some.inj returned, len] at short
  exact Nat.lt_irrefl _ short

theorem ReadsUnless.staysBelow_iff_allowed (until_ : ReadsUnless dispatch reading closes)
    (reads : reading session = true) {most : Nat} (some_byte : 0 < most) (stream : List UInt8) :
    StaysBelow dispatch reading session most stream ↔ Allowed closes session stream := by
  have alike : Alike closes reading session session := ⟨reads, fun _ => Iff.rfl⟩
  constructor
  · intro below rest reached overlong
    exact until_.not_staysBelow alike some_byte reached overlong below
  · rintro allowed reads - rfl calls fuel enough
    have split : (reads.take calls).flatten ++ (reads.drop calls).flatten = reads.flatten := by
      rw [← List.flatten_append, List.take_append_drop]
    rw [← split] at allowed enough
    rw [List.length_append] at enough
    have room : ([] ++ (reads.take calls).flatten).length < fuel := by
      rw [List.nil_append]
      omega
    exact until_.readOpen_below alike inspect_nil allowed room

end Bound

section Client

variable (oversized : Nat → UInt64) (qUncompress : List UInt8 → List UInt8)

/-- A socket that has been told to disconnect reads on while it has something to write. -/
def reading (s : Session) : Bool := s.connected || s.bytesToWrite

theorem reading_of_link {s s' : Session} (same : link s' = link s) : reading s' = reading s := by
  obtain ⟨connected, written⟩ := Prod.mk.inj same
  rw [reading, reading, connected, written]

theorem reading_disconnectFromHost (r : Receiver Session) :
    reading (disconnectFromHost r).session = r.session.bytesToWrite := by
  have kept : ∀ (s : Session) status, reading (s.setStatus status) = reading s := by
    intro s status
    obtain same | same := s.setStatus_cases status
    · rw [same]
    · rw [same]
      rfl
  unfold disconnectFromHost
  by_cases connected : r.session.connected = true
  · rw [if_neg (not_not.mpr connected)]
    dsimp only
    split_ifs with pending
    · exact Bool.false_or _
    · rw [kept]
      rfl
  · simp [connected, reading]

theorem reading_handleAuthResponse {packet : Packet} {r : Receiver Session}
    (reads : reading r.session = true) (type : packet.header.type = .authResponse)
    (payload : packet.payload ≠ []) :
    reading (handleAuthResponse oversized packet r).session = true ↔
      ¬ ClosesAtOnce oversized r.session packet := by
  unfold handleAuthResponse
  split
  · next opened =>
    refine iff_of_true reads fun c => ?_
    obtain ⟨authCode, rest, same, -⟩ := c.rejects
    rw [opened] at same
    cases same
  · next opened =>
    refine iff_of_true reads fun c => ?_
    obtain ⟨authCode, rest, same, -⟩ := c.rejects
    rw [opened] at same
    cases same
  · next authCode rest opened =>
    by_cases granted : authCode = 0
    · simp only [granted, if_true]
      rw [reading_of_link (link_setStatus ..)]
      refine iff_of_true reads fun c => ?_
      obtain ⟨code, rest', same, nonzero⟩ := c.rejects
      rw [opened] at same
      simp only [Option.some.injEq, List.cons.injEq] at same
      exact nonzero (same.1 ▸ granted)
    · simp only [granted, if_false]
      have same := link_setStatus r.session (.authResponse (authCode == 0)) authenticationFailed
      rw [reading_disconnectFromHost, (Prod.mk.inj same).2]
      constructor
      · intro pending c
        rw [c.written] at pending
        cases pending
      · intro opens
        by_contra idle
        rw [Bool.not_eq_true] at idle
        rw [reading, idle, Bool.or_false] at reads
        exact opens ⟨reads, idle, type, payload, authCode, rest, opened, granted⟩

theorem dispatch_readsUnless :
    ReadsUnless (dispatch oversized qUncompress) reading (ClosesAtOnce oversized) where
  keeps := dispatch_keepsUnless oversized qUncompress
  reads := by
    intro p r reads
    unfold dispatch
    split_ifs with frame clipboard auth terminal
    · refine iff_of_true ?_ fun c => absurd (frame.1.symm.trans c.type) (by decide)
      rwa [reading_of_link (link_handleFrameHeader ..)]
    · refine iff_of_true ?_ fun c => absurd (clipboard.1.symm.trans c.type) (by decide)
      rwa [reading_of_link (link_withText oversized link_applyClipboardText ..)]
    · exact reading_handleAuthResponse oversized reads auth.1 auth.2
    · refine iff_of_true ?_ fun c => absurd (terminal.1.symm.trans c.type) (by decide)
      rwa [reading_of_link (link_withText oversized link_appendTerminalOutput ..)]
    · exact iff_of_true reads fun c => auth ⟨c.type, c.payload⟩

/-- The buffer stays below the limit exactly on the streams in which no packet boundary before
a closing packet is followed by an overlong header. -/
theorem staysBelow_iff (s : Session) (connected : s.connected = true) (most : Nat)
    (stream : List UInt8) (some_byte : 0 < most) :
    StaysBelow (dispatch oversized qUncompress) reading s most stream ↔
      ∀ rest, ReachesBy (packetReader true) (fun p => ¬ ClosesAtOnce oversized s p) stream rest →
        ¬ Overlong rest :=
  (dispatch_readsUnless oversized qUncompress).staysBelow_iff_allowed
    (by rw [reading, connected, Bool.true_or]) some_byte stream

end Client

/-- A header announcing one byte more than the limit, and the limit in zeros. -/
def announcesTooMuch : List UInt8 :=
  encodeHeader .frameHeader 1 0 0x4000001 ++ List.replicate payloadLimit 0

def refusal : PacketStream.Message := (AgentPacketHandler.authResponse 1 false).message fun _ => 1

def connectedSession : Session := { newSession with connected := true }

theorem closesAtOnce_refusal : ClosesAtOnce (fun _ => 1) connectedSession refusal.packet where
  connected := rfl
  written := rfl
  type := rfl
  payload := AgentPacketHandler.payload_ne_nil _ (by decide)
  rejects := ⟨1, [], AgentPacketHandler.openPacket_message _ (by decide), by decide⟩

/-- Behind a refusal an overlong header is not read any more. -/
theorem staysBelow_iff_refusal :
    StaysBelow (dispatch (fun _ => 1) id) reading connectedSession 64
      (refusal.bytes ++ announcesTooMuch) := by
  have read := refusal.decode_bytes_append announcesTooMuch
  have item := (inspectPacket_eq_item_iff true _ _).mpr read
  refine (staysBelow_iff _ id _ rfl 64 _ (by decide)).mpr fun rest reached overlong => ?_
  cases reached with
  | refl =>
    have payload : refusal.payload.length = 17 := SealedMessage.length_sealPayload ..
    have same : refusal.packet.header.payloadSize.toNat =
        (payloadSizeOf (refusal.bytes ++ announcesTooMuch)).toNat :=
      congrArg (·.header.payloadSize.toNat) ((decode_eq_ok_iff _ _).mp read).2.2
    have size := refusal.size_packet (by omega)
    have announced := overlong.announced
    rw [payloadLimit] at announced
    omega
  | skip skipped _ =>
    rw [packetReader_inspect, item] at skipped
    cases skipped
  | item taken opened _ =>
    rw [packetReader_inspect, item] at taken
    obtain rfl := Verdict.item.inj taken
    exact opened closesAtOnce_refusal

theorem overlong_announcesTooMuch : Overlong announcesTooMuch where
  header := headerOk_header ..
  announced := by
    rw [announcesTooMuch, payloadSizeOf_header]
    decide
  arrived := by
    rw [announcesTooMuch, List.length_append, length_encodeHeader, List.length_replicate]
    exact Nat.le_refl _

/-- One read of it leaves all of it in the buffer. -/
theorem announcesTooMuch_kept :
    ¬ StaysBelow (dispatch (fun _ => 1) id) reading connectedSession announcesTooMuch.length
      announcesTooMuch := by
  intro below
  have waits := overlong_announcesTooMuch.waits.1
  have len : announcesTooMuch.length = bufferLimit := by
    rw [announcesTooMuch, List.length_append, length_encodeHeader, List.length_replicate]
    rfl
  rw [List.take_of_length_le (Nat.le_of_eq len)] at waits
  have whole : [announcesTooMuch].flatten = announcesTooMuch := List.append_nil _
  obtain ⟨r, returned, short⟩ := below [announcesTooMuch] (by simp) whole 1
    (announcesTooMuch.length + 1) (by omega)
  have stop := @receiveStep_wait _ (dispatch (fun _ => 1) id) ⟨connectedSession, announcesTooMuch⟩
    waits
  have call : onReadyRead (dispatch (fun _ => 1) id) (announcesTooMuch.length + 1)
      ⟨connectedSession, []⟩ announcesTooMuch = some ⟨connectedSession, announcesTooMuch⟩ :=
    WhileLoop.run_exit _ stop
  have open_ : reading connectedSession = true := rfl
  rw [List.take_of_length_le (by simp), readOpen, if_pos open_, call, Option.bind_some,
    readOpen] at returned
  rw [← Option.some.inj returned, len] at short
  exact Nat.lt_irrefl _ short

end RemoteAccess.ReceiveBuffer
