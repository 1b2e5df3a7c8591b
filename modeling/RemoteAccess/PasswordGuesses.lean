import RemoteAccess.AgentServer
import RemoteAccess.DeskId

/-! How many passwords one delivery can try. A handler that has rejected a password goes on
with its buffer, and all that it keeps of a password is the flag. -/

namespace RemoteAccess.PasswordGuesses

open History ProtocolCodec SealedMessage QtText AgentPacketHandler AgentServer

/-- The outcome an `AuthRequest` brings; an empty one brings none. -/
def guessOutcome (dynamicOtp : QString) (m : Plain) : Option Bool :=
  if m.type = .authRequest ∧ m.plaintext ≠ [] then some (passwordAccepted dynamicOtp m.plaintext)
  else none

def verdict (dynamicOtp : QString) (flag : Bool) (packets : List Plain) : Bool :=
  (latest (guessOutcome dynamicOtp) packets).getD flag

/-- What one packet leads to while the flag of its socket is `flag`. -/
def answer (host : Host) (isLoopback flag : Bool) (m : Plain) : List Effect :=
  match guessOutcome host.dynamicOtp m with
  | some granted =>
    .setAuthenticated granted :: .write (authResponse m.seq granted) ::
      if granted then [] else [.disconnectFromHost]
  | none =>
    if ¬ flag then []
    else if m.type = .inputEvent then handleInputEvent host ⟨flag, isLoopback⟩ m.plaintext
    else if m.type = .clipboardData then handleClipboardData host m.plaintext
    else if m.type = .sessionControl then handleSessionControl m.plaintext
    else []

/-- Each packet meets the latest verdict before it. -/
def answers (host : Host) (isLoopback : Bool) : Bool → List Plain → List Effect
  | _, [] => []
  | flag, m :: ms =>
    answer host isLoopback flag m ++
      answers host isLoopback (verdict host.dynamicOtp flag [m]) ms

variable {host : Host} {isLoopback flag : Bool}

theorem verdict_append (dynamicOtp : QString) (flag : Bool) (before after : List Plain) :
    verdict dynamicOtp flag (before ++ after) =
      verdict dynamicOtp (verdict dynamicOtp flag before) after := by
  rw [verdict, latest_append, verdict, verdict]
  cases latest (guessOutcome dynamicOtp) after <;> rfl

theorem answers_append (before after : List Plain) :
    answers host isLoopback flag (before ++ after) = answers host isLoopback flag before ++
      answers host isLoopback (verdict host.dynamicOtp flag before) after := by
  induction before generalizing flag with
  | nil => rfl
  | cons m before ih =>
    rw [List.cons_append, answers, ih, answers, List.append_assoc, ← verdict_append,
      List.singleton_append]

/-! ### The handler -/

variable (oversized : Nat → UInt64)

/-- The packet can be sealed and measured in 32 bits. -/
def Fits (m : Plain) : Prop :=
  headerSize + (m.plaintext.length + CryptoEngine.tagSize) < 2 ^ 32

instance (m : Plain) : Decidable (Fits m) := inferInstanceAs (Decidable (_ < _))

theorem handleClientPacket_answer {m : Plain} (fits : Fits m) (socket : ClientSocket) :
    handleClientPacket oversized host socket (m.message oversized).packet =
      ({ socket with authenticated := verdict host.dynamicOtp socket.authenticated [m] },
        answer host socket.isLoopback socket.authenticated m) := by
  have single : verdict host.dynamicOtp socket.authenticated [m] =
      (guessOutcome host.dynamicOtp m).getD socket.authenticated := by
    rw [verdict, latest]
    cases outcome : guessOutcome host.dynamicOtp m <;> simp [outcome]
  rw [handleClientPacket_message oversized (by rw [Fits] at fits; omega), single, answer,
    guessOutcome]
  by_cases auth : m.type = .authRequest
  · by_cases empty : m.plaintext = []
    · have notInput : PayloadType.authRequest ≠ .inputEvent := by decide
      have notClipboard : PayloadType.authRequest ≠ .clipboardData := by decide
      have notControl : PayloadType.authRequest ≠ .sessionControl := by decide
      simp [auth, empty, notInput, notClipboard, notControl]
    · simp [auth, empty]
  · simp only [auth, false_and, if_false, Option.getD_none]
    split_ifs <;> rfl

/-! ### Runs -/

def During : Event → Prop
  | .pass | .disconnected _ | .closed _ | .frameCaptured _ => True
  | .newConnection _ | .readyRead _ _ | .frameDelivered => False

def isPass : Event → Bool
  | .pass => true
  | _ => false

def passes (events : List Event) : Nat := events.countP isPass

variable (qCompress : List UInt8 → List UInt8)

theorem step_during {s t : Agent} {event : Event} (during : During event)
    (other : isPass event = false)
    (stepped : step oversized qCompress host s event = some t) :
    t.reading = s.reading ∧ t.sockets = s.sockets ∧ t.log = s.log := by
  cases steps_of_step oversized qCompress host stepped with
  | disconnected | closed | unwatched | captured => exact ⟨rfl, rfl, rfl⟩
  | returned | handled => cases other
  | newConnection | readyRead | delivered => cases during

theorem run_returned {s t : Agent} {events : List Event} (during : ∀ e ∈ events, During e)
    (returned : s.reading = none)
    (ran : Transitions.run (step oversized qCompress host) s events = some t) :
    passes events = 0 ∧ t.reading = none ∧ t.sockets = s.sockets ∧ t.log = s.log := by
  induction events generalizing s with
  | nil =>
    obtain rfl := Option.some.inj ran
    exact ⟨rfl, returned, rfl, rfl⟩
  | cons event events ih =>
    obtain ⟨here, later⟩ := List.forall_mem_cons.mp during
    rw [Transitions.run, List.foldlM_cons, Option.bind_eq_bind, Option.bind_eq_some_iff] at ran
    obtain ⟨between, stepped, ran⟩ := ran
    cases pass : isPass event with
    | true =>
      cases event <;> cases pass
      rw [step, returned] at stepped
      cases stepped
    | false =>
      obtain ⟨reading, sockets, log⟩ := step_during oversized qCompress here pass stepped
      obtain ⟨none_left, idle, sockets', log'⟩ := ih later (reading.trans returned) ran
      refine ⟨?_, idle, sockets'.trans sockets, log'.trans log⟩
      rw [passes, List.countP_cons, pass]
      exact none_left

def stream (ms : List Plain) : List UInt8 := (ms.map fun m => (m.message oversized).bytes).flatten

/-- What has become of a delivery after some of the events that follow it. -/
structure Handled (host : Host) (id : SocketId) (socket : ClientSocket) (ms : List Plain)
    (s t : Agent) (count : Nat) : Prop where
  returned : t.reading = none ↔ ms.length < count
  known : t.sockets id = some { socket with
    authenticated := verdict host.dynamicOtp socket.authenticated (ms.take count) }
  log : t.log = s.log ++ (answers host socket.isLoopback socket.authenticated
    (ms.take count)).map (Entry.effect id)

theorem run_handled {s t : Agent} {id : SocketId} {socket : ClientSocket} {ms : List Plain}
    {events : List Event} (sizes : ∀ m ∈ ms, Fits m) (during : ∀ e ∈ events, During e)
    (reading : s.reading = some (id, stream oversized ms)) (known : s.sockets id = some socket)
    (ran : Transitions.run (step oversized qCompress host) s events = some t) :
    Handled host id socket ms s t (passes events) := by
  induction events generalizing s socket ms with
  | nil =>
    obtain rfl := Option.some.inj ran
    refine ⟨by simp [reading, passes], ?_, by simp [passes, answers]⟩
    simpa [passes, verdict, latest] using known
  | cons event events ih =>
    obtain ⟨here, later⟩ := List.forall_mem_cons.mp during
    rw [Transitions.run, List.foldlM_cons, Option.bind_eq_bind, Option.bind_eq_some_iff] at ran
    obtain ⟨between, stepped, ran⟩ := ran
    cases pass : isPass event with
    | false =>
      have same : passes (event :: events) = passes events := by
        rw [passes, List.countP_cons, pass]
        rfl
      obtain ⟨reading', sockets, log⟩ := step_during oversized qCompress here pass stepped
      obtain ⟨returned, known, log'⟩ := ih sizes later (reading'.trans reading)
        ((congrFun sockets id).trans known) ran
      rw [same]
      exact ⟨returned, known, log'.trans (by rw [log])⟩
    | true =>
      have more : passes (event :: events) = passes events + 1 := by
        rw [passes, List.countP_cons, pass]
        rfl
      cases event <;> cases pass
      cases ms with
      | nil =>
        have left := step_pass_empty oversized qCompress host reading
        obtain rfl := Option.some.inj (left.symm.trans stepped)
        obtain ⟨empty, idle, sockets, log⟩ := run_returned oversized qCompress later rfl ran
        rw [more, empty]
        refine ⟨by simp [idle], ?_, by simp [log, answers]⟩
        simpa [sockets, verdict, latest] using known
      | cons m ms =>
        obtain ⟨fits, sizes⟩ := List.forall_mem_cons.mp sizes
        obtain ⟨next, first, reading', known', log⟩ :=
          step_pass_sealed oversized qCompress host reading known fits
            (handleClientPacket_answer oversized fits socket)
        obtain rfl := Option.some.inj (first.symm.trans stepped)
        obtain ⟨returned, known, log'⟩ := ih sizes later reading' known' ran
        have flags := verdict_append host.dynamicOtp socket.authenticated [m]
          (ms.take (passes events))
        rw [more]
        refine ⟨by rw [returned, List.length_cons, Nat.add_lt_add_iff_right], ?_, ?_⟩
        · rw [known, List.take_succ_cons, ← flags, List.singleton_append]
        · rw [log', log, List.take_succ_cons, answers, List.map_append, List.append_assoc]

/-- The passes alone go through the whole delivery. -/
theorem run_passes {s : Agent} {id : SocketId} {socket : ClientSocket} {ms : List Plain}
    (sizes : ∀ m ∈ ms, Fits m) (reading : s.reading = some (id, stream oversized ms))
    (known : s.sockets id = some socket) :
    ∃ t, Transitions.run (step oversized qCompress host) s
      (List.replicate (ms.length + 1) .pass) = some t := by
  induction ms generalizing s socket with
  | nil =>
    rw [List.length_nil, List.replicate_one, Transitions.run, List.foldlM_cons,
      step_pass_empty oversized qCompress host reading]
    exact ⟨_, rfl⟩
  | cons m ms ih =>
    obtain ⟨fits, sizes⟩ := List.forall_mem_cons.mp sizes
    obtain ⟨next, first, reading', known', -⟩ :=
      step_pass_sealed oversized qCompress host reading known fits
        (handleClientPacket_answer oversized fits socket)
    obtain ⟨t, ran⟩ := ih sizes reading' known'
    rw [List.length_cons, List.replicate_succ, Transitions.run, List.foldlM_cons, first]
    exact ⟨t, ran⟩

theorem run_delivery {s : Agent} {id : SocketId} {socket : ClientSocket} {ms : List Plain}
    (sizes : ∀ m ∈ ms, Fits m) (idle : s.reading = none) (known : s.sockets id = some socket) :
    ∃ t, Transitions.run (step oversized qCompress host) s
        (.readyRead id (stream oversized ms) :: List.replicate (ms.length + 1) .pass) = some t ∧
      t.reading = none ∧
      t.log = s.log ++ (answers host socket.isLoopback socket.authenticated ms).map
        (Entry.effect id) := by
  obtain ⟨started, arrived, reading, known', log⟩ :=
    step_readyRead oversized qCompress host idle known (stream oversized ms)
  obtain ⟨t, ran⟩ := @run_passes host oversized qCompress _ _ _ _ sizes reading known'
  have during : ∀ e ∈ List.replicate (ms.length + 1) Event.pass, During e := by
    intro e member
    rw [List.eq_of_mem_replicate member]
    trivial
  have count : passes (List.replicate (ms.length + 1) .pass) = ms.length + 1 := by
    rw [passes, List.countP_replicate, isPass, if_pos rfl]
  obtain ⟨returned, -, log'⟩ := run_handled oversized qCompress sizes during reading known' ran
  rw [count, log, List.take_of_length_le (Nat.le_succ _)] at log'
  rw [count] at returned
  refine ⟨t, ?_, returned.mpr (Nat.lt_succ_self _), log'⟩
  rw [Transitions.run, List.foldlM_cons, arrived]
  exact ran

/-- Every password of a delivery is tried, in turn and whatever came of the ones before it,
also on a socket that has been closed meanwhile; and every other packet is let in or not by
the latest of them. -/
theorem every_password_is_tried (host : Host) (s : Agent) (id : SocketId) (socket : ClientSocket)
    (ms : List Plain) (idle : s.reading = none) (known : s.sockets id = some socket)
    (sizes : ∀ m ∈ ms, Fits m) :
    (∃ t, Transitions.run (step oversized qCompress host) s
      (.readyRead id (stream oversized ms) :: List.replicate (ms.length + 1) .pass) = some t) ∧
    ∀ (events : List Event) (t : Agent), (∀ e ∈ events, During e) →
      Transitions.run (step oversized qCompress host) s
        (.readyRead id (stream oversized ms) :: events) = some t →
      Handled host id socket ms s t (passes events) ∧
      ∀ before m after, ms.take (passes events) = before ++ m :: after →
        t.log = s.log ++ (answers host socket.isLoopback socket.authenticated before ++
          answer host socket.isLoopback
            (verdict host.dynamicOtp socket.authenticated before) m ++
          answers host socket.isLoopback
            (verdict host.dynamicOtp socket.authenticated (before ++ [m])) after).map
              (Entry.effect id) := by
  obtain ⟨started, arrived, reading, known', log⟩ :=
    step_readyRead oversized qCompress host idle known (stream oversized ms)
  constructor
  · obtain ⟨t, ran⟩ := run_passes oversized qCompress sizes reading known'
    rw [Transitions.run, List.foldlM_cons, arrived]
    exact ⟨t, ran⟩
  · intro events t during ran
    rw [Transitions.run, List.foldlM_cons, arrived, Option.bind_eq_bind, Option.bind_some] at ran
    obtain ⟨returned, flag, log'⟩ :=
      run_handled oversized qCompress sizes during reading known' ran
    rw [log] at log'
    refine ⟨⟨returned, flag, log'⟩, fun before m after split => ?_⟩
    rw [log', split, answers_append, answers, verdict_append, List.append_assoc]

theorem every_password_is_tried_three :
    ∃ s t : Agent,
      run (fun _ => 1) id ⟨true, true, literal ['1', '2', '3', '4', '5', '6']⟩
        [.newConnection [⟨false, literal ['1', '0', '.', '0', '.', '0', '.', '2']⟩]] = some s ∧
      Transitions.run (step (fun _ => 1) id
          ⟨true, true, literal ['1', '2', '3', '4', '5', '6']⟩) s
        (.readyRead 0 (stream (fun _ => 1) [wrongPassword, rightPassword, pointerMove]) ::
          List.replicate 4 .pass) = some t ∧
      t.log = [.accepted 0 false] ++ [.effect 0 (.setAuthenticated false),
        .effect 0 (.write (authResponse 1 false)), .effect 0 .disconnectFromHost,
        .effect 0 (.setAuthenticated true), .effect 0 (.write (authResponse 2 true)),
        .effect 0 (.injectEvent (eventOf pointerMove.plaintext))] := by
  set host : Host := ⟨true, true, literal ['1', '2', '3', '4', '5', '6']⟩
  have wrong : guessOutcome host.dynamicOtp wrongPassword = some false := by decide
  have right : guessOutcome host.dynamicOtp rightPassword = some true := by decide
  have quiet : guessOutcome host.dynamicOtp pointerMove = none := by decide
  obtain ⟨s, connected, idle, known, log⟩ : ∃ s, step (fun _ => 1) id host initial
      (.newConnection [⟨false, literal ['1', '0', '.', '0', '.', '0', '.', '2']⟩]) = some s ∧
        s.reading = none ∧ s.sockets 0 = some ⟨false, false⟩ ∧ s.log = [.accepted 0 false] :=
    ⟨_, rfl, rfl, rfl, rfl⟩
  have sizes : ∀ m ∈ [wrongPassword, rightPassword, pointerMove], Fits m := by
    intro m member
    simp only [List.mem_cons, List.not_mem_nil, or_false] at member
    rcases member with rfl | rfl | rfl <;> decide
  obtain ⟨⟨t, ran⟩, all⟩ := every_password_is_tried (fun _ => 1) id host s 0 ⟨false, false⟩
    [wrongPassword, rightPassword, pointerMove] idle known sizes
  obtain ⟨handled, -⟩ := all (List.replicate 4 .pass) t (by simp [During]) ran
  refine ⟨s, t, ?_, ran, ?_⟩
  · rw [run, Transitions.run, List.foldlM_cons, connected]
    rfl
  · rw [handled.log, log]
    simp only [passes, List.replicate, List.countP_cons, isPass, List.countP_nil, if_true,
      List.take_succ_cons, List.take_nil, answers, answer, verdict, latest, wrong,
      right, quiet, List.filterMap_cons, List.filterMap_nil]
    rfl

/-! ### All one-time passwords in one delivery -/

/-- What `QRandomGenerator::bounded(100000, 999999)` can draw, as text. -/
def dynamicOtps : List QString := (List.range' 100000 899999).map DeskId.number

def guess (text : QString) : Plain := ⟨.authRequest, 1, 0, toUtf8 text⟩

/-- Each password that can be drawn, with the same packet behind it. -/
def search (action : Plain) : List Plain :=
  dynamicOtps.flatMap fun text => [guess text, action]

theorem number_injective {n k : Nat} (same : DeskId.number n = DeskId.number k) : n = k := by
  rw [← DeskId.value_number n, same, DeskId.value_number]

theorem number_ne_nil {n : Nat} (positive : 0 < n) : DeskId.number n ≠ [] := by
  intro empty
  have zero := DeskId.value_number n
  rw [empty] at zero
  exact absurd zero (Nat.ne_of_lt positive)

theorem number_ne_masterPassword (n : Nat) : DeskId.number n ≠ masterPassword := by
  intro same
  have letter : (0x61 : UInt16) ∈ DeskId.number n := same ▸ by decide
  exact absurd (DeskId.number_digits _ letter).2 (by decide)

theorem length_toUtf8_number {n : Nat} (small : n < 1000000) :
    (toUtf8 (DeskId.number n)).length ≤ 6 := by
  have ascii : ∀ u ∈ DeskId.number n, u.toNat < 0x80 := by
    intro u found
    have digit := DeskId.number_digits u found
    omega
  have own : ∀ u ∈ DeskId.number n, QtUtf8.isOwn u = true := by
    intro u found
    have clear := AcceptedPasswords.isClear_of_digit (DeskId.number_digits u found)
    simp only [AcceptedPasswords.isClear, Bool.and_eq_true] at clear
    exact clear.1.1.2
  have most := (@Nat.length_toDigits_le_iff 10 n 6 (by decide) (by decide)).mpr small
  rw [DeskId.toUtf8_ascii own ascii, List.length_map, DeskId.number, literal, List.length_map]
  exact most

theorem read_number {n : Nat} (small : n < 1000000) :
    removeSpaces (trimmed (fromUtf8 (toUtf8 (DeskId.number n))
      (intOfSize (toUtf8 (DeskId.number n)).length))) = DeskId.number n := by
  have short := length_toUtf8_number small
  have clear : ∀ u ∈ DeskId.number n, AcceptedPasswords.isClear u = true :=
    fun u found => AcceptedPasswords.isClear_of_digit (DeskId.number_digits u found)
  refine (AcceptedPasswords.password_eq_iff (by omega) clear).mpr
    ⟨DeskId.number n, ⟨[], DeskId.number n, [], ?_, by simp, by simp, ?_⟩, .inl rfl⟩
  · rw [List.nil_append, List.append_nil]
  · exact DeskId.removeSpaces_number fun u found => found

theorem passwordAccepted_number {n k : Nat} (positive : 0 < n) (small : n < 1000000) :
    passwordAccepted (DeskId.number k) (toUtf8 (DeskId.number n)) = decide (n = k) := by
  have same : DeskId.number n = DeskId.number k ↔ n = k :=
    ⟨number_injective, fun same => same ▸ rfl⟩
  rw [passwordAccepted, read_number small, DeskId.removeSpaces_number fun u found => found,
    Bool.eq_iff_iff]
  simp [same, number_ne_masterPassword, number_ne_nil positive]

theorem answer_action {action : Plain} (acts : action.type ≠ .authRequest) :
    answer host isLoopback false action = [] ∧
      ∀ e ∈ answer host isLoopback true action, e.privileged = true := by
  have quiet : guessOutcome host.dynamicOtp action = none := if_neg fun both => acts both.1
  rw [answer, answer, quiet]
  refine ⟨rfl, ?_⟩
  simp only [not_true_eq_false, if_false]
  split_ifs
  · unfold handleInputEvent
    split_ifs <;> simp [Effect.privileged]
  · unfold handleClipboardData
    split_ifs <;> simp [Effect.privileged]
  · unfold handleSessionControl
    dsimp only
    split_ifs <;> simp [Effect.privileged]
  · simp

theorem answers_pair {action : Plain} (acts : action.type ≠ .authRequest) {n k : Nat}
    (drawn : host.dynamicOtp = DeskId.number k) (positive : 0 < n) (small : n < 1000000) :
    (answers host isLoopback flag [guess (DeskId.number n), action]).filter Effect.privileged =
        (if n = k then answer host isLoopback true action else []) ∧
      verdict host.dynamicOtp flag [guess (DeskId.number n), action] = decide (n = k) := by
  have filled : toUtf8 (DeskId.number n) ≠ [] :=
    mt (toUtf8_eq_nil_iff _).mp (number_ne_nil positive)
  have outcome :
      guessOutcome host.dynamicOtp (guess (DeskId.number n)) = some (decide (n = k)) := by
    rw [guessOutcome, if_pos ⟨rfl, filled⟩, drawn]
    exact congrArg some (passwordAccepted_number positive small)
  have quiet : guessOutcome host.dynamicOtp action = none := if_neg fun both => acts both.1
  have flagged : verdict host.dynamicOtp flag [guess (DeskId.number n)] = decide (n = k) := by
    simp [verdict, latest, outcome]
  obtain ⟨refused, done⟩ := @answer_action host isLoopback action acts
  constructor
  · rw [answers, answers, answers, flagged, answer, outcome, List.append_nil, List.filter_append]
    by_cases found : n = k
    · simp only [found, decide_true, if_true]
      rw [List.filter_eq_self.mpr done]
      rfl
    · simp only [found, decide_false, if_false]
      rw [refused]
      rfl
  · rw [← List.singleton_append, verdict_append, flagged]
    simp [verdict, latest, quiet]

theorem answers_search {action : Plain} (acts : action.type ≠ .authRequest) {k : Nat}
    (drawn : host.dynamicOtp = DeskId.number k) {numbers : List Nat}
    (range : ∀ n ∈ numbers, 0 < n ∧ n < 1000000) :
    (answers host isLoopback flag
        (numbers.flatMap fun n => [guess (DeskId.number n), action])).filter Effect.privileged =
      numbers.flatMap fun n => if n = k then answer host isLoopback true action else [] := by
  induction numbers generalizing flag with
  | nil => rfl
  | cons n numbers ih =>
    obtain ⟨⟨positive, small⟩, range⟩ := List.forall_mem_cons.mp range
    obtain ⟨here, -⟩ := @answers_pair host isLoopback flag action acts n k drawn positive small
    rw [List.flatMap_cons, List.flatMap_cons, answers_append, List.filter_append, here, ih range]

theorem flatMap_once {β : Type*} {numbers : List Nat} {k : Nat} (once : numbers.Nodup)
    (member : k ∈ numbers) (ys : List β) :
    (numbers.flatMap fun n => if n = k then ys else []) = ys := by
  obtain ⟨before, after, rfl⟩ := List.append_of_mem member
  have apart : ∀ n ∈ before ++ after, n ≠ k := by
    rintro n among rfl
    exact (List.nodup_cons.mp (List.nodup_middle.mp once)).1 among
  have others (part : List Nat) (within : ∀ n ∈ part, n ∈ before ++ after) :
      (part.flatMap fun n => if n = k then ys else []) = [] :=
    List.flatMap_eq_nil_iff.mpr fun n among => if_neg (apart n (within n among))
  rw [List.flatMap_append, List.flatMap_cons, if_pos rfl,
    others before fun n among => List.mem_append_left _ among,
    others after fun n among => List.mem_append_right _ among, List.nil_append, List.append_nil]

theorem mem_numbers {n : Nat} :
    n ∈ List.range' 100000 899999 ↔ 100000 ≤ n ∧ n < 999999 := by
  rw [List.mem_range'_1]

theorem mem_dynamicOtps {text : QString} :
    text ∈ dynamicOtps ↔ ∃ n, (100000 ≤ n ∧ n < 999999) ∧ DeskId.number n = text := by
  simp only [dynamicOtps, List.mem_map, mem_numbers]

theorem search_eq (action : Plain) : search action =
    (List.range' 100000 899999).flatMap fun n => [guess (DeskId.number n), action] := by
  rw [search, dynamicOtps, List.flatMap_map]

theorem search_fits {action : Plain} (fits : Fits action) : ∀ m ∈ search action, Fits m := by
  intro m member
  rw [search_eq, List.mem_flatMap] at member
  obtain ⟨n, among, found⟩ := member
  rw [List.mem_cons, List.mem_singleton] at found
  obtain rfl | rfl := found
  · have short := @length_toUtf8_number n (by have bounds := mem_numbers.mp among; omega)
    change headerSize + ((toUtf8 (DeskId.number n)).length + CryptoEngine.tagSize) < 2 ^ 32
    simp only [headerSize, CryptoEngine.tagSize]
    omega
  · exact fits

/-- Whatever one-time password the agent has drawn, a delivery that tries them all, with the
same packet behind each, has that packet's effects once. -/
theorem one_delivery_finds_the_password (host : Host) (s : Agent) (id : SocketId)
    (socket : ClientSocket) (action : Plain) (idle : s.reading = none)
    (known : s.sockets id = some socket)
    (drawn : host.dynamicOtp ∈ dynamicOtps) (fits : Fits action)
    (acts : action.type ≠ .authRequest) :
    ∃ (t : Agent) (effects : List Effect),
      Transitions.run (step oversized qCompress host) s
        (.readyRead id (stream oversized (search action)) ::
          List.replicate ((search action).length + 1) .pass) = some t ∧
      t.reading = none ∧ t.log = s.log ++ effects.map (Entry.effect id) ∧
      effects.filter Effect.privileged = answer host socket.isLoopback true action := by
  obtain ⟨k, among, otp⟩ := mem_dynamicOtps.mp drawn
  obtain ⟨t, ran, returned, log⟩ := @run_delivery host oversized qCompress s id socket
    (search action) (search_fits fits) idle known
  refine ⟨t, _, ran, returned, log, ?_⟩
  have range : ∀ n ∈ List.range' 100000 899999, 0 < n ∧ n < 1000000 := by
    intro n member
    have bounds := mem_numbers.mp member
    omega
  rw [search_eq, answers_search acts otp.symm range,
    flatMap_once (List.nodup_range' _) (mem_numbers.mpr among)]

/-- A pointer move gets through to a host whose password is `123456`. -/
theorem one_delivery_finds_the_password_move :
    ∃ (s t : Agent) (effects : List Effect),
      run (fun _ => 1) id ⟨true, true, DeskId.number 123456⟩
        [.newConnection [⟨false, literal ['1', '0', '.', '0', '.', '0', '.', '2']⟩]] = some s ∧
      t.log = s.log ++ effects.map (Entry.effect 0) ∧
      effects.filter Effect.privileged = [.injectEvent (eventOf pointerMove.plaintext)] := by
  obtain ⟨s, connected, idle, known⟩ : ∃ s, step (fun _ => 1) id
      ⟨true, true, DeskId.number 123456⟩ initial
      (.newConnection [⟨false, literal ['1', '0', '.', '0', '.', '0', '.', '2']⟩]) = some s ∧
        s.reading = none ∧ s.sockets 0 = some ⟨false, false⟩ :=
    ⟨_, rfl, rfl, rfl⟩
  have drawn : DeskId.number 123456 ∈ dynamicOtps :=
    mem_dynamicOtps.mpr ⟨123456, by omega, rfl⟩
  obtain ⟨t, effects, -, -, log, found⟩ := one_delivery_finds_the_password (fun _ => 1) id
    ⟨true, true, DeskId.number 123456⟩ s 0 ⟨false, false⟩ pointerMove idle known drawn
    (by decide) (by decide)
  refine ⟨s, t, effects, ?_, log, found⟩
  rw [run, Transitions.run, List.foldlM_cons, connected]
  rfl

end RemoteAccess.PasswordGuesses
