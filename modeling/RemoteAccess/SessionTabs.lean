import Mathlib.Data.List.InsertIdx
import RemoteAccess.ReconnectRuns

/-! The tabs of the desktop session view. The client has one connection; the view keeps the
position of the tab that it belongs to. What the view does with the chat is left out. -/

namespace RemoteAccess.SessionTabs

open QtText SessionConnection ReconnectRuns

/-- An element of `sessionTabsModel`. The number is not in the model: it says which tab it is,
wherever it stands. -/
structure Tab where
  id : Nat
  title : QString
  targetHost : QString
  connected : Bool
deriving DecidableEq

structure View where
  tabs : List Tab
  activeTabIndex : Int
  activeConnectedTabIndex : Int
  renderGated : Bool
  client : Client
  /-- The number of the next tab. -/
  nextId : Nat
  /-- The tab from which the client was last told to connect. -/
  opened : Option Nat

def defaultHost : QString := literal ['1', '1', '5', ' ', '6', '0', '4', ' ', '6', '6', '9']

def start (history : List HistoryRecord) : View where
  tabs := [⟨0, literal ['N', 'e', 'w', ' ', 'S', 'e', 's', 's', 'i', 'o', 'n'], defaultHost, false⟩]
  activeTabIndex := 0
  activeConnectedTabIndex := -1
  renderGated := false
  client := SessionConnection.start history
  nextId := 1
  opened := none

/-- `sessionTabsModel.count`. -/
def View.count (v : View) : Int := v.tabs.length

def View.isCurrentTabConnected (v : View) : Prop :=
  v.client.isConnected = true ∧ v.activeTabIndex = v.activeConnectedTabIndex

instance (v : View) : Decidable v.isCurrentTabConnected := by
  unfold View.isCurrentTabConnected
  infer_instance

/-- An assignment to `activeTabIndex`, with `onActiveTabIndexChanged`. -/
def View.setActiveTabIndex (v : View) (index : Int) : View :=
  { v with
    activeTabIndex := index
    renderGated :=
      if index ≠ v.activeTabIndex ∧ v.client.isConnected then
        decide (index ≠ v.activeConnectedTabIndex)
      else v.renderGated }

/-! ### The connection -/

/-- Whether `connectionStateChanged(false)` is emitted: by `onDisconnected`, and by
`onErrorOccurred` when no retries are going on. -/
def notifies (c : Client) (e : Event) : Bool :=
  match e.action with
  | .connectToHost .. | .connectByP2PId .. => decide c.Established
  | .disconnectFromHost => decide c.Established && !e.out.dataPending
  | .cancelReconnect => false
  | .connected => decide (c.socket = .connecting true) && !e.out.dataPending
  | .attemptFailed => !c.isReconnecting
  | .connectionLost | .closed => true
  | .timerFired =>
    !(c.userInitiatedDisconnect || c.lastHost.isEmpty) && decide (c.socket ≠ .unconnected) &&
      !c.isReconnecting

/-- `onIsConnectedChanged` when `isConnected` is false. -/
def View.onIsConnectedChanged (v : View) : View :=
  { v with
    activeConnectedTabIndex := -1
    tabs := v.tabs.map fun tab => { tab with connected := false } }

def View.setClient (v : View) (c : Client) : View := { v with client := c }

/-- The client does something, and the view hears of it. -/
def View.perform (v : View) (e : Event) : Option View :=
  (SessionConnection.step v.client e).map fun c =>
    if notifies v.client e then (v.setClient c).onIsConnectedChanged else v.setClient c

/-! ### The buttons -/

/-- White space and line ends of ECMAScript. -/
def isWhiteSpace (u : UInt16) : Bool :=
  u == 0x20 || (9 ≤ u && u ≤ 13) || u == 0xA0 || u == 0x1680 || (0x2000 ≤ u && u ≤ 0x200A) ||
    u == 0x2028 || u == 0x2029 || u == 0x202F || u == 0x205F || u == 0x3000 || u == 0xFEFF

def trim (text : QString) : QString :=
  ((text.dropWhile isWhiteSpace).reverse.dropWhile isWhiteSpace).reverse

/-- `replace(/\s+/g, '')`. -/
def withoutSpaces (text : QString) : QString := text.filter fun u => !isWhiteSpace u

def colon : UInt16 := 0x3A

/-- The first two parts of `split(":")`. -/
def parts (rawTarget : QString) : QString × QString :=
  (rawTarget.takeWhile (· ≠ colon),
    ((rawTarget.dropWhile (· ≠ colon)).drop 1).takeWhile (· ≠ colon))

def newTab (v : View) : View :=
  let newIdx := v.count + 1
  let title := literal ['S', 'e', 's', 's', 'i', 'o', 'n', ' '] ++ number newIdx
  let tab : Tab := ⟨v.nextId, title, defaultHost, false⟩
  let v := { v with tabs := v.tabs ++ [tab], nextId := v.nextId + 1 }
  v.setActiveTabIndex (v.count - 1)

/-- The element is removed, and the active tab is still one of the others. -/
def View.remove (v : View) (removeIdx : Nat) : View :=
  let v := { v with tabs := v.tabs.eraseIdx removeIdx }
  if v.activeTabIndex ≥ v.count then v.setActiveTabIndex (max 0 (v.count - 1)) else v

def View.clearConnectedTab (v : View) : View := { v with activeConnectedTabIndex := -1 }

def disconnect (v : View) (out : Outside) : Option View :=
  (v.perform ⟨.disconnectFromHost, out⟩).map View.clearConnectedTab

def closeTab (v : View) (removeIdx : Nat) (out : Outside) : Option View :=
  let v := v.remove removeIdx
  if (removeIdx : Int) = v.activeConnectedTabIndex then disconnect v out else some v

/-- Another tab that is connected to the same target. -/
def existingTab (v : View) (cleanTarget : QString) : Option Nat :=
  (List.range v.tabs.length).find? fun i => (v.tabs[i]?).any fun tab =>
    decide ((i : Int) ≠ v.activeTabIndex) && tab.connected &&
      decide (withoutSpaces tab.targetHost = cleanTarget)

/-- The active tab becomes the connected one, with its title and its target. -/
def View.claim (v : View) (rawTarget : QString) : View :=
  { v with
    activeConnectedTabIndex := v.activeTabIndex
    tabs := v.tabs.modify v.activeTabIndex.toNat fun tab =>
      { tab with title := rawTarget, targetHost := rawTarget, connected := true }
    opened := (v.tabs[v.activeTabIndex.toNat]?).map Tab.id }

section

-- `parseInt`, and what is made of its result for a port
variable (portOf : QString → UInt16)

def connectAction (rawTarget reqPassword : QString) : Action :=
  if colon ∈ rawTarget then
    .connectToHost (parts rawTarget).1 (portOf (parts rawTarget).2) reqPassword
  else .connectByP2PId rawTarget reqPassword

/-- `btnConnectRemote`. -/
def connectRemote (v : View) (targetId targetPassword : QString) (out : Outside) : Option View :=
  let rawTarget := trim targetId
  let reqPassword := trim targetPassword
  if rawTarget = [] then some v else
  match existingTab v (withoutSpaces rawTarget) with
  | some i => some (v.setActiveTabIndex i)
  | none => (v.claim rawTarget).perform ⟨connectAction portOf rawTarget reqPassword, out⟩

/-! ### Runs -/

inductive Input
  | newTab
  | selectTab (index : Nat)
  | closeTab (index : Nat) (out : Outside)
  | connectRemote (targetId targetPassword : QString) (out : Outside)
  | disconnect (out : Outside)
  | cancelReconnect (out : Outside)
  /-- The socket or the timer does something. -/
  | network (e : Event)
  | passwordRejected (out : Outside)

def IsNetwork : Action → Bool
  | .connected | .attemptFailed | .connectionLost | .closed | .timerFired => true
  | _ => false

/-- A button that is not shown is not pressed. -/
def step (v : View) : Input → Option View
  | .newTab => some (newTab v)
  | .selectTab index => if index < v.tabs.length then some (v.setActiveTabIndex index) else none
  | .closeTab index out =>
    if 1 < v.tabs.length ∧ index < v.tabs.length then closeTab v index out else none
  | .connectRemote targetId targetPassword out =>
    if v.isCurrentTabConnected then none
    else connectRemote portOf v targetId targetPassword out
  | .disconnect out => if v.isCurrentTabConnected then disconnect v out else none
  | .cancelReconnect out =>
    if v.client.isReconnecting then v.perform ⟨.cancelReconnect, out⟩ else none
  | .network e => if IsNetwork e.action then v.perform e else none
  | .passwordRejected out =>
    if v.client.Established then
      (v.setClient { v.client with statusText := .authenticationFailed }).perform
        ⟨.disconnectFromHost, out⟩
    else none

def run (v : View) (inputs : List Input) : Option View := Transitions.run (step portOf) v inputs

end

/-! ### What the tabs are -/

def View.ids (v : View) : List Nat := v.tabs.map Tab.id

section Fields

variable (v : View)

@[simp] theorem onIsConnectedChanged_ids : v.onIsConnectedChanged.ids = v.ids := by
  simp [View.onIsConnectedChanged, View.ids, Function.comp_def]

theorem newTab_ids : (newTab v).ids = v.ids ++ [v.nextId] := by
  simp [newTab, View.setActiveTabIndex, View.ids]

theorem count_eq_length_ids : v.count = v.ids.length := by
  rw [View.count, View.ids, List.length_map]

theorem remove_eq (removeIdx : Nat) :
    (v.remove removeIdx).client = v.client ∧
      (v.remove removeIdx).ids = v.ids.eraseIdx removeIdx ∧
      (v.remove removeIdx).activeConnectedTabIndex = v.activeConnectedTabIndex ∧
      (v.remove removeIdx).opened = v.opened ∧ (v.remove removeIdx).nextId = v.nextId := by
  have ids : (v.tabs.eraseIdx removeIdx).map Tab.id = v.ids.eraseIdx removeIdx :=
    (List.eraseIdx_map ..).symm
  unfold View.remove
  dsimp only
  split <;> exact ⟨rfl, ids, rfl, rfl, rfl⟩

theorem remove_activeTabIndex (removeIdx : Nat) :
    (v.remove removeIdx).activeTabIndex =
      let count : Int := (v.tabs.eraseIdx removeIdx).length
      if v.activeTabIndex ≥ count then max 0 (count - 1) else v.activeTabIndex := by
  unfold View.remove
  exact apply_ite View.activeTabIndex _ _ _

@[simp] theorem claim_ids (rawTarget : QString) : (v.claim rawTarget).ids = v.ids := by
  refine List.ext_getElem? fun i => ?_
  simp only [View.claim, View.ids, List.getElem?_map, List.getElem?_modify]
  split <;> cases v.tabs[i]? <;> rfl

end Fields

variable {portOf : QString → UInt16} {v w : View} {c d : Client} {e : Event} {out : Outside}

theorem perform_cases (performed : v.perform e = some w) :
    ∃ d, SessionConnection.step v.client e = some d ∧
      (notifies v.client e = true ∧ w = (v.setClient d).onIsConnectedChanged ∨
        notifies v.client e = false ∧ w = v.setClient d) := by
  obtain ⟨d, stepped, rfl⟩ := Option.map_eq_some_iff.mp performed
  refine ⟨d, stepped, ?_⟩
  cases told : notifies v.client e
  · exact .inr ⟨rfl, rfl⟩
  · exact .inl ⟨rfl, rfl⟩

theorem perform_frame (performed : v.perform e = some w) :
    w.ids = v.ids ∧ w.activeTabIndex = v.activeTabIndex ∧ w.opened = v.opened ∧
      w.nextId = v.nextId ∧ SessionConnection.step v.client e = some w.client := by
  obtain ⟨d, stepped, ⟨-, rfl⟩ | ⟨-, rfl⟩⟩ := perform_cases performed
  · exact ⟨onIsConnectedChanged_ids _, rfl, rfl, rfl, stepped⟩
  · exact ⟨rfl, rfl, rfl, rfl, stepped⟩

theorem disconnect_cases (disconnected : disconnect v out = some w) :
    w.ids = v.ids ∧ w.activeTabIndex = v.activeTabIndex ∧ w.opened = v.opened ∧
      w.nextId = v.nextId ∧ w.client = disconnectFromHost out v.client ∧
      w.activeConnectedTabIndex = -1 := by
  obtain ⟨u, performed, rfl⟩ := Option.map_eq_some_iff.mp disconnected
  obtain ⟨ids, active, opened, nextId, stepped⟩ := perform_frame performed
  exact ⟨ids, active, opened, nextId, (Option.some.inj stepped).symm, rfl⟩

theorem closeTab_cases {removeIdx : Nat} (closed : closeTab v removeIdx out = some w) :
    ((removeIdx : Int) = v.activeConnectedTabIndex ∧ disconnect (v.remove removeIdx) out = some w) ∨
      ((removeIdx : Int) ≠ v.activeConnectedTabIndex ∧ w = v.remove removeIdx) := by
  unfold closeTab at closed
  dsimp only at closed
  rw [(remove_eq v removeIdx).2.2.1] at closed
  split at closed
  · next here => exact .inl ⟨here, closed⟩
  · next other => exact .inr ⟨other, (Option.some.inj closed).symm⟩

theorem existingTab_lt {cleanTarget : QString} {i : Nat}
    (found : existingTab v cleanTarget = some i) : i < v.tabs.length :=
  List.mem_range.mp (List.mem_of_find?_eq_some found)

theorem connectRemote_cases {targetId targetPassword : QString}
    (connected : connectRemote portOf v targetId targetPassword out = some w) :
    w = v ∨ (∃ i < v.tabs.length, w = v.setActiveTabIndex i) ∨
      (trim targetId ≠ [] ∧ existingTab v (withoutSpaces (trim targetId)) = none ∧
        (v.claim (trim targetId)).perform
          ⟨connectAction portOf (trim targetId) (trim targetPassword), out⟩ = some w) := by
  unfold connectRemote at connected
  dsimp only at connected
  split at connected
  · exact .inl (Option.some.inj connected).symm
  · next target =>
    split at connected
    · next i found =>
      exact .inr (.inl ⟨i, existingTab_lt found, (Option.some.inj connected).symm⟩)
    · next new => exact .inr (.inr ⟨target, new, connected⟩)

/-! ### What always holds -/

structure WellFormed (v : View) : Prop where
  sound : Sound v.client
  unique : v.ids.Nodup
  fresh : ∀ id ∈ v.ids, id < v.nextId
  active : 0 ≤ v.activeTabIndex ∧ v.activeTabIndex < v.count

theorem WellFormed.start (history : List HistoryRecord) : WellFormed (start history) where
  sound := .start history
  unique := by simp [View.ids, SessionTabs.start]
  fresh := by simp [View.ids, SessionTabs.start]
  active := ⟨Int.le_refl 0, Int.one_pos⟩

theorem WellFormed.setActiveTabIndex (ok : WellFormed v) {index : Int} (low : 0 ≤ index)
    (high : index < v.count) : WellFormed (v.setActiveTabIndex index) :=
  ⟨ok.sound, ok.unique, ok.fresh, low, high⟩

theorem WellFormed.of_frame (ok : WellFormed v) (sound : Sound w.client) (ids : w.ids = v.ids)
    (active : w.activeTabIndex = v.activeTabIndex) (nextId : w.nextId = v.nextId) :
    WellFormed w where
  sound := sound
  unique := ids ▸ ok.unique
  fresh := by rw [ids, nextId]; exact ok.fresh
  active := by rw [active, count_eq_length_ids, ids, ← count_eq_length_ids]; exact ok.active

theorem WellFormed.perform (ok : WellFormed v) (performed : v.perform e = some w) :
    WellFormed w := by
  obtain ⟨ids, active, -, nextId, stepped⟩ := perform_frame performed
  exact ok.of_frame (ok.sound.step stepped) ids active nextId

theorem WellFormed.disconnect (ok : WellFormed v) (disconnected : disconnect v out = some w) :
    WellFormed w := by
  obtain ⟨ids, active, -, nextId, client, -⟩ := disconnect_cases disconnected
  refine ok.of_frame ?_ ids active nextId
  rw [client]
  exact ok.sound.stopReconnecting.socketDisconnectFromHost out

theorem WellFormed.newTab (ok : WellFormed v) : WellFormed (newTab v) := by
  have count : (SessionTabs.newTab v).count = v.count + 1 := by
    simp [SessionTabs.newTab, View.setActiveTabIndex, View.count]
  have index : (SessionTabs.newTab v).activeTabIndex = v.count := by
    simp [SessionTabs.newTab, View.setActiveTabIndex, View.count]
  have new : v.nextId ∉ v.ids := fun member => Nat.lt_irrefl _ (ok.fresh _ member)
  refine ⟨ok.sound, ?_, ?_, ?_⟩
  · rw [newTab_ids]
    simpa [List.nodup_append] using ⟨ok.unique, fun id member same => new (same ▸ member)⟩
  · rw [newTab_ids]
    intro id member
    obtain old | rfl : id ∈ v.ids ∨ id = v.nextId := by simpa using member
    · exact Nat.lt_succ_of_lt (ok.fresh id old)
    · exact Nat.lt_succ_self _
  · rw [index, count]
    exact ⟨Int.natCast_nonneg _, Int.lt_succ _⟩

theorem WellFormed.remove (ok : WellFormed v) {removeIdx : Nat} (several : 1 < v.tabs.length)
    (inside : removeIdx < v.tabs.length) : WellFormed (v.remove removeIdx) := by
  obtain ⟨client, ids, -, -, nextId⟩ := remove_eq v removeIdx
  have length : (v.tabs.eraseIdx removeIdx).length = v.tabs.length - 1 :=
    List.length_eraseIdx_of_lt inside
  have count : (v.remove removeIdx).count = (v.tabs.length - 1 : Nat) := by
    rw [count_eq_length_ids, ids, View.ids, List.eraseIdx_map, List.length_map, length]
  refine ⟨client ▸ ok.sound, ids ▸ ok.unique.eraseIdx removeIdx, ?_, ?_⟩
  · rw [ids, nextId]
    exact fun id member => ok.fresh id (List.mem_of_mem_eraseIdx member)
  · obtain ⟨low, -⟩ := ok.active
    simp only [count, remove_activeTabIndex, length]
    split <;> omega

theorem WellFormed.closeTab (ok : WellFormed v) {removeIdx : Nat} (several : 1 < v.tabs.length)
    (inside : removeIdx < v.tabs.length) (closed : closeTab v removeIdx out = some w) :
    WellFormed w := by
  have removed := ok.remove several inside
  obtain ⟨-, closed⟩ | ⟨-, rfl⟩ := closeTab_cases closed
  · exact removed.disconnect closed
  · exact removed

theorem WellFormed.claim (ok : WellFormed v) (rawTarget : QString) :
    WellFormed (v.claim rawTarget) :=
  ok.of_frame ok.sound (claim_ids v rawTarget) rfl rfl

theorem WellFormed.connectRemote (ok : WellFormed v) {targetId targetPassword : QString}
    (connected : connectRemote portOf v targetId targetPassword out = some w) : WellFormed w := by
  obtain rfl | ⟨i, inside, rfl⟩ | ⟨-, -, performed⟩ := connectRemote_cases connected
  · exact ok
  · exact ok.setActiveTabIndex (Int.natCast_nonneg i) (Int.ofNat_lt.mpr inside)
  · exact (ok.claim _).perform performed

theorem WellFormed.step {input : Input} (ok : WellFormed v)
    (stepped : step portOf v input = some w) : WellFormed w := by
  cases input with
  | newTab => exact Option.some.inj stepped ▸ ok.newTab
  | selectTab index =>
    simp only [SessionTabs.step, Option.ite_none_right_eq_some, Option.some.injEq] at stepped
    obtain ⟨inside, rfl⟩ := stepped
    exact ok.setActiveTabIndex (Int.natCast_nonneg index) (Int.ofNat_lt.mpr inside)
  | closeTab index out =>
    simp only [SessionTabs.step, Option.ite_none_right_eq_some] at stepped
    obtain ⟨⟨several, inside⟩, closed⟩ := stepped
    exact ok.closeTab several inside closed
  | connectRemote targetId targetPassword out =>
    simp only [SessionTabs.step, Option.ite_none_left_eq_some] at stepped
    exact ok.connectRemote stepped.2
  | disconnect out =>
    simp only [SessionTabs.step, Option.ite_none_right_eq_some] at stepped
    exact ok.disconnect stepped.2
  | cancelReconnect out =>
    simp only [SessionTabs.step, Option.ite_none_right_eq_some] at stepped
    exact ok.perform stepped.2
  | network e =>
    simp only [SessionTabs.step, Option.ite_none_right_eq_some] at stepped
    exact ok.perform stepped.2
  | passwordRejected out =>
    simp only [SessionTabs.step, Option.ite_none_right_eq_some] at stepped
    have shown : WellFormed (v.setClient { v.client with statusText := .authenticationFailed }) :=
      ⟨⟨ok.sound.connected, ok.sound.fresh, ok.sound.stopped⟩, ok.unique, ok.fresh, ok.active⟩
    exact shown.perform stepped.2

/-! ### The connected tab -/

/-- The connection is there, or an attempt that will not be closed again. -/
def Opening (c : Client) : Prop := c.socket = .connected ∨ c.socket = .connecting false

/-- The view shows a tab as connected, and it is the tab that the client was last told to
connect from. -/
def View.ShowsOpened (v : View) : Prop :=
  0 ≤ v.activeConnectedTabIndex ∧ v.opened.isSome ∧
    v.ids[v.activeConnectedTabIndex.toNat]? = v.opened

/-- A retry is made for the tab that the view shows as connected, or finds an attempt under way
and says nothing to the view. -/
def RetryFits (v : View) : Prop :=
  v.client.userInitiatedDisconnect = true ∨ v.client.lastHost = [] ∨
    if v.client.socket = .unconnected then v.ShowsOpened else v.client.isReconnecting = true

theorem not_opening_socketDisconnectFromHost (out : Outside) (c : Client) :
    ¬ Opening (socketDisconnectFromHost out c) := by
  obtain ⟨idle, same⟩ | ⟨-, same⟩ | ⟨-, same | same⟩ := socketDisconnectFromHost_cases out c <;>
    rw [same] <;> simp [Opening, *]

theorem not_opening_of_unconnected (idle : d.socket = .unconnected) : ¬ Opening d := by
  simp [Opening, idle]

/-- Whatever leaves the client with a connection, or on the way to one, found it there and said
nothing to the view, but for the calls that connect and the timer. -/
theorem opening_of_step (stepped : SessionConnection.step c e = some d) (opening : Opening d)
    (other : ¬ e.action.IsConnectCall) (silent : e.action ≠ .timerFired) :
    Opening c ∧ notifies c e = false := by
  obtain ⟨action, out⟩ := e
  cases action with
  | connectToHost host port password => exact absurd trivial other
  | connectByP2PId id password => exact absurd trivial other
  | timerFired => exact absurd rfl silent
  | disconnectFromHost =>
    obtain rfl := Option.some.inj stepped
    exact absurd opening (not_opening_socketDisconnectFromHost out _)
  | cancelReconnect =>
    obtain rfl := Option.some.inj stepped
    exact ⟨opening, rfl⟩
  | connected =>
    simp only [SessionConnection.step] at stepped
    split at stepped
    · next here => exact ⟨.inr here, by simp [notifies, here]⟩
    · obtain rfl := Option.some.inj stepped
      exact absurd opening (not_opening_socketDisconnectFromHost out _)
    · cases stepped
  | attemptFailed =>
    obtain ⟨-, rfl⟩ := step_attemptFailed stepped
    exact absurd opening (not_opening_of_unconnected rfl)
  | connectionLost =>
    obtain ⟨-, rfl⟩ := step_connectionLost stepped
    exact absurd opening (not_opening_of_unconnected (onDisconnected_socket ..))
  | closed =>
    obtain ⟨-, rfl⟩ := step_closed stepped
    exact absurd opening (not_opening_of_unconnected (onDisconnected_socket ..))

theorem opening_of_timerFired (fits : RetryFits v)
    (stepped : SessionConnection.step v.client ⟨.timerFired, out⟩ = some d)
    (opening : Opening d) :
    (Opening v.client ∨ v.ShowsOpened) ∧ notifies v.client ⟨.timerFired, out⟩ = false := by
  obtain ⟨-, rfl⟩ := step_timerFired stepped
  obtain ⟨stays, same⟩ | ⟨user, host, ⟨idle, same⟩ | ⟨busy, same⟩⟩ :=
    attemptReconnect_cases out { v.client with reconnectTimer := none } <;>
    rw [same] at opening
  · refine ⟨.inl opening, ?_⟩
    obtain user | host := stays
    · simp only [notifies, show v.client.userInitiatedDisconnect = true from user, Bool.true_or,
        Bool.not_true, Bool.false_and]
    · simp only [notifies, show v.client.lastHost = [] from host, List.isEmpty_nil, Bool.or_true,
        Bool.not_true, Bool.false_and]
  · have fits := (fits.resolve_left (by simpa using user)).resolve_left host
    rw [if_pos idle] at fits
    exact ⟨.inr fits, by simp [notifies, show v.client.socket = .unconnected from idle]⟩
  · have fits := (fits.resolve_left (by simpa using user)).resolve_left host
    rw [if_neg busy] at fits
    exact ⟨.inl opening, by simp [notifies, fits]⟩

/-- The view knows the tab of the connection, also while it is being opened. -/
def Follows (v : View) : Prop := Opening v.client → v.ShowsOpened

theorem Follows.start (history : List HistoryRecord) : Follows (start history) := by
  simp [Follows, Opening, SessionTabs.start, SessionConnection.start]

theorem Follows.perform (ok : Follows v) (performed : v.perform e = some w)
    (keeps : ∀ d, SessionConnection.step v.client e = some d → Opening d →
      (Opening v.client ∨ v.ShowsOpened) ∧ notifies v.client e = false) : Follows w := by
  obtain ⟨d, stepped, ⟨told, rfl⟩ | ⟨-, rfl⟩⟩ := perform_cases performed
  · intro opening
    obtain ⟨-, untold⟩ := keeps d stepped opening
    rw [told] at untold
    cases untold
  · intro opening
    exact (keeps d stepped opening).1.elim ok id

theorem Follows.of_disconnect (disconnected : disconnect v out = some w) : Follows w := by
  obtain ⟨-, -, -, -, client, -⟩ := disconnect_cases disconnected
  rw [Follows, client]
  exact fun opening => absurd opening (not_opening_socketDisconnectFromHost out _)

theorem Follows.newTab (ok : Follows v) : Follows (newTab v) := by
  intro opening
  obtain ⟨low, opened, position⟩ := ok opening
  have inside : v.activeConnectedTabIndex.toNat < v.ids.length := by
    rw [← position] at opened
    simpa using opened
  refine ⟨low, opened, ?_⟩
  rw [newTab_ids]
  exact (List.getElem?_append_left inside).trans position

theorem Follows.closeTab (ok : Follows v) {removeIdx : Nat}
    (right : Opening v.client → v.activeConnectedTabIndex ≤ removeIdx)
    (closed : closeTab v removeIdx out = some w) : Follows w := by
  obtain ⟨-, disconnected⟩ | ⟨other, rfl⟩ := closeTab_cases closed
  · exact .of_disconnect disconnected
  · obtain ⟨client, ids, connected, opened, -⟩ := remove_eq v removeIdx
    rw [Follows, client]
    intro opening
    obtain ⟨low, known, position⟩ := ok opening
    have behind := right opening
    refine ⟨connected ▸ low, opened ▸ known, ?_⟩
    -- what is removed stands to the right
    rw [connected, ids, opened, List.getElem?_eraseIdx_of_lt (by omega), position]

theorem showsOpened_claim (ok : WellFormed v) (rawTarget : QString) :
    (v.claim rawTarget).ShowsOpened := by
  obtain ⟨low, high⟩ := ok.active
  have inside : v.activeTabIndex.toNat < v.tabs.length := by
    unfold View.count at high
    omega
  have opened : (v.claim rawTarget).opened = v.ids[v.activeTabIndex.toNat]? :=
    List.getElem?_map.symm
  refine ⟨low, ?_, ?_⟩
  · rw [opened]
    simpa [View.ids] using inside
  · rw [claim_ids, opened]
    rfl

theorem Follows.connectRemote (ok : Follows v) (formed : WellFormed v)
    {targetId targetPassword : QString}
    (free : trim targetId ≠ [] → existingTab v (withoutSpaces (trim targetId)) = none →
      ¬ v.client.Established)
    (connected : connectRemote portOf v targetId targetPassword out = some w) : Follows w := by
  obtain rfl | ⟨i, -, rfl⟩ | ⟨target, new, performed⟩ := connectRemote_cases connected
  · exact ok
  · exact ok
  · have claimed := showsOpened_claim formed (trim targetId)
    have follows : Follows (v.claim (trim targetId)) := fun _ => claimed
    have untold : notifies v.client
        ⟨connectAction portOf (trim targetId) (trim targetPassword), out⟩ = false := by
      unfold connectAction
      split <;> exact decide_eq_false (free target new)
    exact follows.perform performed fun d _ _ => ⟨.inr claimed, untold⟩

/-- No tab to the left of the connected one is closed; no connection is left for another one;
and the timer opens no connection of its own. -/
def Steady (v : View) : Input → Prop
  | .closeTab index _ => Opening v.client → v.activeConnectedTabIndex ≤ index
  | .connectRemote targetId _ _ =>
    trim targetId ≠ [] → existingTab v (withoutSpaces (trim targetId)) = none →
      ¬ v.client.Established
  | .network e => e.action = .timerFired → RetryFits v
  | _ => True

theorem not_isConnectCall_of_isNetwork {action : Action} (network : IsNetwork action = true) :
    ¬ action.IsConnectCall := by
  cases action <;> first | exact id | cases network

theorem Follows.step {input : Input} (ok : Follows v) (formed : WellFormed v)
    (steady : Steady v input) (stepped : step portOf v input = some w) : Follows w := by
  cases input with
  | newTab => exact Option.some.inj stepped ▸ ok.newTab
  | selectTab index =>
    simp only [SessionTabs.step, Option.ite_none_right_eq_some, Option.some.injEq] at stepped
    exact stepped.2 ▸ ok
  | closeTab index out =>
    simp only [SessionTabs.step, Option.ite_none_right_eq_some] at stepped
    exact ok.closeTab steady stepped.2
  | connectRemote targetId targetPassword out =>
    simp only [SessionTabs.step, Option.ite_none_left_eq_some] at stepped
    exact ok.connectRemote formed steady stepped.2
  | disconnect out =>
    simp only [SessionTabs.step, Option.ite_none_right_eq_some] at stepped
    exact .of_disconnect stepped.2
  | cancelReconnect out =>
    simp only [SessionTabs.step, Option.ite_none_right_eq_some] at stepped
    refine ok.perform stepped.2 fun d moved opening => ?_
    exact (opening_of_step moved opening id (by simp)).imp_left .inl
  | network e =>
    simp only [SessionTabs.step, Option.ite_none_right_eq_some] at stepped
    obtain ⟨network, performed⟩ := stepped
    refine ok.perform performed fun d moved opening => ?_
    by_cases timer : e.action = .timerFired
    · obtain ⟨action, out⟩ := e
      subst timer
      exact opening_of_timerFired (steady rfl) moved opening
    · have other := not_isConnectCall_of_isNetwork network
      exact (opening_of_step moved opening other timer).imp_left .inl
  | passwordRejected out =>
    simp only [SessionTabs.step, Option.ite_none_right_eq_some] at stepped
    have shown : Follows (v.setClient { v.client with statusText := .authenticationFailed }) := ok
    refine shown.perform stepped.2 fun d moved opening => ?_
    exact (opening_of_step moved opening id (by simp)).imp_left .inl

/-! ### The tab that connected -/

def Live (v : View) : Prop := v.client.socket = .connected

structure Faithful (portOf : QString → UInt16) (v : View) : Prop where
  active : 0 ≤ v.activeTabIndex ∧ v.activeTabIndex < v.count
  /-- No tab stands at two positions. -/
  unique : v.ids.Nodup
  connected : Live v → v.ShowsOpened
  ends : Live v → ∀ index out w, step portOf v (.closeTab index out) = some w →
    (¬ Live w ↔ v.ids[index]? = v.opened)

theorem Follows.faithful (ok : Follows v) (formed : WellFormed v) : Faithful portOf v where
  active := formed.active
  unique := formed.unique
  connected live := ok (.inl live)
  ends live index out w stepped := by
    obtain ⟨low, -, position⟩ := ok (.inl live)
    simp only [SessionTabs.step, Option.ite_none_right_eq_some] at stepped
    obtain ⟨⟨-, inside⟩, closed⟩ := stepped
    obtain ⟨here, disconnected⟩ | ⟨other, rfl⟩ := closeTab_cases closed
    · obtain ⟨-, -, -, -, ended, -⟩ := disconnect_cases disconnected
      refine iff_of_true (fun up => ?_) ?_
      · rw [Live, ended] at up
        exact not_opening_socketDisconnectFromHost out _ (.inl up)
      · rw [← position, ← here, Int.toNat_natCast]
    · have still : Live (v.remove index) := by rwa [Live, (remove_eq v index).1]
      refine iff_of_false (not_not_intro still) fun same => ?_
      have within : index < v.ids.length := by rwa [View.ids, List.length_map]
      rw [← position, List.getElem?_inj within formed.unique] at same
      omega

theorem connected_tab_is_opened {history : List HistoryRecord} {inputs : List Input}
    (steady : Transitions.Throughout (step portOf) Steady (start history) inputs)
    (ran : run portOf (start history) inputs = some v) : Faithful portOf v := by
  obtain ⟨formed, follows⟩ : WellFormed v ∧ Follows v := by
    refine steady.invariant (fun v => WellFormed v ∧ Follows v) ran
      ⟨.start history, .start history⟩ ?_
    rintro v w input steady stepped ⟨formed, follows⟩
    exact ⟨formed.step stepped, follows.step formed steady stepped⟩
  exact follows.faithful formed

/-- What `parseInt` gives for a port written in decimal digits. -/
def decimalPort (text : QString) : UInt16 :=
  UInt16.ofNat (text.foldl (fun value unit => value * 10 + (unit.toNat - 0x30)) 0)

/-- The active tab connects to the host it shows. -/
def connectDefault : List Input :=
  [.connectRemote defaultHost [] calm, .network ⟨.connected, calm⟩]

theorem connected_tab_is_opened_first :
    ∃ v, run decimalPort (start []) connectDefault = some v ∧ Live v ∧ Faithful decimalPort v := by
  obtain ⟨v, ran, live⟩ : ∃ v, run decimalPort (start []) connectDefault = some v ∧ Live v :=
    ⟨_, rfl, rfl⟩
  refine ⟨v, ran, live, connected_tab_is_opened ?_ ran⟩
  refine Transitions.throughout_cons (fun _ _ => by decide) fun s _ =>
    Transitions.throughout_cons (fun timer => nomatch timer) fun s _ => Transitions.throughout_nil

/-- The second tab connects, and the first one is closed. -/
theorem closing_a_tab_to_the_left :
    ∃ v, run decimalPort (start []) (.newTab :: connectDefault ++ [.closeTab 0 calm]) = some v ∧
      ¬ Faithful decimalPort v := by
  obtain ⟨v, ran, live, index, ids, opened⟩ : ∃ v,
      run decimalPort (start []) (.newTab :: connectDefault ++ [.closeTab 0 calm]) = some v ∧
        v.client.socket = .connected ∧ v.activeConnectedTabIndex = 1 ∧ v.ids = [1] ∧
        v.opened = some 1 :=
    ⟨_, rfl, rfl, rfl, rfl, rfl⟩
  refine ⟨v, ran, fun faithful => ?_⟩
  obtain ⟨-, -, position⟩ := faithful.connected live
  rw [index, ids, opened] at position
  cases position

end RemoteAccess.SessionTabs
