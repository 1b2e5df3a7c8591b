import RemoteAccess.SessionRecords

/-! The connection history and its file, over restarts of the client: it is loaded when the
client starts, and saved whenever a record comes in or the list is cleared. Qt's JSON is a
parameter. -/

namespace RemoteAccess.HistoryFile

open QtText ClientActivity
open SessionConnection hiding start step run

/-- `QJsonDocument`: an array of records as bytes, and back. Bytes that are no array are
read as `none`. -/
structure Json where
  toJson : List HistoryRecord → List UInt8
  fromJson : List UInt8 → Option (List HistoryRecord)

/-- Whether the file can be opened for writing, and the two days before the start. -/
structure Boot where
  opens : Bool
  yesterday : QString
  dayBefore : QString

structure Installation where
  activity : Activity
  file : Option (List UInt8)

def Installation.history (s : Installation) : List HistoryRecord :=
  s.activity.client.connectionHistory

def clears : Input → Bool
  | .clearConnectionHistory => true
  | _ => false

inductive Event
  /-- `opens` is how an attempt to save goes. -/
  | input (input : Input) (opens : Bool)
  | restart (boot : Boot)

/-- A connection that is over: the label it was shown under, when it was established, and
whether its user gave it up. -/
structure Ending where
  label : QString
  sinceMs : Int
  userInitiated : Bool
  out : Outside

def ended (c : Client) (out : Outside) : Ending :=
  ⟨c.lastConnectedTarget, c.sessionStartTimeMs, c.userInitiatedDisconnect, out⟩

def Ending.durationSec (e : Ending) : Int :=
  if 0 < e.sinceMs then max 0 ((e.out.nowMs - e.sinceMs).tdiv 1000) else 0

def Ending.record (e : Ending) : HistoryRecord where
  target := e.label
  timestamp := e.out.timestamp
  duration := durationText e.durationSec
  status := literal ['D', 'i', 's', 'c', 'o', 'n', 'n', 'e', 'c', 't', 'e', 'd']
  reason :=
    if e.userInitiated then SessionRecords.userInitiated
    else literal ['N', 'e', 't', 'w', 'o', 'r', 'k', ' ', 'D', 'i', 's', 'c', 'o', 'n', 'n', 'e',
      'c', 't']

/-- A connection that is there ends, unless it has failed or has data to write. -/
def ending (c : Client) : Input → Option Ending
  | .connection ⟨.connectToHost .., out⟩ =>
    if c.Established ∧ c.isConnected then some (ended c out) else none
  -- the label of the next connection is there already
  | .connection ⟨.connectByP2PId p2pIdInput _, out⟩ =>
    if c.Established ∧ c.isConnected then some { ended c out with label := deskLabel p2pIdInput }
    else none
  | .connection ⟨.disconnectFromHost, out⟩ | .passwordRejected out =>
    if c.Established ∧ c.isConnected ∧ ¬ out.dataPending then
      some { ended c out with userInitiated := true }
    else none
  -- given up before it was established
  | .connection ⟨.connected, out⟩ =>
    if c.socket = .connecting true ∧ ¬ out.dataPending then
      some { ended c out with sinceMs := out.nowMs }
    else none
  | .connection ⟨.closed, out⟩ => if c.isConnected then some (ended c out) else none
  | _ => none

/-- A connection without a label leaves no record. -/
def Ending.records (e : Ending) : List HistoryRecord := if e.label = [] then [] else [e.record]

def records (c : Client) (input : Input) : List HistoryRecord :=
  (ending c input).elim [] Ending.records

def entries (s : Installation) : Event → List (Option HistoryRecord)
  | .input input _ =>
    if clears input then [none] else (records s.activity.client input).map some
  | .restart _ => []

section Ends

variable {c : Client} (out : Outside) (short : c.connectionHistory.length ≤ 50)
include short

end Ends

/-- What a launch finds in the file is the history in memory. -/
def Saved (json : Json) (s : Installation) : Prop :=
  ∃ data, s.file = some data ∧ (json.fromJson data).getD [] = s.history

structure Consistent (json : Json) (log : List HistoryRecord) (s : Installation) : Prop where
  saved : Saved json s
  newest : s.history = log.take 50

def ascii (text : List Char) : List UInt8 := text.map fun c => UInt8.ofNat c.toNat

def at_ (nowMs : Int) : Outside :=
  ⟨nowMs, literal ("2026-01-01 10:00".toList), [], false⟩

end RemoteAccess.HistoryFile
