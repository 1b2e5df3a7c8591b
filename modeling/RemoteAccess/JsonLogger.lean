import RemoteAccess.Basics.Lines
import RemoteAccess.Basics.Transitions
import RemoteAccess.QtUtf8
import Mathlib.Data.List.Perm.Basic
import Mathlib.Data.List.TakeWhile

/-! `JsonLogger`: one line of JSON for each message of the program, on the standard output and
in a file. Messages come from any thread: one that has been formatted waits for the mutex of
`writeLog`. -/

namespace RemoteAccess.JsonLogger

open QtText QtUtf8 Lines

inductive QtMsgType
  | debug
  | info
  | warning
  | critical
  | fatal
deriving DecidableEq

/-- Names are null pointers or C strings. -/
structure QMessageLogContext where
  category : Option (List UInt8)
  file : Option (List UInt8)
  function : Option (List UInt8)
  line : Int32

structure Message where
  type : QtMsgType
  context : QMessageLogContext
  msg : QString
  /-- The time in UTC when the message is formatted. -/
  timestamp : QString

def QtMsgType.level : QtMsgType → QString
  | debug => literal "DEBUG".toList
  | info => literal "INFO".toList
  | warning => literal "WARNING".toList
  | critical => literal "CRITICAL".toList
  | fatal => literal "FATAL".toList

/-- `name ? QString(name) : otherwise`. -/
def nameOr (name : Option (List UInt8)) (otherwise : QString) : QString :=
  match name with
  | some bytes => fromUtf8 bytes bytes.length
  | none => otherwise

/-- The `QJsonObject` of a message, with its keys. -/
structure LogRecord where
  timestamp : QString
  level : QString
  category : QString
  file : QString
  line : Int32
  function : QString
  message : QString
deriving DecidableEq

def formatJsonObject (m : Message) : LogRecord where
  timestamp := m.timestamp
  level := m.type.level
  category := nameOr m.context.category (literal "default".toList)
  file := nameOr m.context.file []
  line := m.context.line
  function := nameOr m.context.function []
  message := m.msg

/-- `QJsonDocument`: an object in compact form, and back. -/
structure Json where
  toJson : LogRecord → List UInt8
  fromJson : List UInt8 → Option LogRecord

/-- What Qt documents of the compact form: it is UTF-8 without line feeds, and it is parsed
as the object that was written. -/
structure Json.Compact (json : Json) (record : LogRecord) : Prop where
  utf8 : ∃ text, survives text = true ∧ json.toJson record = toUtf8 text
  unbroken : 0x0A ∉ json.toJson record
  parsed : json.fromJson (json.toJson record) = some record

/-- The line that `qtMessageHandler` hands to `writeLog`. -/
def jsonLine (json : Json) (m : Message) : QString :=
  let bytes := json.toJson (formatJsonObject m)
  fromUtf8 bytes bytes.length

/-- The program with its one logger. `logFile` is the file that is open. -/
structure Process where
  initialized : Bool
  installed : Bool
  logFile : Option QString
  lines : List QString
  stdout : List UInt8
  files : QString → List UInt8

def start (files : QString → List UInt8) : Process where
  initialized := false
  installed := false
  logFile := none
  lines := []
  stdout := []
  files := files

inductive Event
  /-- The function `initialize`; `opens` is whether the file can be opened for appending. -/
  | initializeLogger (logFilePath : QString) (opens : Bool)
  | install
  | uninstall
  /-- A message of the program, which Qt passes to an installed handler only. -/
  | message (m : Message)
  /-- The mutex goes to one of the threads that wait for it. -/
  | writeLog (thread : Nat)

/-- The text and the line feed behind it. -/
def written (line : QString) : List UInt8 := toUtf8 line ++ [0x0A]

def step (json : Json) (s : Process) : Event → Option Process
  | .initializeLogger logFilePath opens =>
    if s.initialized then some s
    else some { s with
      initialized := true
      logFile := if logFilePath ≠ [] ∧ opens = true then some logFilePath else none }
  | .install => some { s with installed := true }
  | .uninstall => some { s with installed := false }
  | .message m =>
    if s.installed then some { s with lines := s.lines ++ [jsonLine json m] }
    else some s
  | .writeLog thread =>
    match s.lines[thread]? with
    | none => none
    | some line => some { s with
      lines := s.lines.eraseIdx thread
      stdout := s.stdout ++ written line
      files := match s.logFile with
        | none => s.files
        | some path => Function.update s.files path (s.files path ++ written line) }

def run (json : Json) (files : QString → List UInt8) (events : List Event) : Option Process :=
  Transitions.run (step json) (start files) events

/-! ### Reading a log -/

def readLog (json : Json) (bytes : List UInt8) : List (Option LogRecord) :=
  (ended 0x0A bytes).map json.fromJson

def entry (m : Message) : Option LogRecord := some (formatJsonObject m)

variable {json : Json}

theorem readLog_written {m : Message} (compact : json.Compact (formatJsonObject m))
    {bytes : List UInt8} (whole : Whole 0x0A bytes) :
    Whole 0x0A (bytes ++ written (jsonLine json m)) ∧
      readLog json (bytes ++ written (jsonLine json m)) =
        readLog json bytes ++ [entry m] := by
  obtain ⟨text, survives, encoded⟩ := compact.utf8
  have line : written (jsonLine json m) = json.toJson (formatJsonObject m) ++ [0x0A] := by
    rw [written, jsonLine]
    simp only [encoded, fromUtf8_whole survives]
  obtain ⟨after, lines⟩ := whole.line compact.unbroken
  rw [line]
  refine ⟨after, ?_⟩
  rw [readLog, lines, List.map_append, List.map_singleton, compact.parsed]
  rfl

/-! ### Runs -/

/-- Whether the handler is installed, and what it has been given. -/
def hears (heard : Bool × List Message) : Event → Bool × List Message
  | .install => (true, heard.2)
  | .uninstall => (false, heard.2)
  | .message m => (heard.1, if heard.1 then heard.2 ++ [m] else heard.2)
  | .initializeLogger .. | .writeLog _ => heard

def heard (events : List Event) : Bool × List Message := events.foldl hears (false, [])

def handled (events : List Event) : List Message := (heard events).2

theorem heard_concat (events : List Event) (event : Event) :
    heard (events ++ [event]) = hears (heard events) event := by
  rw [heard, List.foldl_append]
  rfl

theorem mem_handled {events : List Event} {m : Message} (found : m ∈ handled events) :
    .message m ∈ events := by
  induction events using List.reverseRecOn with
  | nil => cases found
  | append_singleton events event ih =>
    rw [handled, heard_concat] at found
    cases event with
    | message last =>
      simp only [hears] at found
      split_ifs at found
      · obtain old | new := List.mem_append.mp found
        · exact List.mem_append_left _ (ih old)
        · rw [List.mem_singleton.mp new]
          exact List.mem_append_right _ List.mem_cons_self
      · exact List.mem_append_left _ (ih found)
    | _ => exact List.mem_append_left _ (ih found)

/-- The file that a call of the initialisation leaves open. -/
def opened : Event → Option (Option QString)
  | .initializeLogger logFilePath opens =>
    some (if logFilePath ≠ [] ∧ opens = true then some logFilePath else none)
  | _ => none

def isWriteLog : Event → Bool
  | .writeLog _ => true
  | _ => false

/-- The lines written before the logger is initialised. -/
def early (events : List Event) : Nat :=
  (events.takeWhile fun event => (opened event).isNone).countP isWriteLog

theorem early_of_opened {events : List Event} {file : Option QString}
    (found : events.findSome? opened = some file) (event : Event) :
    early (events ++ [event]) = early events := by
  obtain ⟨before, opening, after, rfl, here, -⟩ := List.findSome?_eq_some_iff.mp found
  have stops : ((opened opening).isNone) = false := by rw [here]; rfl
  simp only [early, List.append_assoc, List.cons_append, List.takeWhile_append,
    List.takeWhile_cons, stops, Bool.false_eq_true, if_false]

theorem early_of_unopened {events : List Event} (none : events.findSome? opened = none)
    (event : Event) :
    early (events ++ [event]) = early events + if isWriteLog event then 1 else 0 := by
  have all : ∀ event ∈ events, (opened event).isNone = true :=
    fun event member =>
      Option.isNone_iff_eq_none.mpr (List.findSome?_eq_none_iff.mp none event member)
  rw [early, early, List.takeWhile_append_of_pos all, List.takeWhile_eq_self_iff.mpr all,
    List.countP_append]
  congr 1
  cases event <;> rfl

structure Logged (json : Json) (files : QString → List UInt8) (events : List Event) (s : Process)
    (done waiting : List Message) : Prop where
  lines : s.lines = waiting.map (jsonLine json)
  all : (done ++ waiting).Perm (handled events)
  stdout : Whole 0x0A s.stdout ∧ readLog json s.stdout = done.map entry
  logFile : s.logFile = (events.findSome? opened).getD none
  others : ∀ path, s.logFile ≠ some path → s.files path = files path
  file : ∀ path, s.logFile = some path → Whole 0x0A (files path) →
    Whole 0x0A (s.files path) ∧
      readLog json (s.files path) = readLog json (files path) ++
        (done.drop (early events)).map entry

structure Counted (events : List Event) (s : Process) (done : List Message) : Prop where
  installed : s.installed = (heard events).1
  initialized : s.initialized = (events.findSome? opened).isSome
  bound : early events ≤ done.length
  before : s.initialized = false → early events = done.length

variable {files : QString → List UInt8} {events : List Event} {s t : Process}
  {done waiting : List Message}

theorem findSome?_unopened {event : Event} (closed : opened event = none) :
    (events ++ [event]).findSome? opened = events.findSome? opened := by
  rw [List.findSome?_append, List.findSome?_singleton, closed, Option.or_none]

theorem early_same {event : Event} (other : isWriteLog event = false) :
    early (events ++ [event]) = early events := by
  cases opening : events.findSome? opened with
  | some file => exact early_of_opened opening event
  | none =>
    rw [early_of_unopened opening, other]
    rfl

theorem Counted.same (counted : Counted events s done) {event : Event}
    (found : (events ++ [event]).findSome? opened = events.findSome? opened)
    (other : isWriteLog event = false) (initialized : t.initialized = s.initialized)
    (installed : t.installed = (heard (events ++ [event])).1) :
    Counted (events ++ [event]) t done where
  installed := installed
  initialized := by rw [initialized, found, counted.initialized]
  bound := by
    rw [early_same other]
    exact counted.bound
  before := by
    rw [initialized, early_same other]
    exact counted.before

theorem Logged.same (logged : Logged json files events s done waiting) {event : Event}
    (calm : handled (events ++ [event]) = handled events)
    (found : (events ++ [event]).findSome? opened = events.findSome? opened)
    (other : isWriteLog event = false) (lines : t.lines = s.lines) (stdout : t.stdout = s.stdout)
    (logFile : t.logFile = s.logFile) (contents : t.files = s.files) :
    Logged json files (events ++ [event]) t done waiting where
  lines := lines.trans logged.lines
  all := by
    rw [calm]
    exact logged.all
  stdout := by
    rw [stdout]
    exact logged.stdout
  logFile := by rw [logFile, found, logged.logFile]
  others := by
    rw [logFile, contents]
    exact logged.others
  file := by
    rw [logFile, contents, early_same other]
    exact logged.file

theorem Logged.initializeLogger (logged : Logged json files events s done waiting)
    (counted : Counted events s done)
    (fresh : s.initialized = false) (logFilePath : QString) (opens : Bool) :
    let t := { s with
      initialized := true
      logFile := if logFilePath ≠ [] ∧ opens = true then some logFilePath else none }
    Logged json files (events ++ [.initializeLogger logFilePath opens]) t done waiting ∧
      Counted (events ++ [.initializeLogger logFilePath opens]) t done := by
  have unopened : events.findSome? opened = none := by
    rw [← Option.not_isSome_iff_eq_none, ← counted.initialized, fresh]
    exact Bool.false_ne_true
  have closed : s.logFile = none := by rw [logged.logFile, unopened]; rfl
  have untouched : ∀ path, s.files path = files path :=
    fun path => logged.others path (by rw [closed]; exact nofun)
  have found : (events ++ [Event.initializeLogger logFilePath opens]).findSome? opened =
      some (if logFilePath ≠ [] ∧ opens = true then some logFilePath else none) := by
    rw [List.findSome?_append, unopened, Option.none_or, List.findSome?_singleton]
    rfl
  have all : early (events ++ [.initializeLogger logFilePath opens]) = done.length :=
    (early_same rfl).trans (counted.before fresh)
  have calm := heard_concat events (.initializeLogger logFilePath opens)
  constructor
  · refine ⟨logged.lines, ?_, logged.stdout, ?_, fun path _ => untouched path, ?_⟩
    · rw [handled, calm]
      exact logged.all
    · rw [found]
      rfl
    · intro path _ whole
      dsimp only
      rw [untouched path, all, List.drop_length, List.map_nil, List.append_nil]
      exact ⟨whole, rfl⟩
  · refine ⟨?_, ?_, Nat.le_of_eq all, fun late => by cases late⟩
    · rw [calm]
      exact counted.installed
    · rw [found]
      rfl

theorem Logged.message (logged : Logged json files events s done waiting)
    (counted : Counted events s done) (installed : s.installed = true) (m : Message) :
    Logged json files (events ++ [.message m]) { s with lines := s.lines ++ [jsonLine json m] } done
      (waiting ++ [m]) where
  lines := by
    dsimp only
    rw [logged.lines, List.map_append, List.map_singleton]
  all := by
    have more : handled (events ++ [.message m]) = handled events ++ [m] := by
      rw [handled, heard_concat]
      exact if_pos (counted.installed.symm.trans installed)
    rw [more, ← List.append_assoc]
    exact logged.all.append_right _
  stdout := logged.stdout
  logFile := by
    rw [findSome?_unopened rfl]
    exact logged.logFile
  others := logged.others
  file := by
    rw [early_same rfl]
    exact logged.file

/-- `writeLog` once the mutex is taken. -/
def Process.afterWriteLog (s : Process) (thread : Nat) (line : QString) : Process :=
  { s with
    lines := s.lines.eraseIdx thread
    stdout := s.stdout ++ written line
    files := match s.logFile with
      | none => s.files
      | some path => Function.update s.files path (s.files path ++ written line) }

theorem Process.files_afterWriteLog {path : QString} (logging : s.logFile = some path)
    (thread : Nat) (line : QString) :
    (s.afterWriteLog thread line).files =
      Function.update s.files path (s.files path ++ written line) := by
  rw [afterWriteLog]
  simp only [logging]

theorem Counted.writeLog (counted : Counted events s done) (thread : Nat) (line : QString)
    (m : Message) :
    Counted (events ++ [.writeLog thread]) (s.afterWriteLog thread line) (done ++ [m]) := by
  have installed : (s.afterWriteLog thread line).installed =
      (heard (events ++ [.writeLog thread])).1 := by
    rw [heard_concat]
    exact counted.installed
  have found := @findSome?_unopened events (.writeLog thread) rfl
  have length : (done ++ [m]).length = done.length + 1 := by simp
  have initialized : (s.afterWriteLog thread line).initialized = s.initialized := rfl
  cases opening : events.findSome? opened with
  | some file =>
    have yes : s.initialized = true := by rw [counted.initialized, opening]; rfl
    refine ⟨installed, ?_, ?_, ?_⟩
    · rw [found, initialized, counted.initialized]
    · rw [early_of_opened opening, length]
      exact Nat.le_succ_of_le counted.bound
    · rw [initialized, yes]
      exact nofun
  | none =>
    have no : s.initialized = false := by rw [counted.initialized, opening]; rfl
    have one : early (events ++ [.writeLog thread]) = done.length + 1 := by
      rw [early_of_unopened opening, counted.before no]
      rfl
    refine ⟨installed, ?_, ?_, fun _ => ?_⟩
    · rw [found, initialized, counted.initialized]
    · rw [one, length]
    · rw [one, length]

theorem Logged.writeLog (logged : Logged json files events s done waiting)
    (counted : Counted events s done)
    (compact : ∀ m, .message m ∈ events → json.Compact (formatJsonObject m)) {thread : Nat}
    {line : QString} (next : s.lines[thread]? = some line) :
    ∃ m, Logged json files (events ++ [.writeLog thread]) (s.afterWriteLog thread line)
      (done ++ [m]) (waiting.eraseIdx thread) := by
  rw [logged.lines, List.getElem?_map, Option.map_eq_some_iff] at next
  obtain ⟨m, next, rfl⟩ := next
  obtain ⟨inside, here⟩ := List.getElem?_eq_some_iff.mp next
  have found := @findSome?_unopened events (.writeLog thread) rfl
  have said : m ∈ handled events :=
    logged.all.subset (List.mem_append_right _ (List.mem_of_getElem? next))
  have form := compact m (mem_handled said)
  obtain ⟨whole, read⟩ := logged.stdout
  obtain ⟨whole, more⟩ := readLog_written form whole
  refine ⟨m, ?_, ?_, ⟨whole, ?_⟩, ?_, ?_, ?_⟩
  · change s.lines.eraseIdx thread = _
    rw [logged.lines, List.eraseIdx_map]
  · have moved := List.getElem_cons_eraseIdx_perm inside
    rw [here] at moved
    rw [handled, heard_concat, List.append_assoc, List.singleton_append]
    exact (moved.append_left done).trans logged.all
  · exact more.trans (by rw [read, List.map_append, List.map_singleton])
  · rw [found]
    exact logged.logFile
  · intro path other
    change s.logFile ≠ some path at other
    cases logging : s.logFile with
    | none =>
      simp only [Process.afterWriteLog, logging]
      exact logged.others path other
    | some open_ =>
      have apart : path ≠ open_ := by
        rintro rfl
        exact other logging
      rw [Process.files_afterWriteLog logging, Function.update_of_ne apart]
      exact logged.others path other
  · intro path logging original
    change s.logFile = some path at logging
    obtain ⟨whole, read⟩ := logged.file path logging original
    obtain ⟨whole, more⟩ := readLog_written form whole
    have opening : ∃ file, events.findSome? opened = some file := by
      rw [← Option.isSome_iff_exists, ← Option.ne_none_iff_isSome]
      intro unopened
      rw [logged.logFile, unopened] at logging
      cases logging
    obtain ⟨file, opening⟩ := opening
    rw [Process.files_afterWriteLog logging, Function.update_self, early_of_opened opening,
      List.drop_append_of_le_length counted.bound, List.map_append, List.map_singleton,
      ← List.append_assoc, ← read]
    exact ⟨whole, more⟩

def forged : Message where
  type := .info
  context := ⟨none, none, none, 7⟩
  msg := literal "a\n\"level\":\"FATAL\"".toList
  timestamp := literal "2026-01-01T00:00:00.000Z".toList

def plain : Message := { forged with type := .warning, msg := literal ['b'] }

end RemoteAccess.JsonLogger
