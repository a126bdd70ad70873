import CoUring.Foundation.CriticalSection
import CoUring.Io.Logger
import Mathlib.Data.Option.Basic

namespace CoUring

open Foundation

/-! `Logger::writeLog` and `Logger::setLogFile` under `logMutex_`, access by
access. The flags are outside: they are set and read without the mutex. -/

inductive LogLevel
  | debug
  | info
  | warn
  | error
  deriving DecidableEq, Repr

namespace Logger

def getLevelString : LogLevel → Text
  | .debug => "DEBUG".toList
  | .info => "INFO ".toList
  | .warn => "WARN ".toList
  | .error => "ERROR".toList

def resetColor : Text := "\x1b[0m".toList

def getColorCode (colorOutput : Bool) (level : LogLevel) : Text :=
  if colorOutput = false then []
  else
    match level with
    | .debug => "\x1b[36m".toList
    | .info => "\x1b[32m".toList
    | .warn => "\x1b[33m".toList
    | .error => "\x1b[31m".toList

/-- The last four characters of what the id of the thread is written as. -/
def getThreadId (id : Text) : Text :=
  if id.length > 4 then id.drop (id.length - 4) else id

/-- What follows `find_last_of("/\\")`. -/
def withoutPath (file : Text) : Text :=
  (file.reverse.takeWhile fun symbol => symbol ≠ '/' ∧ symbol ≠ '\\').reverse

def newline : Char := '\n'

end Logger

/-- The arguments of a `writeLog`, and the id of the thread it runs on. -/
structure LogRecord where
  threadId : Text
  level : LogLevel
  file : Text := []
  line : Int := 0
  func : Text := []
  message : Text
  deriving DecidableEq, Repr

namespace LogRecord

def location (record : LogRecord) : Text :=
  let filename := Logger.withoutPath record.file
  if filename ≠ [] ∧ 0 < record.line then
    "[".toList ++ filename ++ ":".toList ++ (toString record.line).toList ++
      (if record.func = [] then []
        else blank :: record.func ++ "()".toList) ++ "] ".toList
  else []

def text (record : LogRecord) (timestamp : Text) : Text :=
  "[".toList ++ timestamp ++ "] [".toList ++
    Logger.getLevelString record.level ++ "] [T:".toList ++
    Logger.getThreadId record.threadId ++ "] ".toList ++ record.location ++
    record.message

end LogRecord

abbrev FileId := Nat

structure LogStream where
  file : FileId
  isOpen : Bool := true
  deriving DecidableEq, Repr

/-- The stream of the log, what is in the files, and what the records have put
on the console; what is printed there without the mutex is left out. -/
structure LogSink where
  logFile : Option LogStream := none
  disk : FileId → Text := fun _ => []
  console : Text := []

namespace LogSink

def current (sink : LogSink) : Option FileId :=
  sink.logFile.bind fun stream =>
    if stream.isOpen then some stream.file else none

def close (sink : LogSink) : LogSink :=
  { sink with logFile := sink.logFile.map ({ · with isOpen := false }) }

/-- The stream of `setLogFile`, if the file could be opened. -/
def reopen (sink : LogSink) (file : Option FileId) : LogSink :=
  { sink with logFile := file.map ({ file := · }) }

def print (sink : LogSink) (piece : Text) : LogSink :=
  { sink with console := sink.console ++ piece }

def append (sink : LogSink) (text : Text) : LogSink :=
  match sink.current with
  | some file =>
      { sink with
        disk := Function.update sink.disk file
          (sink.disk file ++ (text ++ [Logger.newline])) }
  | none => sink

end LogSink

structure LogFlags where
  consoleOutput : Bool := true
  colorOutput : Bool := true
  deriving DecidableEq, Repr

inductive LogSetting
  | setConsoleOutput (enabled : Bool)
  | setColorOutput (enabled : Bool)
  deriving DecidableEq, Repr

inductive LogOperation
  | writeLog (record : LogRecord)
  | setLogFile (filename : Text)
  deriving DecidableEq, Repr

/-- What an access takes from elsewhere: the time, a flag, and what
`create_directories` and opening the file come to. -/
inductive LogReading
  | nothing
  | clock (timestamp : Text)
  | flag (set : Bool)
  | directories (made : Bool)
  | opened (file : Option FileId)
  deriving DecidableEq, Repr

inductive LogPlace
  | entered
  | composed (text : Text)
  | console (text : Text)
  | coloring (text : Text)
  /-- The pieces of the line that are not printed yet. -/
  | printing (text : Text) (left : List Text)
  | closed
  | opening
  | finished
  | threw
  deriving DecidableEq, Repr

inductive LogResult
  | done
  | threw
  deriving DecidableEq, Repr

namespace LogFlags

def set (flags : LogFlags) : LogSetting → LogFlags
  | .setConsoleOutput enabled => { flags with consoleOutput := enabled }
  | .setColorOutput enabled => { flags with colorOutput := enabled }

def reads (flags : LogFlags) :
    LogOperation → LogPlace → LogReading → Bool
  | _, .composed _, .flag set => set = flags.consoleOutput
  | _, .console _, .flag set => set = flags.colorOutput
  | _, .coloring _, .flag set => set = flags.colorOutput
  | _, _, .flag _ => false
  | _, _, _ => true

end LogFlags

def logAccess :
    LogOperation → LogPlace → LogSink → LogReading →
      Option (LogPlace × LogSink)
  | .writeLog record, .entered, sink, .clock timestamp =>
      some (.composed (record.text timestamp), sink)
  | .writeLog _, .composed text, sink, .flag consoleOutput =>
      some (if consoleOutput then .console text else .printing text [], sink)
  | .writeLog _, .console text, sink, .flag colorOutput =>
      some (if colorOutput then .coloring text
        else .printing text [text, [Logger.newline]], sink)
  | .writeLog record, .coloring text, sink, .flag colorOutput =>
      -- `getColorCode` reads the flag once more
      some (.printing text [Logger.getColorCode colorOutput record.level, text,
        Logger.resetColor, [Logger.newline]], sink)
  | .writeLog _, .printing text (piece :: left), sink, .nothing =>
      some (.printing text left, sink.print piece)
  | .writeLog _, .printing text [], sink, .nothing =>
      some (.finished, sink.append text)
  | .setLogFile filename, .entered, sink, .nothing =>
      -- a name with a slash in it has a parent path
      some (if '/' ∈ filename then .closed else .opening, sink.close)
  | .setLogFile _, .closed, sink, .directories made =>
      some (if made then .opening else .threw, sink)
  | .setLogFile _, .opening, sink, .opened file =>
      some (.finished, sink.reopen file)
  | _, _, _, _ => none

def logResult : LogOperation → LogPlace → Option LogResult
  | _, .finished => some .done
  | _, .threw => some .threw
  | _, _ => none

inductive LogAccessed (sink : LogSink) :
    LogOperation → LogPlace → LogReading → LogPlace → LogSink → Prop
  | composed {record : LogRecord} {timestamp : Text} :
      LogAccessed sink (.writeLog record) .entered (.clock timestamp)
        (.composed (record.text timestamp)) sink
  | silent {record : LogRecord} {text : Text} :
      LogAccessed sink (.writeLog record) (.composed text) (.flag false)
        (.printing text []) sink
  | shown {record : LogRecord} {text : Text} :
      LogAccessed sink (.writeLog record) (.composed text) (.flag true)
        (.console text) sink
  | plain {record : LogRecord} {text : Text} :
      LogAccessed sink (.writeLog record) (.console text) (.flag false)
        (.printing text [text, [Logger.newline]]) sink
  | colored {record : LogRecord} {text : Text} :
      LogAccessed sink (.writeLog record) (.console text) (.flag true)
        (.coloring text) sink
  | coded {record : LogRecord} {text : Text} {colorOutput : Bool} :
      LogAccessed sink (.writeLog record) (.coloring text) (.flag colorOutput)
        (.printing text [Logger.getColorCode colorOutput record.level, text,
          Logger.resetColor, [Logger.newline]]) sink
  | printed {record : LogRecord} {text piece : Text} {left : List Text} :
      LogAccessed sink (.writeLog record) (.printing text (piece :: left))
        .nothing (.printing text left) (sink.print piece)
  | appended {record : LogRecord} {text : Text} :
      LogAccessed sink (.writeLog record) (.printing text []) .nothing
        .finished (sink.append text)
  | closed {filename : Text} (parent : '/' ∈ filename) :
      LogAccessed sink (.setLogFile filename) .entered .nothing .closed
        sink.close
  | closedOnly {filename : Text} (top : '/' ∉ filename) :
      LogAccessed sink (.setLogFile filename) .entered .nothing .opening
        sink.close
  | made {filename : Text} :
      LogAccessed sink (.setLogFile filename) .closed (.directories true)
        .opening sink
  | threw {filename : Text} :
      LogAccessed sink (.setLogFile filename) .closed (.directories false)
        .threw sink
  | reopened {filename : Text} {file : Option FileId} :
      LogAccessed sink (.setLogFile filename) .opening (.opened file)
        .finished (sink.reopen file)

theorem logAccess_cases {operation : LogOperation} {place place' : LogPlace}
    {sink sink' : LogSink} {reading : LogReading}
    (accessed : logAccess operation place sink reading =
      some (place', sink')) :
    LogAccessed sink operation place reading place' sink' := by
  unfold logAccess at accessed
  split at accessed
  next => cases accessed; exact .composed
  next set =>
    cases set with
    | false => cases accessed; exact .silent
    | true => cases accessed; exact .shown
  next set =>
    cases set with
    | false => cases accessed; exact .plain
    | true => cases accessed; exact .colored
  next => cases accessed; exact .coded
  next => cases accessed; exact .printed
  next => cases accessed; exact .appended
  next =>
    split at accessed
    next parent => cases accessed; exact .closed parent
    next top => cases accessed; exact .closedOnly top
  next made =>
    cases made with
    | false => cases accessed; exact .threw
    | true => cases accessed; exact .made
  next => cases accessed; exact .reopened
  next => cases accessed

def lockedLogger :
    LockedObject LogSink LogFlags LogOperation LogPlace LogReading LogResult
      LogSetting where
  mode := fun _ => .exclusive
  enter := fun _ => .entered
  access := logAccess
  result := logResult
  reads := LogFlags.reads
  affects := fun flags _ _ _ => flags
  outside := fun flags setting => some (flags.set setting)
  shares := fun _ _ _ _ _ _ shares => LockMode.noConfusion shares

theorem lockedLogger_cases {operation : LogOperation} {place place' : LogPlace}
    {sink sink' : LogSink} {reading : LogReading}
    (accessed : lockedLogger.access operation place sink reading =
      some (place', sink')) :
    LogAccessed sink operation place reading place' sink' :=
  logAccess_cases accessed

/-! What the calls come to, in the order in which they are made. -/

/-- What a record puts on the console, by the flags it reads. -/
def printedBy (level : LogLevel) (text : Text) : List LogReading → Text
  | .flag true :: .flag false :: _ => text ++ [Logger.newline]
  | .flag true :: .flag true :: .flag colorOutput :: _ =>
      Logger.getColorCode colorOutput level ++ text ++ Logger.resetColor ++
        [Logger.newline]
  | _ => []

/-- The file that a `setLogFile` turns to, if it opens one. -/
def reopenedBy : List LogReading → Option FileId
  | [_, .opened file] => file
  | [_, _, .opened file] => file
  | _ => none

inductive LogCall
  | wrote (text printed : Text)
  | switched (file : Option FileId)
  deriving DecidableEq, Repr

namespace LogCall

def ofCall {Thread : Type}
    (call : Call Thread LogOperation LogReading LogResult) : Option LogCall :=
  match call.operation, call.readings with
  | .writeLog record, .clock timestamp :: flags =>
      some (.wrote (record.text timestamp)
        (printedBy record.level (record.text timestamp) flags))
  | .writeLog _, _ => none
  | .setLogFile _, readings => some (.switched (reopenedBy readings))

def printed : LogCall → Text
  | .wrote _ printed => printed
  | .switched _ => []

def next (current : Option FileId) : LogCall → Option FileId
  | .wrote _ _ => current
  | .switched file => file

end LogCall

/-- The records that calls put into a file, where the log starts in
`current`. -/
def filed (file : FileId) : Option FileId → List LogCall → List Text
  | _, [] => []
  | current, .wrote text _ :: calls =>
      if current = some file then text :: filed file current calls
      else filed file current calls
  | _, .switched next :: calls => filed file next calls

/-- The calls went to the log one after another, and nothing else did. -/
structure Logged (first : LogSink) (calls : List LogCall) (last : LogSink) :
    Prop where
  current : last.current = calls.foldl LogCall.next first.current
  console : last.console = first.console ++ calls.flatMap LogCall.printed
  disk : ∀ file, last.disk file = first.disk file ++
    endLines Logger.newline (filed file first.current calls)

section

variable {first sink sink' : LogSink} {file : FileId} {text : Text}
  {current : Option FileId} {calls : List LogCall} {call : LogCall}

theorem filed_append (more : List LogCall) :
    filed file current (calls ++ more) =
      filed file current calls ++
        filed file (calls.foldl LogCall.next current) more := by
  induction calls generalizing current with
  | nil => rfl
  | cons call calls induction =>
      cases call with
      | wrote text printed =>
          rw [List.cons_append, filed, filed, induction, List.foldl_cons,
            LogCall.next]
          split
          next => rfl
          next => rfl
      | switched next =>
          rw [List.cons_append, filed, filed, induction]
          rfl

namespace LogSink

theorem current_close : sink.close.current = none := by
  rw [current, close]
  cases sink.logFile with
  | none => rfl
  | some stream => rfl

theorem current_reopen (file : Option FileId) :
    (sink.reopen file).current = file := by
  cases file with
  | none => rfl
  | some file => rfl

theorem current_append : (sink.append text).current = sink.current := by
  rw [append]
  split
  next => rfl
  next => rfl

theorem console_append : (sink.append text).console = sink.console := by
  rw [append]
  split
  next => rfl
  next => rfl

theorem disk_append (file : FileId) :
    (sink.append text).disk file = sink.disk file ++
      if sink.current = some file then text ++ [Logger.newline] else [] := by
  rw [append]
  split
  next opened isOpen =>
    rw [isOpen]
    by_cases here : file = opened
    · rw [here, if_pos rfl]
      exact Function.update_self _ _ _
    · rw [if_neg fun same => here (Option.some.inj same).symm, List.append_nil]
      exact Function.update_of_ne here _ _
  next closed =>
    rw [closed, if_neg nofun, List.append_nil]

theorem print_print (piece later : Text) :
    (sink.print piece).print later = sink.print (piece ++ later) := by
  rw [print, print, print, List.append_assoc]

end LogSink

namespace Logged

theorem wrote (logged : Logged first calls sink) (text printed : Text) :
    Logged first (calls ++ [.wrote text printed])
      ((sink.print printed).append text) := by
  obtain ⟨current, console, disk⟩ := logged
  refine ⟨?_, ?_, fun file => ?_⟩
  · rw [List.foldl_append, LogSink.current_append]
    exact current
  · rw [LogSink.console_append, LogSink.print, List.flatMap_append, console,
      List.append_assoc]
    simp [LogCall.printed]
  · rw [LogSink.disk_append, filed_append, ← current, filed, endLines,
      List.flatMap_append, ← endLines, ← List.append_assoc, ← disk]
    change sink.disk file ++ (if sink.current = some file then _ else _) = _
    split
    next => simp [filed]
    next => simp [filed]

theorem switched (logged : Logged first calls sink)
    {next : Option FileId} (reached : sink'.current = next)
    (disk : sink'.disk = sink.disk) (console : sink'.console = sink.console) :
    Logged first (calls ++ [.switched next]) sink' := by
  refine ⟨?_, ?_, fun file => ?_⟩
  · rw [List.foldl_append]
    exact reached
  · rw [console, logged.console]
    simp [LogCall.printed]
  · rw [disk, logged.disk, filed_append]
    simp [filed]

end Logged

end

section

variable {sink sink' : LogSink} {record : LogRecord} {text filename : Text}
  {readings : List LogReading} {place : LogPlace} {result : LogResult}

theorem finished_accesses {operation : LogOperation}
    (ran : lockedLogger.accesses operation .finished sink readings =
      some (place, sink')) : readings = [] ∧ sink' = sink := by
  rcases LockedObject.accesses_cases ran with
    ⟨rfl, rfl, rfl⟩ | ⟨_, rest, _, _, rfl, accessed, ran⟩
  · exact ⟨rfl, rfl⟩
  cases lockedLogger_cases accessed

theorem printing_accesses {left : List Text}
    (ran : lockedLogger.accesses (.writeLog record) (.printing text left) sink
      readings = some (place, sink'))
    (finished : logResult (.writeLog record) place = some result) :
    sink' = (sink.print left.flatten).append text := by
  induction left generalizing sink readings with
  | nil =>
      rcases LockedObject.accesses_cases ran with
        ⟨rfl, rfl, rfl⟩ | ⟨_, rest, _, _, rfl, accessed, ran⟩
      · cases finished
      cases lockedLogger_cases accessed
      rw [(finished_accesses ran).2, LogSink.print, List.flatten_nil,
        List.append_nil]
  | cons piece left induction =>
      rcases LockedObject.accesses_cases ran with
        ⟨rfl, rfl, rfl⟩ | ⟨_, rest, _, _, rfl, accessed, ran⟩
      · cases finished
      cases lockedLogger_cases accessed
      rw [induction ran, LogSink.print_print, List.flatten_cons]

theorem console_accesses
    (ran : lockedLogger.accesses (.writeLog record) (.composed text) sink
      readings = some (place, sink'))
    (finished : logResult (.writeLog record) place = some result) :
    sink' = (sink.print (printedBy record.level text readings)).append
      text := by
  rcases LockedObject.accesses_cases ran with
    ⟨rfl, rfl, rfl⟩ | ⟨_, rest, _, _, rfl, accessed, ran⟩
  · cases finished
  cases lockedLogger_cases accessed with
  | silent => exact printing_accesses ran finished
  | shown =>
      rcases LockedObject.accesses_cases ran with
        ⟨rfl, rfl, rfl⟩ | ⟨_, rest, _, _, rfl, accessed, ran⟩
      · cases finished
      cases lockedLogger_cases accessed with
      | plain =>
          rw [printing_accesses ran finished, printedBy]
          simp
      | colored =>
          rcases LockedObject.accesses_cases ran with
            ⟨rfl, rfl, rfl⟩ | ⟨_, rest, _, _, rfl, accessed, ran⟩
          · cases finished
          cases lockedLogger_cases accessed
          rw [printing_accesses ran finished, printedBy]
          simp

theorem writeLog_accesses
    (ran : lockedLogger.accesses (.writeLog record) .entered sink readings =
      some (place, sink'))
    (finished : logResult (.writeLog record) place = some result) :
    ∃ timestamp flags, readings = .clock timestamp :: flags ∧
      sink' = (sink.print (printedBy record.level (record.text timestamp)
        flags)).append (record.text timestamp) := by
  rcases LockedObject.accesses_cases ran with
    ⟨rfl, rfl, rfl⟩ | ⟨_, rest, _, _, rfl, accessed, ran⟩
  · cases finished
  cases lockedLogger_cases accessed
  exact ⟨_, rest, rfl, console_accesses ran finished⟩

theorem opening_accesses
    (ran : lockedLogger.accesses (.setLogFile filename) .opening sink
      readings = some (place, sink'))
    (finished : logResult (.setLogFile filename) place = some result) :
    ∃ file, readings = [.opened file] ∧ sink' = sink.reopen file := by
  rcases LockedObject.accesses_cases ran with
    ⟨rfl, rfl, rfl⟩ | ⟨_, rest, _, _, rfl, accessed, ran⟩
  · cases finished
  cases lockedLogger_cases accessed
  obtain ⟨rfl, rfl⟩ := finished_accesses ran
  exact ⟨_, rfl, rfl⟩

theorem setLogFile_accesses
    (ran : lockedLogger.accesses (.setLogFile filename) .entered sink
      readings = some (place, sink'))
    (finished : logResult (.setLogFile filename) place = some result) :
    sink'.current = reopenedBy readings ∧ sink'.disk = sink.disk ∧
      sink'.console = sink.console := by
  rcases LockedObject.accesses_cases ran with
    ⟨rfl, rfl, rfl⟩ | ⟨_, rest, _, _, rfl, accessed, ran⟩
  · cases finished
  cases lockedLogger_cases accessed with
  | closedOnly =>
      obtain ⟨file, rfl, rfl⟩ := opening_accesses ran finished
      exact ⟨LogSink.current_reopen file, rfl, rfl⟩
  | closed =>
      rcases LockedObject.accesses_cases ran with
        ⟨rfl, rfl, rfl⟩ | ⟨_, rest, _, _, rfl, accessed, ran⟩
      · cases finished
      cases lockedLogger_cases accessed with
      | made =>
          obtain ⟨file, rfl, rfl⟩ := opening_accesses ran finished
          exact ⟨LogSink.current_reopen file, rfl, rfl⟩
      | threw =>
          rcases LockedObject.accesses_cases ran with
            ⟨rfl, rfl, rfl⟩ | ⟨_, rest, _, _, rfl, accessed, ran⟩
          · exact ⟨LogSink.current_close, rfl, rfl⟩
          cases lockedLogger_cases accessed

end

section

variable {Thread : Type} {first sink sink' : LogSink} {calls : List LogCall}

/-- A call that nobody interrupts puts its record after the others, or turns to
another file. -/
theorem Logged.call (logged : Logged first calls sink)
    {call : Call Thread LogOperation LogReading LogResult}
    (made : lockedLogger.Calls sink call sink') :
    ∃ logCall, LogCall.ofCall call = some logCall ∧
      Logged first (calls ++ [logCall]) sink' := by
  obtain ⟨thread, operation, readings, result⟩ := call
  obtain ⟨place, ran, finished⟩ := made
  cases operation with
  | writeLog record =>
      obtain ⟨timestamp, flags, rfl, rfl⟩ := writeLog_accesses ran finished
      exact ⟨_, rfl, logged.wrote _ _⟩
  | setLogFile filename =>
      obtain ⟨reached, disk, console⟩ := setLogFile_accesses ran finished
      exact ⟨_, rfl, logged.switched reached disk console⟩

theorem logged_run {initial : LogSink → Prop}
    {history : List (LogSink × Call Thread LogOperation LogReading LogResult)}
    (run : (lockedLogger.atomicSystem initial).Execution sink history sink') :
    ∃ calls, calls.map some =
        (TransitionSystem.trace history).map LogCall.ofCall ∧
      Logged sink calls sink' := by
  induction run with
  | refl => exact ⟨[], rfl, rfl, by simp, by simp [filed, endLines]⟩
  | @snoc middle _ history call run step induction =>
      obtain ⟨calls, same, logged⟩ := induction
      obtain ⟨logCall, isCall, next⟩ := logged.call step
      refine ⟨_, ?_, next⟩
      rw [TransitionSystem.trace_snoc, List.map_append, List.map_append, same,
        List.map_singleton, List.map_singleton, isCall]

variable [DecidableEq Thread]

abbrev LockedLog (Thread : Type) :=
  LockedState Thread LogSink LogFlags LogOperation LogPlace LogReading

abbrev LockedLogLabel (Thread : Type) :=
  LockedLabel Thread LogOperation LogReading LogSetting

def lockedLogSystem :
    TransitionSystem (LockedLog Thread) (LockedLogLabel Thread) :=
  lockedLogger.lockedSystem fun sink _ => sink.logFile = none

/-- However the records of the threads interleave, and whatever becomes of the
flags and files meanwhile, each record is one piece of the log, in the order in
which the threads give the mutex back. A file has its records added one by one,
and reads back line by line as them, as long as none has several lines. -/
theorem records_whole {initial last : LockedLog Thread}
    {history : List (LockedLog Thread × LockedLogLabel Thread)}
    (start : lockedLogSystem.initial initial)
    (run : lockedLogSystem.Execution initial history last)
    (free : last.mutex.writer = none) :
    ∃ calls, calls.map some =
        (TransitionSystem.observed lockedLogger.completed history).map
          LogCall.ofCall ∧
      last.data.console =
        initial.data.console ++ calls.flatMap LogCall.printed ∧
      ∀ file,
        let added := endLines Logger.newline (filed file none calls)
        last.data.disk file = initial.data.disk file ++ added ∧
        (linesOf Logger.newline added = filed file none calls ↔
          ∀ text ∈ filed file none calls, Logger.newline ∉ text) := by
  obtain ⟨data, outside, none, rfl⟩ := start
  obtain ⟨atomic, sink, run', same, serial⟩ :=
    (lockedLogger.serial_simulation _).follow
      (.initial ⟨data, outside, none, rfl⟩) (.initial data outside) run
  obtain ⟨calls, isCalls, logged⟩ := logged_run run'
  rw [serial.settled free]
  have current : data.current = Option.none := by
    rw [LogSink.current, none]
    rfl
  refine ⟨calls, by rw [isCalls, same], logged.console, fun file => ?_⟩
  have disk := logged.disk file
  rw [current] at disk
  exact ⟨disk, linesOf_endLines_iff⟩

/-- The second record has two lines, and the flags change within the first. -/
def twoRecords : List (LockedLogLabel Nat) :=
  [.enter 0 (.setLogFile "logs/a".toList), .access 0 .nothing,
    .access 0 (.directories true), .access 0 (.opened (some 3)), .leave 0,
    .enter 1 (.writeLog ⟨"140001".toList, .info, "src/main.cpp".toList, 33,
      "main".toList, "up".toList⟩),
    .access 1 (.clock "t1".toList), .access 1 (.flag true),
    .access 1 (.flag true), .outside (.setColorOutput false),
    .access 1 (.flag false), .access 1 .nothing, .access 1 .nothing,
    .access 1 .nothing, .access 1 .nothing, .access 1 .nothing, .leave 1,
    .enter 0 (.writeLog ⟨"7".toList, .error, [], 0, [],
      "two\nlines".toList⟩),
    .access 0 (.clock "t2".toList), .access 0 (.flag true),
    .access 0 (.flag false), .access 0 .nothing, .access 0 .nothing,
    .access 0 .nothing, .leave 0]

theorem two_records_three_lines :
    ∃ last, TransitionSystem.runLabels lockedLogger.step
        { data := {}, outside := {} } twoRecords = some last ∧
      last.data.console = ("[t1] [INFO ] [T:0001] [main.cpp:33 main()] up" ++
        "\x1b[0m\n[t2] [ERROR] [T:7] two\nlines\n").toList ∧
      last.data.disk 3 = ("[t1] [INFO ] [T:0001] [main.cpp:33 main()] up\n" ++
        "[t2] [ERROR] [T:7] two\nlines\n").toList ∧
      linesOf Logger.newline (last.data.disk 3) ≠
        ["[t1] [INFO ] [T:0001] [main.cpp:33 main()] up".toList,
          "[t2] [ERROR] [T:7] two\nlines".toList] := by
  have run : ∃ last, TransitionSystem.runLabels lockedLogger.step
      { data := {}, outside := {} } twoRecords = some last ∧
      last.mutex.writer = none := ⟨_, rfl, rfl⟩
  obtain ⟨last, run, free⟩ := run
  obtain ⟨calls, same, console, files⟩ :=
    records_whole ⟨{}, {}, rfl, rfl⟩ (.runLabels run) free
  have isCalls : calls = [.switched (some 3),
      .wrote "[t1] [INFO ] [T:0001] [main.cpp:33 main()] up".toList
        "[t1] [INFO ] [T:0001] [main.cpp:33 main()] up\x1b[0m\n".toList,
      .wrote "[t2] [ERROR] [T:7] two\nlines".toList
        "[t2] [ERROR] [T:7] two\nlines\n".toList] :=
    List.map_injective_iff.mpr (Option.some_injective _)
      (same.trans (by decide +kernel))
  subst isCalls
  obtain ⟨disk, reads⟩ := files 3
  refine ⟨last, run, console.trans (by decide +kernel),
    disk.trans (by decide +kernel), fun whole => ?_⟩
  rw [disk] at whole
  exact absurd (reads.mp whole _ (.tail _ (.head _))) (by decide +kernel)

end

end CoUring
