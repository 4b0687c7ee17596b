import ChipEight.CommandLine
import ChipEight.FileSystem
import ChipEight.FrameLoop
import ChipEight.Terminal

/-! A whole run of the program on a terminal: from the command line and the files to the exit code, the
log and the last screen. -/
namespace ChipEight

structure Report where
  code : Nat
  log : List Event := []
  complaint : Option String := none
  shown : Option Screen := none

namespace Session

/-- Nothing more than what went wrong is said of a run that failed. -/
def failed (log : List Event) (summary : String) : Report :=
  { code := 1, log := log, complaint := some ("Error: " ++ summary) }

def machineFor (s : Settings) (entropy : RandomSource) : Machine :=
  Machine.start ((s.seed.map RandomSource.ofSeed).getD entropy) s.dialect

def frameSettings (s : Settings) : FrameSettings := { cyclesPerFrame := s.cyclesPerFrame }

/-- The files once the log file has been created. -/
def withLogFile (s : Settings) (files : FileSystem) : Except SystemError FileSystem :=
  match s.logFile with
  | none => .ok files
  | some path => files.create path

/-- The program is looked for after the log file has been created, so that it is empty if both are one
file. -/
def program (s : Settings) (files : FileSystem) : Except SystemError Entry := do
  (← withLogFile s files).openFile s.program

/-- A console with the program loaded, or the report of a run that ends here. -/
def boot (s : Settings) (program : Except SystemError Entry) (entropy : RandomSource)
    (typed : List UInt8) : Except Report (Console Terminal) :=
  match program with
  | .error e => .error (failed [] e.summary)
  | .ok entry =>
    let loaded := (machineFor s entropy).loadFrom entry.chunks
    match loaded.result with
    | .error f => .error (failed loaded.log f.summary)
    | .ok () =>
      let terminal : Terminal := { keyboard := ({} : Keyboard).type typed }
      .ok { Console.start loaded.machine terminal with log := loaded.log.toArray }

def troubleSummary : Trouble → String
  | .machine f => f.summary
  | .host message => message

/-- What a loop leaves behind: told at a good end, complained of at a bad one. -/
def conclude : Console.Outcome Terminal → Report
  | .ok frames c => { code := 0, log := c.log.toList ++ [.finished frames], shown := c.host.shown }
  | .error trouble c =>
    { failed c.log.toList (troubleSummary trouble) with shown := c.host.shown }

/-- Nothing if the run never ends. -/
def run (s : Settings) (files : FileSystem) (entropy : RandomSource) (typed : List UInt8) :
    Option Report :=
  match boot s (program s files) entropy typed with
  | .error report => some report
  | .ok console => (Console.loop Terminal.host (frameSettings s) s.frames console).map conclude

/-- The lines of the records; some records have several. -/
def logLines (level : Level) (log : List Event) : List String :=
  (logRecords level log).flatMap fun record => record.splitOn "\n"

/-- Records go to the log file if there is one, and else before the complaint. -/
def errorOutput (s : Settings) (level : Level) (r : Report) : List String :=
  (if s.logFile.isSome then [] else logLines level r.log) ++ r.complaint.toList

/-- What the log file holds in the end, if there is one. -/
def fileOutput (s : Settings) (files : FileSystem) (level : Level) (r : Report) :
    Option (String × List String) :=
  match s.logFile, withLogFile s files with
  | some path, .ok _ => some (path, logLines level r.log)
  | _, _ => none

theorem program_of_no_log {s : Settings} (h : s.logFile = none) (files : FileSystem) :
    program s files = files.openFile s.program := by
  simp [program, withLogFile, h, bind, Except.bind]

/-- A program that is its own log file is empty. -/
theorem program_of_log {s : Settings} (h : s.logFile = some s.program) {files made : FileSystem}
    (hc : files.create s.program = .ok made) : program s files = .ok (.file []) := by
  simp [program, withLogFile, h, hc, bind, Except.bind, FileSystem.openFile_of_create hc]

end Session

end ChipEight
