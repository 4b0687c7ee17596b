import ChipEight.Picture
import ChipEight.Session

/-! The program itself: a terminal that passes keys on as they are typed, a frame every sixtieth of a
second and a log as it comes. -/
namespace ChipEight.Live

def usage : String := "\n".intercalate [
  "Run a CHIP-8 program in the terminal. Esc quits.",
  "",
  "Usage: chip8 [OPTIONS] <PATH>",
  "",
  "  <PATH>                  ROM image, loaded at 0x200",
  "  --cycles-per-frame <N>  instructions executed per 60Hz frame [default: 12]",
  "  --frames <N>            stop after this many frames",
  "  --seed <N>              seed for the random number instruction",
  "  --shift-quirk           8xy6/8xyE shift Vy into Vx (COSMAC VIP behaviour)",
  "  --load-store-quirk      Fx55/Fx65 advance I past the registers transferred",
  "  --mute                  no beeping",
  "  --log-file <PATH>       write log output here instead of stderr",
  "  -h, --help              print this text",
  "",
  "LOG_LEVEL chooses what is logged: error, warn, info, debug or trace. The terminal is to pass",
  "keys on unread, as after: stty raw -echo"]

def frameNanos : Nat := 1000000000 / 60

def palette : Palette := ⟨'█', ' '⟩

structure Station where
  settings : Settings
  level : Level
  typed : IO.Ref (List UInt8)
  logFile : Option IO.FS.Handle

def writeLines (st : Station) (lines : List String) : IO Unit := do
  for line in lines do
    match st.logFile with
    | some h => h.putStrLn line
    | none => IO.eprintln line

partial def listen (typed : IO.Ref (List UInt8)) : IO Unit := do
  let bytes ← (← IO.getStdin).read 64
  if bytes.isEmpty then return ()
  typed.modify (· ++ bytes.toList)
  listen typed

def present (before after : Terminal) (mute : Bool) : IO Unit := do
  let out ← IO.getStdout
  if after.ringing && !before.ringing && !mute then out.putStr "\x07"
  if after.shown != before.shown then
    if let some screen := after.shown then
      out.putStr ("\x1b[H" ++ "\r\n".intercalate (screen.picture palette) ++ "\r\n")
  out.flush

partial def play (st : Station) (frames : Nat) (c : Console Terminal) : IO Report := do
  let started ← IO.monoNanosNow
  let typed ← st.typed.modifyGet fun bytes => (bytes, [])
  let before := c.host
  let c := { c with host := { before with keyboard := before.keyboard.type typed } }
  match c.round Terminal.host (Session.frameSettings st.settings) st.settings.frames frames with
  | .ended outcome => return Session.conclude (Console.silence Terminal.host outcome)
  | .going frames c =>
    present before c.host st.settings.mute
    writeLines st (Session.logLines st.level c.log.toList)
    let spent := (← IO.monoNanosNow) - started
    if spent < frameNanos then IO.sleep (UInt32.ofNat ((frameNanos - spent) / 1000000))
    play st frames { c with log := #[] }

/-- The number of an error comes with either sign. -/
def systemError : IO.Error → SystemError
  | .permissionDenied .. => .permissionDenied
  | .inappropriateType _ code _ => if code = 20 ∨ code = -20 then .notADirectory else .isADirectory
  | .invalidArgument .. => .nameTooLong
  | _ => .notFound

/-- A directory is noticed when it is read. -/
def readProgram (path : String) : IO (Except SystemError Entry) := do
  try
    return .ok (.file (← IO.FS.readBinFile path).toList)
  catch e =>
    match systemError e with
    | .isADirectory => return .ok .directory
    | refusal => return .error refusal

def openLog (settings : Settings) : IO (Except SystemError (Option IO.FS.Handle)) := do
  try
    return .ok (← settings.logFile.mapM fun path => IO.FS.Handle.mk path .write)
  catch e => return .error (systemError e)

def entropy : IO RandomSource := do
  let bytes ← IO.getRandomBytes 8
  return .ofSeed (bytes.toList.foldl (fun n b => n <<< 8 ||| b.toUInt64) 0)

def runLogged (settings : Settings) (logFile : Option IO.FS.Handle) : IO Report := do
  let level := ((← IO.getEnv "LOG_LEVEL").bind Level.ofName?).getD .error
  let st : Station := ⟨settings, level, ← IO.mkRef [], logFile⟩
  let report ← match Session.boot settings (← readProgram settings.program) (← entropy) [] with
    | .error report => pure report
    | .ok console =>
      let _ ← IO.asTask (listen st.typed) .dedicated
      IO.print "\x1b[2J"
      play st 0 console
  writeLines st (Session.logLines level report.log)
  return report

/-- The log file is opened before the program is read. -/
def run (settings : Settings) : IO UInt32 := do
  let report ← match ← openLog settings with
    | .error refusal => pure (Session.failed [] refusal.summary)
    | .ok logFile => runLogged settings logFile
  if let some text := report.complaint then IO.eprintln text
  return UInt32.ofNat report.code

end ChipEight.Live

open ChipEight in
def main (args : List String) : IO UInt32 := do
  match CommandLine.parse args with
  | .run settings => Live.run settings
  | .help => IO.println Live.usage; return 0
  | .misuse => IO.eprintln Live.usage; return 2
