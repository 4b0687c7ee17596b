import ChipEight.Alu
import ChipEight.Numeral

/-! The command line. Options come in any order and at most once each; a value stands after the option
or after an equals sign, and no separate value starts with a dash. Arguments are judged from left to
right, so a request for help counts only if nothing before it is wrong. -/
namespace ChipEight

structure Settings where
  program : String
  cyclesPerFrame : Nat := 12
  frames : Option Nat := none
  seed : Option UInt64 := none
  dialect : Dialect := {}
  mute : Bool := false
  logFile : Option String := none
  deriving DecidableEq

inductive Invocation
  | run (settings : Settings)
  | help
  | misuse
  deriving DecidableEq

namespace CommandLine

inductive Flag
  | shiftsSecond | transferAdvances | mute
  deriving DecidableEq

inductive Valued
  | cyclesPerFrame | frames | seed | logFile
  deriving DecidableEq

def flag? : String → Option Flag
  | "shift-quirk" => some .shiftsSecond
  | "load-store-quirk" => some .transferAdvances
  | "mute" => some .mute
  | _ => none

def valued? : String → Option Valued
  | "cycles-per-frame" => some .cyclesPerFrame
  | "frames" => some .frames
  | "seed" => some .seed
  | "log-file" => some .logFile
  | _ => none

def number? (s : String) : Option Nat := readNumeral? UInt64.size s.toList

def path? (s : String) : Option String := if s.isEmpty then none else some s

/-- What has been given so far. -/
structure Draft where
  program : Option String := none
  flags : List Flag := []
  cyclesPerFrame : Option Nat := none
  frames : Option Nat := none
  seed : Option Nat := none
  logFile : Option String := none

namespace Draft

/-- Fills a place that must still be empty with a value that must be right. -/
def once (place : Option α) (value : Option α) : Option α :=
  match place with
  | some _ => none
  | none => value

def addFlag (d : Draft) (f : Flag) : Option Draft :=
  if f ∈ d.flags then none else some { d with flags := f :: d.flags }

def addValue (d : Draft) (name : Valued) (value : String) : Option Draft :=
  match name with
  | .cyclesPerFrame => (once d.cyclesPerFrame (number? value)).map fun n => { d with cyclesPerFrame := n }
  | .frames => (once d.frames (number? value)).map fun n => { d with frames := n }
  | .seed => (once d.seed (number? value)).map fun n => { d with seed := n }
  | .logFile => (once d.logFile (path? value)).map fun p => { d with logFile := p }

def addProgram (d : Draft) (path : String) : Option Draft :=
  (once d.program (path? path)).map fun p => { d with program := p }

def finish (d : Draft) : Invocation :=
  match d.program with
  | none => .misuse
  | some path =>
    .run
      { program := path
        cyclesPerFrame := d.cyclesPerFrame.getD 12
        frames := d.frames
        seed := d.seed.map UInt64.ofNat
        dialect :=
          { shiftsSecond := d.flags.contains .shiftsSecond
            transferAdvances := d.flags.contains .transferAdvances }
        mute := d.flags.contains .mute
        logFile := d.logFile }

end Draft

inductive Argument
  | long (name : String) (value : Option String)
  | short (letters : List Char)
  | endOfOptions
  | plain (text : String)

/-- A dash alone is a plain argument. -/
def Argument.ofString (s : String) : Argument :=
  match s.toList with
  | ['-', '-'] => .endOfOptions
  | '-' :: '-' :: rest =>
    let name := rest.takeWhile (· ≠ '=')
    match rest.dropWhile (· ≠ '=') with
    | [] => .long (String.ofList name) none
    | _ :: value => .long (String.ofList name) (some (String.ofList value))
  | '-' :: c :: rest => .short (c :: rest)
  | _ => .plain s

def plain? (s : String) : Option String :=
  match Argument.ofString s with
  | .plain text => some text
  | _ => none

/-- All that follows the end of the options. -/
def readPlain (d : Draft) : List String → Invocation
  | [] => d.finish
  | arg :: rest =>
    match d.addProgram arg with
    | some d => readPlain d rest
    | none => .misuse

def read (d : Draft) : List String → Invocation
  | [] => d.finish
  | arg :: rest =>
    match Argument.ofString arg with
    | .endOfOptions => readPlain d rest
    | .plain text =>
      match d.addProgram text with
      | some d => read d rest
      | none => .misuse
    | .short letters => if letters.head? = some 'h' then .help else .misuse
    | .long "help" none => .help
    | .long name none =>
      match flag? name with
      | some f =>
        match d.addFlag f with
        | some d => read d rest
        | none => .misuse
      | none =>
        match rest with
        | [] => .misuse
        | next :: rest =>
          match (valued? name).bind fun v => (plain? next).bind (d.addValue v) with
          | some d => read d rest
          | none => .misuse
    | .long name (some value) =>
      match (valued? name).bind (d.addValue · value) with
      | some d => read d rest
      | none => .misuse

def parse (args : List String) : Invocation := read {} args

end CommandLine

end ChipEight
