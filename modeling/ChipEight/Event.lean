import ChipEight.Failure
import ChipEight.Mnemonic

/-! What is worth telling while a program runs: each event has a level and a text. The text of a
fault carries the registers as they are at that moment. -/
namespace ChipEight

inductive Level
  | error | warn | info | debug | trace
  deriving DecidableEq

namespace Level

def rank : Level → Nat
  | error => 1 | warn => 2 | info => 3 | debug => 4 | trace => 5

def name : Level → String
  | error => "ERROR" | warn => "WARN" | info => "INFO" | debug => "DEBUG" | trace => "TRACE"

def ofName? : String → Option Level
  | "error" => some error
  | "warn" => some warn
  | "info" => some info
  | "debug" => some debug
  | "trace" => some trace
  | _ => none

/-- Whether a log kept at level `threshold` holds an event of level `l`. -/
def admits (threshold l : Level) : Bool := l.rank ≤ threshold.rank

end Level

inductive Event
  | programLoaded (size : Nat)
  | programRead
  | reset
  | executing (pc word : UInt16) (instruction : Instruction)
  | waiting (x : Register)
  | resumed (key : Fin 16) (x : Register)
  | refused (failure : Failure)
  | faulted (failure : Failure) (registers : String)
  | strayKey (key : UInt8)
  | unmappedKey (quoted : String)
  | ignoredKey (name : String)
  | quit (frames : Nat)
  | finished (frames : Nat)
  deriving DecidableEq

namespace Event

def level : Event → Level
  | programLoaded _ | programRead | quit _ | finished _ => .info
  | reset | waiting _ | resumed .. | unmappedKey _ | ignoredKey _ => .debug
  | executing .. => .trace
  | refused _ | strayKey _ => .warn
  | faulted .. => .error

def text : Event → String
  | programLoaded size => "loaded " ++ size.repr ++ " byte program"
  | programRead => "loaded program"
  | reset => "reset"
  | executing pc word i =>
    Hex.padded 3 pc.toNat ++ ": " ++ Hex.bare 4 word.toNat ++ "  " ++ i.mnemonic.text
  | waiting x => "waiting for a key for " ++ (Operand.register x).text
  | resumed key x =>
    "key " ++ String.singleton (Hex.upperDigit key) ++ " pressed, " ++ (Operand.register x).text ++
      " resumed"
  | refused f => f.message
  | faulted f registers => f.message ++ "\n" ++ registers
  | strayKey key => "input produced key " ++ Hex.plain key.toNat ++ ", ignoring"
  | unmappedKey quoted => "can\x27t map " ++ quoted ++ " to a COSMAC key"
  | ignoredKey name => "ignoring key event " ++ name
  | quit frames => "quit after " ++ frames.repr ++ " frames"
  | finished frames => "ran " ++ frames.repr ++ " frames"

def record (e : Event) : String := e.level.name ++ " " ++ e.text

end Event

/-- The records of a log kept at a level. -/
def logRecords (threshold : Level) (log : List Event) : List String :=
  (log.filter fun e => threshold.admits e.level).map Event.record

theorem logRecords_append (threshold : Level) (a b : List Event) :
    logRecords threshold (a ++ b) = logRecords threshold a ++ logRecords threshold b := by
  simp [logRecords]

end ChipEight
