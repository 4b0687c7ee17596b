import ChipEight.Hex
import ChipEight.SystemError

/-! What can go wrong while a program is loaded or run. The fatal failures leave the machine in a
state from which only a reset leads on; the others are reported and passed over. -/
namespace ChipEight

/-- What stops a read: the system, or the source of the bytes for reasons of its own. -/
inductive IoFailure
  | system (error : SystemError)
  | source (kind : IoKind) (message : String)
  deriving DecidableEq

namespace IoFailure

def kind : IoFailure → IoKind
  | system error => error.kind
  | source kind _ => kind

def message : IoFailure → String
  | system error => error.message
  | source _ message => message

def summary : IoFailure → String
  | system error => error.summary
  | source _ message => message

/-- A cause cannot be had twice, so its copy is one of the same kind with the same message. -/
def copy (cause : IoFailure) : IoFailure := source cause.kind cause.message

end IoFailure

inductive Failure
  | romTooLarge (size max : Nat)
  | stackOverflow (pc : UInt16)
  | stackUnderflow (pc : UInt16)
  | unknownOpcode (word pc : UInt16)
  | outOfBounds (address : Nat)
  | invalidKey (index : Nat)
  | io (cause : IoFailure)
  deriving DecidableEq

namespace Failure

def isFatal : Failure → Bool
  | stackOverflow _ | stackUnderflow _ | outOfBounds _ => true
  | _ => false

def message : Failure → String
  | romTooLarge size max =>
    "ROM is too large (" ++ size.repr ++ " bytes), max size is " ++ max.repr ++ " bytes"
  | stackOverflow pc =>
    "stack overflow: call at " ++ Hex.padded 4 pc.toNat ++ " with all 16 stack slots in use"
  | stackUnderflow pc =>
    "stack underflow: return at " ++ Hex.padded 4 pc.toNat ++ " with an empty call stack"
  | unknownOpcode word pc =>
    "unknown opcode " ++ Hex.padded 4 word.toNat ++ " at " ++ Hex.padded 4 pc.toNat
  | outOfBounds address => "memory access out of bounds at address " ++ Hex.padded 4 address
  | invalidKey index => "key index " ++ Hex.plain index ++ " is outside the 16-key bank"
  | io cause => cause.message

/-- The name of the cause with its numbers in decimal, as a program that fails prints it last. -/
def summary : Failure → String
  | romTooLarge size max =>
    "RomTooLarge \x7b size: " ++ size.repr ++ ", max: " ++ max.repr ++ " \x7d"
  | stackOverflow pc => "StackOverflow \x7b pc: " ++ pc.toNat.repr ++ " \x7d"
  | stackUnderflow pc => "StackUnderflow \x7b pc: " ++ pc.toNat.repr ++ " \x7d"
  | unknownOpcode word pc =>
    "UnknownOpcode \x7b opcode: " ++ word.toNat.repr ++ ", pc: " ++ pc.toNat.repr ++ " \x7d"
  | outOfBounds address => "MemoryOutOfBounds \x7b addr: " ++ address.repr ++ " \x7d"
  | invalidKey index => "InvalidKey(" ++ index.repr ++ ")"
  | io cause => "Io(" ++ cause.summary ++ ")"

def copy : Failure → Failure
  | io cause => io cause.copy
  | f => f

theorem message_copy (f : Failure) : f.copy.message = f.message := by cases f <;> rfl

theorem copy_of_fatal {f : Failure} (h : f.isFatal = true) : f.copy = f := by
  cases f with
  | io _ => cases h
  | _ => rfl

theorem isFatal_iff (f : Failure) : f.isFatal = true ↔
    (∃ pc, f = stackOverflow pc) ∨ (∃ pc, f = stackUnderflow pc) ∨ ∃ a, f = outOfBounds a := by
  cases f <;> simp [isFatal]

end Failure

end ChipEight
