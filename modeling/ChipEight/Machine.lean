import ChipEight.Alu
import ChipEight.ByteReader
import ChipEight.CallStack
import ChipEight.Event
import ChipEight.Keypad
import ChipEight.RandomSource
import ChipEight.Screen
import ChipEight.Timers

/-! The whole machine as a value, and what a host does to it between steps: load a program, reset,
tick the timers, press keys. Every operation answers with a result, the machine after it and the
events it made. -/
namespace ChipEight

inductive Status
  | running
  | awaitingKey (x : Register)
  | faulted (failure : Failure)
  deriving DecidableEq

structure Machine where
  memory : Memory
  v : Vector UInt8 16
  index : UInt16
  pc : UInt16
  stack : CallStack
  timers : Timers
  screen : Screen
  keypad : Keypad
  status : Status
  lastFailure : Option Failure
  dialect : Dialect
  random : RandomSource

structure Reply where
  result : Except Failure Unit
  machine : Machine
  log : List Event

namespace Machine

def start (random : RandomSource) (dialect : Dialect) : Machine where
  memory := Memory.fresh
  v := Vector.replicate 16 0
  index := 0
  pc := 0x200
  stack := CallStack.empty
  timers := {}
  screen := Screen.blank
  keypad := Keypad.released
  status := .running
  lastFailure := none
  dialect := dialect
  random := random

/-- All but the dialect and the position in the random words goes back to the start. -/
def resetState (m : Machine) : Machine :=
  { start m.random m.dialect with memory := m.memory.reset, pc := m.memory.programBase }

def isSounding (m : Machine) : Bool := m.timers.isSounding

/-- Blocked on a key with none down. -/
def isAwaitingKey (m : Machine) : Bool :=
  match m.status with
  | .awaitingKey _ => m.keypad.firstPressed.isNone
  | _ => false

def isFaulted (m : Machine) : Bool :=
  match m.status with
  | .faulted _ => true
  | _ => false

def register? (m : Machine) (n : Nat) : Option UInt8 := m.v[n]?

/-- One line for each register, then the index, the program counter and the stack depth. -/
def registerDump (m : Machine) : String :=
  "\n".intercalate <|
    ((List.finRange 16).map fun k : Register =>
      (Operand.register k).text ++ ": " ++ Hex.padded 2 (m.v.get k).toNat) ++
    ["I:  " ++ Hex.padded 4 m.index.toNat, "PC: " ++ Hex.padded 4 m.pc.toNat,
      "SP: " ++ m.stack.depth.val.repr]

def registerNames : Vector String 16 :=
  #v["V0", "V1", "V2", "V3", "V4", "V5", "V6", "V7", "V8", "V9", "VA", "VB", "VC", "VD", "VE", "VF"]

/-- What a dump tells, line for line: two digits for a register, four for an address, and the depth of
the stack in decimal. -/
def registerLines (m : Machine) : List String :=
  ((List.finRange 16).map fun k => registerNames.get k ++ ": 0x" ++ Hex.ofBytes [m.v.get k]) ++
    ["I:  0x" ++ Hex.ofWord m.index, "PC: 0x" ++ Hex.ofWord m.pc,
      "SP: " ++ m.stack.depth.val.repr]

theorem text_register : ∀ k : Register, (Operand.register k).text = registerNames.get k := by decide

theorem registerDump_eq (m : Machine) : m.registerDump = "\n".intercalate m.registerLines := by
  have hregister (k : Register) : (Operand.register k).text ++ ": " ++ Hex.padded 2 (m.v.get k).toNat =
      registerNames.get k ++ ": 0x" ++ Hex.ofBytes [m.v.get k] := by
    have hcolon : ": 0x" = ": " ++ "0x" := by decide
    rw [text_register, Hex.padded, Hex.bare_byte, hcolon]
    simp only [String.append_assoc]
  have hword {name label : String} (h : label = name ++ "0x") (w : UInt16) :
      name ++ Hex.padded 4 w.toNat = label ++ Hex.ofWord w := by
    rw [h, Hex.padded, Hex.bare_word, String.append_assoc]
  have hindex : "I:  0x" = "I:  " ++ "0x" := by decide
  have hpc : "PC: 0x" = "PC: " ++ "0x" := by decide
  simp only [registerDump, registerLines, hregister, hword hindex, hword hpc]

/-- A fatal failure stops the machine; either kind is reported, and a copy of it is kept. -/
def fail (m : Machine) (f : Failure) : Reply :=
  if f.isFatal then
    { result := .error f
      machine := { m with status := .faulted f.copy, lastFailure := some f.copy }
      log := [.faulted f m.registerDump] }
  else
    { result := .error f
      machine := { m with lastFailure := some f.copy }
      log := [.refused f] }

def reset (m : Machine) : Reply := ⟨.ok (), m.resetState, [.reset]⟩

/-- Nothing but memory changes when a program is loaded. -/
def load (m : Machine) (program : List UInt8) : Reply :=
  match m.memory.loadProgram program with
  | .ok memory => ⟨.ok (), { m with memory := memory }, [.programLoaded program.length]⟩
  | .error f => m.fail f

def loadFrom (m : Machine) (chunks : List Chunk) : Reply :=
  match m.memory.loadProgramFrom chunks with
  | .ok memory => ⟨.ok (), { m with memory := memory }, [.programRead]⟩
  | .error f => m.fail f

def tick (m : Machine) : Machine := { m with timers := m.timers.tick }

def setKey (m : Machine) (index : Nat) (pressed : Bool) : Reply :=
  match m.keypad.set index pressed with
  | .ok keypad => ⟨.ok (), { m with keypad := keypad }, []⟩
  | .error f => m.fail f

theorem result_fail (m : Machine) (f : Failure) : (m.fail f).result = .error f := by
  unfold fail; split <;> rfl

theorem lastFailure_fail (m : Machine) (f : Failure) :
    (m.fail f).machine.lastFailure = some f.copy := by
  unfold fail; split <;> rfl

theorem fail_of_fatal (m : Machine) {f : Failure} (h : f.isFatal = true) :
    m.fail f = ⟨.error f, { m with status := .faulted f, lastFailure := some f },
      [.faulted f m.registerDump]⟩ := by
  simp [fail, h, Failure.copy_of_fatal h]

theorem fail_of_not_fatal (m : Machine) {f : Failure} (h : f.isFatal = false) :
    m.fail f = ⟨.error f, { m with lastFailure := some f.copy }, [.refused f]⟩ := by
  simp [fail, h]

theorem setKey_of_lt (m : Machine) {index : Nat} (h : index < 16) (pressed : Bool) :
    m.setKey index pressed =
      ⟨.ok (), { m with keypad := m.keypad.setKey ⟨index, h⟩ pressed }, []⟩ := by
  simp [setKey, Keypad.set, h]

end Machine

end ChipEight
