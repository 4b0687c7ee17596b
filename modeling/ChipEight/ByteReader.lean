import ChipEight.Memory

/-! A source of bytes that comes in pieces, any of which may fail. Reading to the end joins the
pieces up to the first empty one, tries again after an interruption, and gives up at any other
failure. -/
namespace ChipEight

inductive Chunk
  | bytes (data : List UInt8)
  | failure (cause : IoFailure)
  deriving DecidableEq

namespace Chunk

def readToEnd : List Chunk → Except Failure (List UInt8)
  | [] => .ok []
  | bytes [] :: _ => .ok []
  | bytes (b :: data) :: rest => (readToEnd rest).map (b :: data ++ ·)
  | failure cause :: rest =>
    if cause.kind = .interrupted then readToEnd rest else .error (.io cause)

theorem readToEnd_failure {cause : IoFailure} (h : cause.kind ≠ .interrupted) (rest : List Chunk) :
    readToEnd (failure cause :: rest) = .error (.io cause) := by
  simp [readToEnd, h]

end Chunk

/-- Nothing is written before the whole program has been read and its size checked. -/
def Memory.loadProgramFrom (m : Memory) (chunks : List Chunk) : Except Failure Memory := do
  m.loadProgram (← Chunk.readToEnd chunks)

theorem Memory.loadProgramFrom_of_readToEnd (m : Memory) {chunks : List Chunk} {data : List UInt8}
    (h : Chunk.readToEnd chunks = .ok data) : m.loadProgramFrom chunks = m.loadProgram data := by
  simp [loadProgramFrom, h, bind, Except.bind]

end ChipEight
