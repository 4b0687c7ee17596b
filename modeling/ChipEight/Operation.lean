import ChipEight.Execution

/-! Everything that can be done to a machine, as data, so that whole histories can be spoken of. -/
namespace ChipEight

inductive Operation
  | load (program : List UInt8)
  | loadFrom (chunks : List Chunk)
  | reset
  | step
  | tick
  | setKey (index : Nat) (pressed : Bool)

namespace Machine

def perform (m : Machine) : Operation → Reply
  | .load program => m.load program
  | .loadFrom chunks => m.loadFrom chunks
  | .reset => m.reset
  | .step => m.step
  | .tick => ⟨.ok (), m.tick, []⟩
  | .setKey index pressed => m.setKey index pressed

/-- The reply to each operation of a history, in order. -/
def replies (m : Machine) : List Operation → List Reply
  | [] => []
  | op :: ops => m.perform op :: replies (m.perform op).machine ops

def after (m : Machine) (ops : List Operation) : Machine :=
  ops.foldl (fun m op => (m.perform op).machine) m

def logOf (m : Machine) (ops : List Operation) : List Event := (m.replies ops).flatMap (·.log)

/-- What some history leads to from a machine at the start. -/
def Reachable (m : Machine) : Prop := ∃ random dialect ops, m = (start random dialect).after ops

theorem after_append (m : Machine) (a b : List Operation) :
    m.after (a ++ b) = (m.after a).after b := by
  simp [after]

theorem Reachable.start (random : RandomSource) (dialect : Dialect) :
    Reachable (start random dialect) := ⟨random, dialect, [], rfl⟩

end Machine

end ChipEight
