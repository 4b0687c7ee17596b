import ChipEight.ChaCha

/-! A source of random 32-bit words: the whole sequence and how many words have been taken. -/
namespace ChipEight

structure RandomSource where
  word : Nat → UInt32
  position : Nat := 0

namespace RandomSource

def next (r : RandomSource) : UInt32 × RandomSource :=
  (r.word r.position, { r with position := r.position + 1 })

def ofSeed (seed : UInt64) : RandomSource :=
  let key := ChaCha.keyOfSeed seed
  { word := ChaCha.word key }

/-- The given words over and over. -/
def cyclic (words : Array UInt32) : RandomSource where
  word k := words[k % words.size]?.getD 0

theorem word_next (r : RandomSource) : r.next.2.word = r.word := rfl

end RandomSource

end ChipEight
