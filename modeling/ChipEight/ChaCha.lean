/-! The stream of ChaCha with twelve rounds as a sequence of 32-bit words, and the key that a 64-bit
seed expands to. Word `k` of the stream is word `k % 16` of block `k / 16`. -/
namespace ChipEight.ChaCha

abbrev Block := Vector UInt32 16

abbrev Key := Vector UInt32 8

def rotateLeft (w : UInt32) (n : UInt32) : UInt32 := w <<< n ||| w >>> (32 - n)

/-- A shift by a multiple of the width leaves the word alone. -/
def rotateRight (w : UInt32) (n : UInt32) : UInt32 := w >>> n ||| w <<< ((32 - n) % 32)

def quarterRound (s : Block) (a b c d : Fin 16) : Block :=
  let s := s.set a (s[a] + s[b])
  let s := s.set d (rotateLeft (s[d] ^^^ s[a]) 16)
  let s := s.set c (s[c] + s[d])
  let s := s.set b (rotateLeft (s[b] ^^^ s[c]) 12)
  let s := s.set a (s[a] + s[b])
  let s := s.set d (rotateLeft (s[d] ^^^ s[a]) 8)
  let s := s.set c (s[c] + s[d])
  s.set b (rotateLeft (s[b] ^^^ s[c]) 7)

def columnRound (s : Block) : Block :=
  quarterRound (quarterRound (quarterRound (quarterRound s 0 4 8 12) 1 5 9 13) 2 6 10 14) 3 7 11 15

def diagonalRound (s : Block) : Block :=
  quarterRound (quarterRound (quarterRound (quarterRound s 0 5 10 15) 1 6 11 12) 2 7 8 13) 3 4 9 14

/-- Four constants, the key, a block counter of two words and two zeroes. -/
def initial (key : Key) (counter : Nat) : Block :=
  #v[0x61707865, 0x3320646e, 0x79622d32, 0x6b206574,
    key[0], key[1], key[2], key[3], key[4], key[5], key[6], key[7],
    UInt32.ofNat counter, UInt32.ofNat (counter / UInt32.size), 0, 0]

def block (key : Key) (counter : Nat) : Block :=
  let s := initial key counter
  (Nat.repeat (fun s => diagonalRound (columnRound s)) 6 s).zipWith (· + ·) s

def word (key : Key) (k : Nat) : UInt32 := (block key (k / 16)).get (Fin.ofNat 16 k)

def seedStep (state : UInt64) : UInt64 := state * 6364136223846793005 + 11634580027462260723

/-- The output of one state: its high bits folded and rotated by the top five. -/
def seedWord (state : UInt64) : UInt32 :=
  rotateRight ((state >>> 18 ^^^ state) >>> 27).toUInt32 (state >>> 59).toUInt32

/-- The key word `k` comes from the state after `k + 1` steps. -/
def keyOfSeed (seed : UInt64) : Key :=
  Vector.ofFn fun k : Fin 8 => seedWord (Nat.repeat seedStep (k.val + 1) seed)

end ChipEight.ChaCha
