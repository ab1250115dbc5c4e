import GroundPlanner.Random.Source
/-!
# Seeded random words

The words of the ChaCha cipher with eight rounds, a 64-bit block counter that starts at zero and a zero
nonce.  The key comes from a 64-bit seed: eight words of a permuted congruential generator.
-/
namespace GroundPlanner
namespace ChaCha

/-- The sixteen words of a block. -/
abbrev Block := Vector UInt32 16

def rotateLeft (x k : UInt32) : UInt32 :=
  (x <<< k) ||| (x >>> (32 - k))

/-- One quarter round on the words at four places. -/
def quarterRound (s : Block) (a b c d : Fin 16) : Block :=
  let mixed (s : Block) (a b d : Fin 16) (k : UInt32) : Block :=
    let s := s.set a (s[a] + s[b])
    s.set d (rotateLeft (s[d] ^^^ s[a]) k)
  let s := mixed s a b d 16
  let s := mixed s c d b 12
  let s := mixed s a b d 8
  mixed s c d b 7

/-- A round on the columns followed by one on the diagonals. -/
def doubleRound (s : Block) : Block :=
  let s := quarterRound s 0 4 8 12
  let s := quarterRound s 1 5 9 13
  let s := quarterRound s 2 6 10 14
  let s := quarterRound s 3 7 11 15
  let s := quarterRound s 0 5 10 15
  let s := quarterRound s 1 6 11 12
  let s := quarterRound s 2 7 8 13
  quarterRound s 3 4 9 14

/-- The output block of an input block: eight rounds, then the input is added word by word. -/
def permute (s : Block) : Block :=
  let t := doubleRound (doubleRound (doubleRound (doubleRound s)))
  Vector.zipWith (· + ·) t s

/-- The input block of a key and a block number. -/
def inputBlock (key : Vector UInt32 8) (number : UInt64) : Block :=
  #v[0x61707865, 0x3320646e, 0x79622d32, 0x6b206574,
    key[0], key[1], key[2], key[3], key[4], key[5], key[6], key[7],
    number.toUInt32, (number >>> 32).toUInt32, 0, 0]

/-! ## Keys from seeds -/

/-- One step of the seed's generator: the next state and the word that it gives. -/
def seedStep (state : UInt64) : UInt64 × UInt32 :=
  let state := state * 6364136223846793005 + 11634580027462260723
  let mixed := (((state >>> 18) ^^^ state) >>> 27).toUInt32
  let turn := (state >>> 59).toUInt32
  (state, (mixed >>> turn) ||| (mixed <<< ((32 - turn) % 32)))

/-- The first `n` words of the seed's generator. -/
def seedWords : Nat → UInt64 → List UInt32
  | 0, _ => []
  | n + 1, state =>
    let (state, word) := seedStep state
    word :: seedWords n state

theorem length_seedWords (n : Nat) (state : UInt64) : (seedWords n state).length = n := by
  induction n generalizing state with
  | zero => rfl
  | succ n ih => simp [seedWords, ih]

def keyOfSeed (seed : UInt64) : Vector UInt32 8 :=
  ⟨(seedWords 8 seed).toArray, by simp [length_seedWords]⟩

end ChaCha

/-- What is left of the current block, and the number of the next one. -/
structure ChaChaMemory where
  left : List UInt32
  nextBlock : UInt64

/-- The random words of a seed. -/
def RandomSource.seeded (seed : UInt64) : RandomSource :=
  let key := ChaCha.keyOfSeed seed
  { Memory := ChaChaMemory
    start := ⟨[], 0⟩
    next := fun m => match m.left with
      | word :: rest => (word, { m with left := rest })
      | [] =>
        let block := ChaCha.permute (ChaCha.inputBlock key m.nextBlock)
        (block.get ⟨0, by decide⟩, ⟨block.toList.drop 1, m.nextBlock + 1⟩) }

end GroundPlanner
