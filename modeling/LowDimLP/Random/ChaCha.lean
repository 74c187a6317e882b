import LowDimLP.Random.Source
/-!
# The seeded word stream

A ChaCha keystream of twelve rounds with a 64-bit block counter and stream number zero, read as 64-bit
words. A 64-bit seed is expanded to the 256-bit key by a linear congruential generator with a permuted
output.
-/

namespace LowDimLP

namespace ChaCha

/-- The sixteen 32-bit words of a block. -/
abbrev State := Vector UInt32 16

/-- Rotation to the left. -/
def rotl (x : UInt32) (k : UInt32) : UInt32 := (x <<< k) ||| (x >>> (32 - k))

/-- The quarter round on four positions of the state. -/
def quarterRound (a b c d : Fin 16) (s : State) : State :=
  let s := s.set a (s[a] + s[b]); let s := s.set d (rotl (s[d] ^^^ s[a]) 16)
  let s := s.set c (s[c] + s[d]); let s := s.set b (rotl (s[b] ^^^ s[c]) 12)
  let s := s.set a (s[a] + s[b]); let s := s.set d (rotl (s[d] ^^^ s[a]) 8)
  let s := s.set c (s[c] + s[d]); s.set b (rotl (s[b] ^^^ s[c]) 7)

/-- A round on the columns followed by a round on the diagonals. -/
def doubleRound (s : State) : State :=
  let s := quarterRound 0 4 8 12 s
  let s := quarterRound 1 5 9 13 s
  let s := quarterRound 2 6 10 14 s
  let s := quarterRound 3 7 11 15 s
  let s := quarterRound 0 5 10 15 s
  let s := quarterRound 1 6 11 12 s
  let s := quarterRound 2 7 8 13 s
  quarterRound 3 4 9 14 s

/-- The input of a block: constants, key, block counter and stream number. -/
def initial (key : Vector UInt32 8) (counter : UInt64) : State :=
  #v[0x61707865, 0x3320646e, 0x79622d32, 0x6b206574,
     key[0], key[1], key[2], key[3], key[4], key[5], key[6], key[7],
     counter.toUInt32, (counter >>> 32).toUInt32, 0, 0]

/-- Twelve rounds, added to the input. -/
def block (key : Vector UInt32 8) (counter : UInt64) : State :=
  let s := initial key counter
  Vector.zipWith (· + ·) s (Nat.repeat doubleRound 6 s)

/-- A block as 64-bit words, the lower half of each first. -/
def words (s : State) : Vector UInt64 8 :=
  Vector.ofFn fun i => s[2 * i.val].toUInt64 ||| (s[2 * i.val + 1].toUInt64 <<< 32)

/-- One step of the seed expansion. -/
def expand (seed : UInt64) : UInt64 := seed * 6364136223846793005 + 11634580027462260723

/-- The 32 bits put out at a step of the seed expansion. -/
def keyWord (seed : UInt64) : UInt32 :=
  let x := (((seed >>> 18) ^^^ seed) >>> 27).toUInt32
  let k := (seed >>> 59).toUInt32
  if k = 0 then x else (x >>> k) ||| (x <<< (32 - k))

/-- The first `n` key words of a seed. -/
def keyWords : Nat → UInt64 → List UInt32
  | 0, _ => []
  | n + 1, seed => let next := expand seed; keyWord next :: keyWords n next

theorem length_keyWords (n : Nat) (seed : UInt64) : (keyWords n seed).length = n := by
  induction n generalizing seed with
  | zero => rfl
  | succ n ih => simp [keyWords, ih]

/-- The key of a seed. -/
def keyOfSeed (seed : UInt64) : Vector UInt32 8 := ⟨(keyWords 8 seed).toArray, length_keyWords 8 seed⟩

end ChaCha

/-- A position in the keystream of a key: the current block, and how many of its words are used. -/
structure ChaCha where
  key : Vector UInt32 8
  counter : UInt64
  current : Vector UInt64 8
  used : Nat

namespace ChaCha

/-- The keystream of a seed from its start. -/
def ofSeed (seed : UInt64) : ChaCha :=
  let key := keyOfSeed seed
  ⟨key, 0, words (block key 0), 0⟩

instance : WordSource ChaCha where
  next s :=
    if h : s.used < 8 then (s.current[s.used], { s with used := s.used + 1 })
    else
      let counter := s.counter + 1
      let current := words (block s.key counter)
      (current[0], { s with counter, current, used := 1 })

end ChaCha

end LowDimLP
