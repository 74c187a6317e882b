import LowDimLP.Random.ChaCha
/-!
# Replay tokens

A token names a random instance by the seed of its family and its index in it. The two words are mixed
into the seed of one stream; the mixing is a bijection in each word, so within a family, and across
families at one index, no two tokens share a stream.
-/

namespace LowDimLP

/-- The name of a random instance. -/
structure ReplayToken where
  seed : UInt64
  index : UInt64
  deriving DecidableEq, Repr

namespace ReplayToken

/-- Spreads every bit of a word over the whole word. -/
def mix (x : UInt64) : UInt64 :=
  let x := (x ^^^ (x >>> 30)) * 0xbf58476d1ce4e5b9
  let x := (x ^^^ (x >>> 27)) * 0x94d049bb133111eb
  x ^^^ (x >>> 31)

/-- The seed of the token's stream. -/
def streamSeed (token : ReplayToken) : UInt64 :=
  mix (token.seed ^^^ mix (token.index + 0x9e3779b97f4a7c15))

/-- The token's stream. -/
def stream (token : ReplayToken) : ChaCha := ChaCha.ofSeed token.streamSeed

end ReplayToken

end LowDimLP
