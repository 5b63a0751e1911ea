namespace CoreTiming.Random

def splitMix (state : UInt64) : UInt64 × UInt64 :=
  let state := state + 0x9E3779B97F4A7C15
  let z := (state ^^^ (state >>> 30)) * 0xBF58476D1CE4E5B9
  let z := (z ^^^ (z >>> 27)) * 0x94D049BB133111EB
  (state, z ^^^ (z >>> 31))

structure Generator where
  s0 : UInt64
  s1 : UInt64
  s2 : UInt64
  s3 : UInt64
  deriving DecidableEq, Repr

def Generator.ofSeed (seed : Nat) : Generator :=
  let (state, s0) := splitMix (.ofNat seed)
  let (state, s1) := splitMix state
  let (state, s2) := splitMix state
  let (_, s3) := splitMix state
  ⟨s0, s1, s2, s3⟩

def rotateLeft (x : UInt64) (amount : UInt64) : UInt64 :=
  (x <<< amount) ||| (x >>> (64 - amount))

def Generator.word (g : Generator) : UInt64 × Generator :=
  let result := rotateLeft (g.s1 * 5) 7 * 9
  let s2 := g.s2 ^^^ g.s0
  let s3 := g.s3 ^^^ g.s1
  (result, ⟨g.s0 ^^^ s3, g.s1 ^^^ s2, s2 ^^^ (g.s1 <<< 17), rotateLeft s3 45⟩)

end CoreTiming.Random
