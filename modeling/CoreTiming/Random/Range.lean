import CoreTiming.Random.Xoshiro

namespace CoreTiming.Random

def Generator.bits (width : Nat) (g : Generator) : Nat × Generator :=
  let (word, g) := g.word
  (word.toNat / Nat.pow 2 (64 - width), g)

/-- The largest low half that is accepted for a range of `size` values. -/
def acceptance (width size : Nat) : Nat :=
  size * Nat.pow 2 (width - (Nat.log2 size + 1)) - 1

/-- Draws until a word is accepted, but at most `attempts` times. -/
def Generator.choose (width size : Nat) : Nat → Generator → Nat × Generator
  | 0, g => (0, g)
  | attempts + 1, g =>
    let draw := g.bits width
    let product := draw.1 * size
    if product % Nat.pow 2 width ≤ acceptance width size then (product / Nat.pow 2 width, draw.2)
    else draw.2.choose width size attempts

/-- The number of states of a generator: a search that is still going on after as many draws would
    never end. -/
@[irreducible]
def stateCount : Nat := Nat.pow 2 256

/-- A word between `low` and `high`, both included. A range of all words takes the word drawn. -/
def Generator.between (width low high : Nat) (g : Generator) : Nat × Generator :=
  let size := high - low + 1
  if size = Nat.pow 2 width then g.bits width
  else
    let draw := g.choose width size stateCount
    (low + draw.1, draw.2)

def Generator.below (width limit : Nat) (g : Generator) : Nat × Generator :=
  g.between width 0 (limit - 1)

end CoreTiming.Random
