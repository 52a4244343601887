import Chip8.Twister

namespace Chip8

inductive Generator
  | sequence (value : Nat → UInt8)
  | twister (t : Twister)

/-- A source of random bytes with the number of bytes drawn. -/
structure RandomSource where
  generator : Generator
  drawn : Nat := 0

namespace RandomSource

/-- The source that gives the bytes of a sequence in turn. -/
def ofSequence (value : Nat → UInt8) : RandomSource :=
  { generator := .sequence value }

/-- The source that repeats a list of bytes. -/
def ofList (values : List UInt8) : RandomSource :=
  let cycle := values.toArray
  ofSequence fun k => cycle.getD (k % cycle.size) 0

def ofSeed (seed : Int) : RandomSource :=
  { generator := .twister (.seeded seed) }

def next (r : RandomSource) : UInt8 × RandomSource :=
  match r.generator with
  | .sequence value => (value r.drawn, { r with drawn := r.drawn + 1 })
  | .twister t =>
    let (b, t) := t.nextByte
    (b, ⟨.twister t, r.drawn + 1⟩)

end RandomSource

end Chip8
