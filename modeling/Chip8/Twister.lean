namespace Chip8

/-- The state of the twister: its words and the place of the oldest. -/
structure Twister where
  words : Vector UInt32 624
  oldest : Fin 624
  deriving DecidableEq

namespace Twister

/-- The 32-bit words of a natural number, least significant first, at least one. -/
def keyWords (n : Nat) : List UInt32 :=
  if n < 0x100000000 then [UInt32.ofNat n]
  else UInt32.ofNat (n % 0x100000000) :: keyWords (n / 0x100000000)
termination_by n

def before (i : Fin 624) : Fin 624 :=
  ⟨(i.val + 623) % 624, Nat.mod_lt _ (by decide)⟩

/-- A place of the ring, counted round it. -/
def place (i : Nat) : Fin 624 :=
  ⟨i % 624, Nat.mod_lt _ (by decide)⟩

/-- A word with its two highest bits folded into its lowest. -/
def folded (w : UInt32) : UInt32 :=
  w ^^^ (w >>> 30)

/-- Fills the words from place `i` on, each from the one before. -/
def fill (words : Vector UInt32 624) (i : Nat) : Nat → Vector UInt32 624
  | 0 => words
  | fuel + 1 =>
    let w := 1812433253 * folded words[place (i - 1)] + UInt32.ofNat i
    fill (words.set (place i) w) (i + 1) fuel

/-- The words before a key is mixed in. -/
def base : Vector UInt32 624 :=
  fill ((Vector.replicate 624 0).set 0 19650218) 1 623

/-- The place after `i` in a mixing round. Place 0 is passed over: it takes the last word. -/
def wrap (words : Vector UInt32 624) (i : Fin 624) : Vector UInt32 624 × Fin 624 :=
  if i.val + 1 < 624 then (words, place (i.val + 1)) else (words.set 0 words[623], 1)

/-- Mixes the words of a key into the ring, from place `i` and key position `j` on. -/
def mixKey (key : List UInt32) (words : Vector UInt32 624) (i : Fin 624) (j : Nat)
    (rest : List UInt32) : Nat → Vector UInt32 624 × Fin 624
  | 0 => (words, i)
  | fuel + 1 =>
    let (k, j, rest) := match rest with
      | k :: rest => (k, j, rest)
      | [] => (key.headD 0, 0, key.tail)
    let w := (words[i] ^^^ (folded words[before i] * 1664525)) + k + UInt32.ofNat j
    let (words, i) := wrap (words.set i w) i
    mixKey key words i (j + 1) rest fuel

def mixPlaces (words : Vector UInt32 624) (i : Fin 624) : Nat → Vector UInt32 624
  | 0 => words
  | fuel + 1 =>
    let w := (words[i] ^^^ (folded words[before i] * 1566083941)) - UInt32.ofNat i.val
    let (words, i) := wrap (words.set i w) i
    mixPlaces words i fuel

/-- The twister seeded by the magnitude of an integer. -/
def seeded (seed : Int) : Twister :=
  let key := keyWords seed.natAbs
  let (words, i) := mixKey key base 1 0 key (max 624 key.length)
  ⟨(mixPlaces words i 623).set 0 0x80000000, 0⟩

def twist (t : Twister) : UInt32 :=
  let i := t.oldest.val
  let mixed := (t.words[t.oldest] &&& 0x80000000) ||| (t.words[place (i + 1)] &&& 0x7FFFFFFF)
  let odd : UInt32 := if mixed &&& 1 = 0 then 0 else 0x9908B0DF
  t.words[place (i + 397)] ^^^ (mixed >>> 1) ^^^ odd

def temper (w : UInt32) : UInt32 :=
  let w := w ^^^ (w >>> 11)
  let w := w ^^^ ((w <<< 7) &&& 0x9D2C5680)
  let w := w ^^^ ((w <<< 15) &&& 0xEFC60000)
  w ^^^ (w >>> 18)

def next (t : Twister) : UInt32 × Twister :=
  let w := t.twist
  (temper w, ⟨t.words.set t.oldest w, place (t.oldest.val + 1)⟩)

/-- Draws nine bits until they are below 256, at most `fuel` times. -/
def nextBelow (t : Twister) : Nat → UInt8 × Twister
  | 0 => (0, t)
  | fuel + 1 =>
    let (w, t) := t.next
    let n := (w >>> 23).toNat
    if n < 256 then (UInt8.ofNat n, t) else nextBelow t fuel

/-- Draws a byte. The output repeats no pattern of its top bit over more than 19937 draws, so the
bound is never met. -/
def nextByte (t : Twister) : UInt8 × Twister :=
  t.nextBelow 19938

end Twister

end Chip8
