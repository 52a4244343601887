namespace Chip8.Hex

def digit (d : Nat) : Char :=
  Char.ofNat (if d < 10 then 48 + d else 55 + d)

def lowerDigit (d : Nat) : Char :=
  Char.ofNat (if d < 10 then 48 + d else 87 + d)

/-- The hexadecimal digits of a natural number, most significant first, without leading zeros. -/
def digits (n : Nat) : List Char :=
  if n < 16 then [digit n] else digits (n / 16) ++ [digit (n % 16)]
termination_by n

/-- The hexadecimal text of an integer, filled with zeros to `width` characters. A minus sign counts
as one of them and stands before the zeros. -/
def padded (width : Nat) (n : Int) : String :=
  let ds := digits n.natAbs
  if n < 0 then
    String.ofList ('-' :: (List.replicate (width - 1 - ds.length) '0' ++ ds))
  else
    String.ofList (List.replicate (width - ds.length) '0' ++ ds)

def text (n : Int) : String :=
  padded 0 n

/-- The last `width` hexadecimal digits of a natural number, in lower case. -/
def lower : Nat → Nat → List Char
  | 0, _ => []
  | width + 1, n => lower width (n / 16) ++ [lowerDigit (n % 16)]

theorem digits_of_lt {n : Nat} (h : n < 16) : digits n = [digit n] := by
  unfold digits
  simp [h]

end Chip8.Hex
