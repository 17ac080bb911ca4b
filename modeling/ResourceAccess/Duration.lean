/-!
# Spans of time and how they are written

A span is a whole number of nanoseconds. It is written in the largest of the units `s`, `ms`, `µs`, `ns` that does not
exceed it, with the digits after the point that are needed and no more: `1.5ms`, `12.345ms`, `2s`.
-/

namespace ResourceAccess

structure Duration where
  nanoseconds : Nat
deriving DecidableEq

namespace Duration

def ofMicroseconds (n : Nat) : Duration := ⟨n * 1000⟩

def ofMilliseconds (n : Nat) : Duration := ⟨n * 1000000⟩

def paddedDigits (places n : Nat) : List Char :=
  let digits := Nat.toDigits 10 n
  List.replicate (places - digits.length) '0' ++ digits

def dropTrailingZeros (digits : List Char) : List Char :=
  (digits.reverse.dropWhile (· == '0')).reverse

/-- `n` parts of a unit that has `10 ^ places` of them. -/
def inUnit (places n : Nat) (word : String) : String :=
  let whole := toString (n / Nat.pow 10 places)
  match dropTrailingZeros (paddedDigits places (n % Nat.pow 10 places)) with
  | [] => whole ++ word
  | digits => whole ++ "." ++ String.ofList digits ++ word

def text (d : Duration) : String :=
  let n := d.nanoseconds
  if 1000000000 ≤ n then inUnit 9 n "s"
  else if 1000000 ≤ n then inUnit 6 n "ms"
  else if 1000 ≤ n then inUnit 3 n "µs"
  else toString n ++ "ns"

end Duration

end ResourceAccess
