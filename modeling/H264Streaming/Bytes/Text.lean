import Mathlib.Data.List.Basic

/-! C strings as lists of octets without their terminator, and the library
functions on them: a result pointer is the rest of the string from there on.
-/

set_option autoImplicit false

namespace H264Streaming.Bytes

def ascii (literal : String) : List UInt8 := literal.toList.map fun c => UInt8.ofNat c.toNat

def cString (memory : List UInt8) : List UInt8 := memory.takeWhile (· ≠ 0)

/-- The text behind a literal it starts with. -/
def behind (literal text : List UInt8) : Option (List UInt8) :=
  if literal.isPrefixOf text then some (text.drop literal.length) else none

def strstr (needle : List UInt8) : List UInt8 → Option (List UInt8)
  | [] => if needle = [] then some [] else none
  | octet :: rest => if needle.isPrefixOf (octet :: rest) then some (octet :: rest) else strstr needle rest

def strchr (octet : UInt8) : List UInt8 → Option (List UInt8)
  | [] => none
  | first :: rest => if first = octet then some (first :: rest) else strchr octet rest

/-- The non-empty pieces between delimiters, as repeated strtok calls return them. -/
def strtok (delimiters : List UInt8) (text : List UInt8) : List (List UInt8) :=
  (text.splitOnP (· ∈ delimiters)).filter (· ≠ [])

def isSpace (octet : UInt8) : Bool := octet = 32 || (9 ≤ octet && octet ≤ 13)

def isDigit (octet : UInt8) : Bool := 48 ≤ octet && octet ≤ 57

def digitsValue (digits : List UInt8) : Nat := digits.foldl (fun value digit => value * 10 + (digit.toNat - 48)) 0

def clampLong (value : Int) : Int := max (-9223372036854775808) (min 9223372036854775807 value)

def toInt32 (value : Int) : Int := (value + 2147483648) % 4294967296 - 2147483648

/-- `%ld`: white space, an optional sign and at least one digit. -/
def scanLong (text : List UInt8) : Option Int :=
  let text := text.dropWhile isSpace
  let negative := text.head? = some 45
  let unsigned := if negative ∨ text.head? = some 43 then text.drop 1 else text
  let digits := unsigned.takeWhile isDigit
  if digits = [] then none
  else some (clampLong (if negative then -(digitsValue digits : Int) else digitsValue digits))

/-- `%d`: the number is read as a long and stored as an int. -/
def scanInt (text : List UInt8) : Option Int := (scanLong text).map toInt32

def decimal (value : Int) : List UInt8 :=
  let digits := (Nat.toDigits 10 value.natAbs).map fun c => UInt8.ofNat c.toNat
  if value < 0 then 45 :: digits else digits

example : scanLong (ascii " -12;timeout=60") = some (-12) := by decide
example : strtok (ascii "\r\n") (ascii "a=1\r\n\r\nb=2\r\n") = [ascii "a=1", ascii "b=2"] := by decide

end H264Streaming.Bytes
