import ConsoleVideo.Word

/-!
# Numbers as text

Messages show addresses and words in hexadecimal.  This file writes such numbers:

* `Text.hexDigits` — the digits of a number, the shortest form, with a chosen table of digits;
* `Text.upperHex` and `Text.lowerHex` — the digits padded with zeros to a least width.
-/

namespace ConsoleVideo.Text

/-- The character of a hexadecimal digit; `base` is `'a'` or `'A'`. -/
def hexDigit (base : Char) (d : Nat) : Char :=
  if d < 10 then Char.ofNat ('0'.toNat + d) else Char.ofNat (base.toNat + (d - 10))

/-- The hexadecimal digits of `n`, highest first, without leading zeros. -/
def hexDigits (base : Char) (n : Nat) : List Char :=
  if n < 16 then [hexDigit base n] else hexDigits base (n / 16) ++ [hexDigit base (n % 16)]

/-- `digits` brought to at least `width` characters by zeros in front. -/
def padded (width : Nat) (digits : List Char) : String :=
  String.ofList (List.replicate (width - digits.length) '0' ++ digits)

/-- Upper-case hexadecimal with at least `width` digits. -/
def upperHex (width n : Nat) : String :=
  padded width (hexDigits 'A' n)

/-- Lower-case hexadecimal with at least `width` digits. -/
def lowerHex (width n : Nat) : String :=
  padded width (hexDigits 'a' n)

/-- A word as it appears in messages: `0x` and eight lower-case digits. -/
def word (w : Word) : String :=
  "0x" ++ lowerHex 8 w.toNat

end ConsoleVideo.Text
