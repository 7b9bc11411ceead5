import SharedCounters.Text.Hidden
import SharedCounters.Text.Utf8

/-! Text between double quotes. A quote and a backslash get a backslash, what does not show is named by
its code point, and everything else stands for itself. Bytes that need not be text are quoted as well:
those that are none are named one by one. -/

namespace SharedCounters.Text

/-- The digits are lower case and without leading zeros. -/
def codePoint (c : Char) : List Char :=
  ['\\', 'u', '\x7b'] ++ Nat.toDigits 16 c.toNat ++ ['\x7d']

def quotedChar (c : Char) : List Char :=
  if c = '\x00' then ['\\', '0']
  else if c = '\t' then ['\\', 't']
  else if c = '\n' then ['\\', 'n']
  else if c = '\r' then ['\\', 'r']
  else if c = '\x22' then ['\\', '\x22']
  else if c = '\\' then ['\\', '\\']
  else if isHidden c then codePoint c
  else [c]

def inQuotes (chars : List Char) : String := String.ofList ('\x22' :: (chars ++ ['\x22']))

def quoted (text : String) : String := inQuotes (text.toList.flatMap quotedChar)

/-- Two upper case digits. -/
def codedByte (b : UInt8) : List Char :=
  let digits := (Nat.toDigits 16 b.toNat).map Char.toUpper
  ['\\', 'x'] ++ List.replicate (2 - digits.length) '0' ++ digits

def quotedPiece : Piece → List Char
  | .char c => quotedChar c
  | .broken bytes => bytes.flatMap codedByte

def quotedBytes (bytes : List UInt8) : String := inQuotes ((pieces bytes).flatMap quotedPiece)

end SharedCounters.Text
