/-! The UTF-8 bytes of a text, the text of arbitrary bytes, and the longest beginning of a text that
fits a number of bytes. -/

namespace SharedCounters.Text

def utf8 (text : String) : List UInt8 := text.toByteArray.data.toList

/-- Stands for bytes that are not text. -/
def replacement : Char := Char.ofNat 0xFFFD

def isTail (b : UInt8) : Bool := 0x80 ≤ b && b ≤ 0xBF

/-- The second bytes that may follow a lead byte of three: no long forms, no surrogates. -/
def isSecondOfThree (lead b : UInt8) : Bool :=
  if lead == 0xE0 then 0xA0 ≤ b && b ≤ 0xBF
  else if lead == 0xED then 0x80 ≤ b && b ≤ 0x9F
  else isTail b

/-- The second bytes that may follow a lead byte of four: no long forms, nothing past the last plane. -/
def isSecondOfFour (lead b : UInt8) : Bool :=
  if lead == 0xF0 then 0x90 ≤ b && b ≤ 0xBF
  else if lead == 0xF4 then 0x80 ≤ b && b ≤ 0x8F
  else isTail b

def charOfTwo (a b : UInt8) : Char := Char.ofNat ((a.toNat - 0xC0) * 64 + (b.toNat - 0x80))

def charOfThree (a b c : UInt8) : Char :=
  Char.ofNat (((a.toNat - 0xE0) * 64 + (b.toNat - 0x80)) * 64 + (c.toNat - 0x80))

def charOfFour (a b c d : UInt8) : Char :=
  Char.ofNat ((((a.toNat - 0xF0) * 64 + (b.toNat - 0x80)) * 64 + (c.toNat - 0x80)) * 64
    + (d.toNat - 0x80))

/-- A character, or the bytes of a sequence that breaks off. -/
inductive Piece
  | char (c : Char)
  | broken (bytes : List UInt8)
  deriving DecidableEq, Repr

/-- Puts the pieces of the bytes onto those already read, last first. After a sequence that breaks off
reading goes on at the byte that broke it. -/
def piecesOnto (done : List Piece) : List UInt8 → List Piece
  | [] => done
  | a :: rest =>
    if a < 0x80 then piecesOnto (.char (Char.ofNat a.toNat) :: done) rest
    else if 0xC2 ≤ a && a ≤ 0xDF then
      match rest with
      | [] => .broken [a] :: done
      | b :: rest =>
        if isTail b then piecesOnto (.char (charOfTwo a b) :: done) rest
        else piecesOnto (.broken [a] :: done) (b :: rest)
    else if 0xE0 ≤ a && a ≤ 0xEF then
      match rest with
      | [] => .broken [a] :: done
      | b :: rest =>
        if isSecondOfThree a b then
          match rest with
          | [] => .broken [a, b] :: done
          | c :: rest =>
            if isTail c then piecesOnto (.char (charOfThree a b c) :: done) rest
            else piecesOnto (.broken [a, b] :: done) (c :: rest)
        else piecesOnto (.broken [a] :: done) (b :: rest)
    else if 0xF0 ≤ a && a ≤ 0xF4 then
      match rest with
      | [] => .broken [a] :: done
      | b :: rest =>
        if isSecondOfFour a b then
          match rest with
          | [] => .broken [a, b] :: done
          | c :: rest =>
            if isTail c then
              match rest with
              | [] => .broken [a, b, c] :: done
              | d :: rest =>
                if isTail d then piecesOnto (.char (charOfFour a b c d) :: done) rest
                else piecesOnto (.broken [a, b, c] :: done) (d :: rest)
            else piecesOnto (.broken [a, b] :: done) (c :: rest)
        else piecesOnto (.broken [a] :: done) (b :: rest)
    else piecesOnto (.broken [a] :: done) rest

def pieces (bytes : List UInt8) : List Piece := (piecesOnto [] bytes).reverse

/-- The text of bytes, with a replacement for each sequence that is not UTF-8. -/
def lossy (bytes : List UInt8) : String :=
  String.ofList ((pieces bytes).map fun
    | .char c => c
    | .broken _ => replacement)

def decode? (bytes : List UInt8) : Option String := String.fromUTF8? bytes.toByteArray

/-- The longest beginning of at most `room` bytes. -/
def fit (room : Nat) : List Char → List Char
  | [] => []
  | c :: rest => if c.utf8Size ≤ room then c :: fit (room - c.utf8Size) rest else []

end SharedCounters.Text
