import SharedCounters.Text.Quoted

/-! Paths of files: bytes, in which slashes separate names. They need not be text; they are shown as
text with replacements. -/

namespace SharedCounters

abbrev Name := List UInt8

structure Path where
  bytes : List UInt8
  deriving DecidableEq

def slash : UInt8 := 0x2F

def dot : Name := [0x2E]

def dotDot : Name := [0x2E, 0x2E]

namespace Path

def ofString (text : String) : Path := ⟨Text.utf8 text⟩

def display (p : Path) : String := Text.lossy p.bytes

def quoted (p : Path) : String := Text.quotedBytes p.bytes

def isAbsolute (p : Path) : Bool := p.bytes.head? == some slash

def endsInSlash (p : Path) : Bool := p.bytes.getLast? == some slash

/-- What lies between the slashes, empty pieces included. -/
def piecesOf : List UInt8 → List Name
  | [] => [[]]
  | b :: rest =>
    match piecesOf rest with
    | [] => [[b]]
    | piece :: pieces => if b = slash then [] :: piece :: pieces else (b :: piece) :: pieces

def join : List Name → List UInt8
  | [] => []
  | [name] => name
  | name :: names => name ++ slash :: join names

def names (p : Path) : List Name := (piecesOf p.bytes).filter fun piece => piece != []

/-- An absolute name stands alone, another one is put below the directory. -/
def under (directory name : Path) : Path :=
  if name.isAbsolute then name
  else if directory.bytes.isEmpty || directory.endsInSlash then ⟨directory.bytes ++ name.bytes⟩
  else ⟨directory.bytes ++ slash :: name.bytes⟩

/-- Whether a piece counts as a step; a dot does only at the beginning of a relative path. -/
def isStep (absolute first : Bool) (piece : Name) : Bool :=
  piece != [] && (piece != dot || (first && !absolute))

/-- The pieces up to the last step that is not among the `skipped` last ones, last piece first. -/
def upTo (absolute : Bool) : (skipped : Nat) → (backwards : List Name) → List Name
  | _, [] => []
  | skipped, piece :: earlier =>
    if isStep absolute earlier.isEmpty piece then
      match skipped with
      | 0 => piece :: earlier
      | skipped + 1 => upTo absolute skipped earlier
    else upTo absolute skipped earlier

/-- The path without its last step, and nothing for a path without steps. -/
def parent? (p : Path) : Option Path :=
  let backwards := (piecesOf p.bytes).reverse
  if (upTo p.isAbsolute 0 backwards).isEmpty then none
  else
    let kept := (upTo p.isAbsolute 1 backwards).reverse
    some ⟨if kept.isEmpty then (if p.isAbsolute then [slash] else []) else join kept⟩

/-- The last step, if it is a name. -/
def fileName? (p : Path) : Option Path :=
  match upTo p.isAbsolute 0 (piecesOf p.bytes).reverse with
  | [] => none
  | name :: _ => if name = dot ∨ name = dotDot then none else some ⟨name⟩

end Path

end SharedCounters
