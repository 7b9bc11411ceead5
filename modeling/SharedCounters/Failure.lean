import SharedCounters.Machine.Access
import SharedCounters.Text.Quoted

/-! What can go wrong, by cause, and how it is worded. -/

namespace SharedCounters

/-- Arguments refused before anything is published. -/
inductive BadRequest
  | tooManyCounters (requested most : Nat)
  | staticsOverflow (needed capacity : Nat)
  | fieldTooLong (len : Nat)
  | invalidId (id : UInt64)
  | invalidPageSize (size : UInt64)
  | invalidVariable (name value : String)
  deriving DecidableEq, Repr

/-- A region that holds no counters this version can read. -/
inductive BadRegion
  | notInitialized
  | unsupportedVersion (version : UInt32)
  | truncated (needed len : Nat)
  | inconsistentLengths
  | corruptStatics (offset : Nat)
  deriving DecidableEq, Repr

/-- What the file system refuses, and what mapping and printing add to it. -/
inductive BadFile
  | notFound
  | alreadyExists
  | notADirectory
  | isADirectory
  | nameTooLong
  | noSuchDevice
  | nulInPath
  | lengthTooLarge
  | regionTooLarge
  | notRegular
  | shortWrite
  deriving DecidableEq, Repr

inductive Failure
  | request (cause : BadRequest)
  | capacityExceeded (slots : Nat)
  | notFound (id : UInt64)
  | region (cause : BadRegion)
  | file (cause : BadFile)
  | fault (cause : Fault)
  deriving DecidableEq, Repr

def BadRequest.message : BadRequest → String
  | .tooManyCounters requested most =>
    s!"requested {requested} counters, at most {most} are supported"
  | .staticsOverflow needed capacity =>
    s!"statics need {needed} bytes but the block only holds {capacity}"
  | .fieldTooLong len => s!"a static label or value of {len} bytes is too long"
  | .invalidId id => s!"counter id {id} is out of range"
  | .invalidPageSize size => s!"page size {size} is not a power of two"
  | .invalidVariable name value =>
    s!"environment variable {name} has an invalid value {Text.quoted value}"

def BadRegion.message : BadRegion → String
  | .notInitialized => "counters not yet initialized"
  | .unsupportedVersion version => s!"unsupported version {version} of the counters layout"
  | .truncated needed len => s!"region of {len} bytes is truncated, the layout needs {needed}"
  | .inconsistentLengths => "block lengths in the header are inconsistent"
  | .corruptStatics offset => s!"malformed static record at offset {offset}"

def BadFile.message : BadFile → String
  | .notFound => "No such file or directory (os error 2)"
  | .alreadyExists => "File exists (os error 17)"
  | .notADirectory => "Not a directory (os error 20)"
  | .isADirectory => "Is a directory (os error 21)"
  | .nameTooLong => "File name too long (os error 36)"
  | .noSuchDevice => "No such device (os error 19)"
  | .nulInPath => "file name contained an unexpected NUL byte"
  | .lengthTooLarge => "number too large to fit in target type"
  | .regionTooLarge => "region too large"
  | .notRegular => "the source path is neither a regular file nor a symlink to a regular file"
  | .shortWrite => "failed to write whole buffer"

def Failure.message : Failure → String
  | .request cause => cause.message
  | .capacityExceeded slots => s!"no free slot left among {slots} counters"
  | .notFound id => s!"counter {id} not found"
  | .region cause => cause.message
  | .file cause => cause.message
  | .fault cause => cause.message

end SharedCounters
