import SharedCounters.CommandLine

/-! The command on a real machine: it passes arguments, variables and the file's bytes on, and prints
what comes back. -/

namespace SharedCounters

def systemVariables : IO Environment := do
  let names := ["USER", Settings.directoryVariable, Settings.pageSizeVariable]
  let values ← names.mapM fun name => do return (name, (← IO.getEnv name).map Text.utf8)
  return fun name => (values.lookup name).join

def fileFailure : IO.Error → Failure
  | .inappropriateType .. => .file .notADirectory
  | _ => .file .notFound

/-- Lists the file at a path under the name that the system resolves it to. -/
def listFile (path : Path) : IO (Except Failure String) := do
  match Text.decode? path.bytes with
  | none => return .error (.file .notFound)
  | some name =>
    try
      let full ← IO.FS.realPath name
      if ← full.isDir then return .error (.file .noSuchDevice)
      let bytes ← IO.FS.readBinFile full
      let fs : FileSystem := ⟨[], #[bytes], [], 0, fun _ => none, nofun⟩
      return Host.result (CommandLine.listingOf (Path.ofString full.toString) 0) fs
    catch e => return .error (fileFailure e)

def run (arguments : List String) : IO UInt32 := do
  let env ← systemVariables
  let standard := Settings.standard (Path.ofString "/dev/shm") 4096 env
  let outcome ← CommandLine.answerWith listFile standard env (arguments.map Text.utf8)
  IO.print outcome.output
  IO.eprint outcome.complaint
  return UInt32.ofNat outcome.code

end SharedCounters

def main (arguments : List String) : IO UInt32 := SharedCounters.run arguments
