import RichDoc.Cli

/-!
# The program

The command line on the files and channels of the system.
-/

namespace RichDoc

/-- The cause of a failure that the system reports. -/
def fileFault : IO.Error → FileFault
  | .noFileOrDirectory .. => .notFound
  | .inappropriateType _ 20 _ => .notDirectory
  | .inappropriateType .. => .isDirectory
  | error => .other (toString error)

/-- Files of the system. -/
def systemFiles : Cli.Files IO where
  read path := do
    match ← (IO.FS.readBinFile path).toBaseIO with
    | .ok bytes => return .ok bytes
    | .error error => return .error (fileFault error)
  write path text := do
    match ← (IO.FS.writeFile path text).toBaseIO with
    | .ok () => return .ok ()
    | .error error => return .error (fileFault error)

end RichDoc

/-- Run the command with its arguments. -/
def main (args : List String) : IO UInt32 := do
  let outcome ← RichDoc.Cli.run RichDoc.systemFiles args
  IO.print outcome.out
  IO.eprint outcome.err
  return outcome.code.toUInt32
