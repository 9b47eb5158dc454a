import PackageStaging.CommandLine.Run
import Std.Time.Format
import Std.Time.Zoned

open PackageStaging

def fileErrorOf : IO.Error → FileError
  | .noFileOrDirectory .. => .notFound
  | .alreadyExists _ code details | .inappropriateType _ code details
  | .invalidArgument _ code details | .permissionDenied _ code details
  | .resourceExhausted _ code details | .noSuchThing _ code details => ofCode code details
  | .interrupted _ code details | .otherError code details | .resourceBusy code details
  | .resourceVanished code details | .unsupportedOperation code details
  | .hardwareFault code details | .unsatisfiedConstraints code details
  | .illegalOperation code details | .protocolError code details
  | .timeExpired code details => ofCode code details
  | e => .other (toString e)
where
  ofCode (code : UInt32) (details : String) : FileError :=
    match code.toNat with
    | 2 => .notFound
    | 17 => .alreadyExists
    | 20 => .notADirectory
    | 21 => .isADirectory
    | 36 => .nameTooLong
    | n => .other s!"{details} (os error {n})"

/-- The result of an operation on the file at a path, which must not hold a NUL byte. -/
def guarded {α : Type} (p : Path) (act : String → IO α) : IO (Except FileError α) := do
  if p.text.toList.contains '\x00' then return .error .nulInPath
  try return .ok (← act p.text)
  catch e => return .error (fileErrorOf e)

def rights (bits : Nat) : IO.AccessRight :=
  { read := bits / 4 % 2 = 1, write := bits / 2 % 2 = 1, execution := bits % 2 = 1 }

instance : FileSystem IO where
  exists? p := return (← guarded p fun text ↦ IO.FS.realPath text) matches .ok _
  isDirectory p := do
    match ← guarded p fun text ↦ do (← IO.FS.realPath text).isDir with
    | .ok b => return b
    | .error _ => return false
  readBytes p := guarded p fun text ↦ IO.FS.readBinFile text
  writeBytes p content := guarded p fun text ↦ IO.FS.writeBinFile text content
  makeDirectory p := guarded p fun text ↦ IO.FS.createDir text
  setMode p mode := guarded p fun text ↦
    IO.setAccessRights text
      { user := rights (mode / 64), group := rights (mode / 8), other := rights mode }

instance : Http.Network IO where
  fetch _ := return none

instance : Clock IO where
  stamp := do
    try return (← Std.Time.DateTime.now).toISO8601String
    catch _ => return ""

def main (args : List String) : IO UInt32 := do
  let report ← (CommandLine.run args : IO CommandLine.Report)
  (← IO.getStdout).putStr report.output
  (← IO.getStderr).putStr report.errors
  return UInt32.ofNat report.exit
