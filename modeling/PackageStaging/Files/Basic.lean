import PackageStaging.Files.Path

namespace PackageStaging

inductive FileError
  | notFound
  | notADirectory
  | isADirectory
  | alreadyExists
  | nameTooLong
  | notUtf8
  | nulInPath
  | other (text : String)
  deriving DecidableEq, Repr

def FileError.message : FileError → String
  | notFound => "No such file or directory (os error 2)"
  | notADirectory => "Not a directory (os error 20)"
  | isADirectory => "Is a directory (os error 21)"
  | alreadyExists => "File exists (os error 17)"
  | nameTooLong => "File name too long (os error 36)"
  | notUtf8 => "stream did not contain valid UTF-8"
  | nulInPath => "file name contained an unexpected NUL byte"
  | other text => text

class FileSystem (m : Type → Type) where
  exists? : Path → m Bool
  isDirectory : Path → m Bool
  readBytes : Path → m (Except FileError ByteArray)
  writeBytes : Path → ByteArray → m (Except FileError Unit)
  makeDirectory : Path → m (Except FileError Unit)
  setMode : Path → Nat → m (Except FileError Unit)

namespace FileSystem

variable {m : Type → Type} [Monad m] [FileSystem m]

def readText (p : Path) : m (Except FileError String) := do
  match ← readBytes p with
  | .error e => return .error e
  | .ok bytes =>
    match String.fromUTF8? bytes with
    | some s => return .ok s
    | none => return .error .notUtf8

def writeText (p : Path) (s : String) : m (Except FileError Unit) := writeBytes p s.toUTF8

/-- Makes the first directory of a list; if the one around it is missing, the rest of the list is
made first. -/
def makeEach : List Path → m (Except FileError Unit)
  | [] => return .ok ()
  | p :: outer => do
    let settle (e : FileError) : m (Except FileError Unit) := do
      if ← isDirectory p then return .ok () else return .error e
    match ← makeDirectory p with
    | .ok () => return .ok ()
    | .error .notFound =>
      match ← makeEach outer with
      | .error e => return .error e
      | .ok () =>
        match ← makeDirectory p with
        | .ok () => return .ok ()
        | .error e => settle e
    | .error e => settle e

/-- Makes a directory and the directories around it; one that is there is fine. -/
def makeDirectories (p : Path) : m (Except FileError Unit) := makeEach p.withEnclosing

end FileSystem

end PackageStaging
