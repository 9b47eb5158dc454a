import PackageStaging.Change.Basic
import PackageStaging.Files.Basic
import PackageStaging.Http
import PackageStaging.Json.Fault

namespace PackageStaging

inductive StageError
  | agreementRequired
  | packageNotFound (name : String)
  | transport (error : Http.TransportError)
  | badChange (error : Change.ReadError)
  | badName (name : String)
  | undecodableBody
  | badCatalogUrl (template : String) (fault : UrlFault)
  | noPlaceholder (template : String)
  | noCatalog
  | configUnreadable (path : Path) (error : FileError)
  | configMalformed (path : Path) (error : Json.Error)
  | fileNotFound (path : Path)
  | fileFailed (path : Path) (error : FileError)

namespace StageError

def ofFile (path : Path) : FileError → StageError
  | .notFound => fileNotFound path
  | error => fileFailed path error

def isStorage : StageError → Bool
  | fileNotFound _ | fileFailed _ _ => true
  | _ => false

def message : StageError → String
  | agreementRequired => "package manager agreement not accepted"
  | packageNotFound name => s!"package does not exist in repo: {name}"
  | transport error => s!"transport error: {error.message}"
  | badChange error => s!"parse error: {error.message}"
  | badName name => s!"parse error: invalid package name: '{name}'"
  | undecodableBody => "parse error: error decoding response body"
  | badCatalogUrl template fault =>
    s!"catalog url '{template}' is not a valid URL: {fault.message}"
  | noPlaceholder template =>
    s!"catalog url '{template}' does not contain the \x7bpackageName\x7d placeholder"
  | noCatalog => "no catalog url configured, cannot query package information"
  | configUnreadable path error => s!"failed to read config {path.text}: {error.message}"
  | configMalformed path error => s!"failed to parse config {path.text}: {error.message}"
  | fileNotFound path => s!"file not found: {path.text}"
  | fileFailed path error => s!"io error on {path.text}: {error.message}"

/-- The message and, where an error passes on another one, that one's own message. -/
def causes (e : StageError) : List String :=
  e.message :: match e with
    | configUnreadable _ error | fileFailed _ error => [error.message]
    | configMalformed _ error => [error.message]
    | _ => []

end StageError

def onFile {m : Type → Type} [Monad m] {α : Type} (path : Path) (act : m (Except FileError α)) :
    ExceptT StageError m α :=
  ExceptT.mk do return (← act).mapError (StageError.ofFile path)

end PackageStaging
