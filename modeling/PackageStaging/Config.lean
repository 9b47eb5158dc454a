import PackageStaging.Command
import PackageStaging.Error
import PackageStaging.Gate.Status

namespace PackageStaging

structure Config where
  status : GateStatus := .disabled
  addVerb : String := ""
  removeVerb : String := ""
  preHook : Option String := none
  postHook : Option String := none
  catalogUrl : Option String := none
  dryRun : Bool := false
  baseDirectory : Option Path := none
  deriving DecidableEq, Repr

namespace Config

def standardBase : Path := ⟨"/etc/pkgstage"⟩

def dryRunBase : Path := ⟨"/tmp/pkgstage"⟩

def standardFile : Path := ⟨"/etc/pkgstage/config.json"⟩

def agreementName : String := "user-agreement"

/-- The directory of the lists: the one that is set, or one that depends on the dry run. -/
def base (c : Config) : Path :=
  c.baseDirectory.getD (if c.dryRun then dryRunBase else standardBase)

def agreementFile (c : Config) : Path := c.base.child agreementName

def setting? (value : Option String) : Option String := value.bind Text.nonBlank?

def synthesizer (c : Config) : Synthesizer where
  addVerb := Text.trim c.addVerb
  removeVerb := Text.trim c.removeVerb
  preHook := setting? c.preHook
  postHook := setting? c.postHook

def fields : List (Json.Field Config) := [
  ⟨"status", fun s ↦ (GateStatus.reader (Json.depthLimit - 1) s).map fun (status, rest) ↦
    (fun c ↦ { c with status }, rest)⟩,
  .string "add-verb" fun addVerb c ↦ { c with addVerb },
  .string "remove-verb" fun removeVerb c ↦ { c with removeVerb },
  .string? "pre-hook" (fun preHook c ↦ { c with preHook }) "a string",
  .string? "post-hook" (fun postHook c ↦ { c with postHook }) "a string",
  .string? "catalog-url" (fun catalogUrl c ↦ { c with catalogUrl }) "a string",
  .boolean "dry-run" fun dryRun c ↦ { c with dryRun },
  .string? "base-dir" (fun base c ↦ { c with baseDirectory := base.map Path.mk }) "path string"]

def read (text : String) : Except Json.Error Config :=
  Json.document (.ofFault (Json.readRecord "struct EngineConfig" fields {})) text

def toJson (c : Config) : String :=
  let optional (key : String) (value : Option String) : List (String × String) :=
    value.toList.map fun s ↦ (key, Json.ofText s)
  Json.ofMembers <|
    [("status", c.status.toJson), ("add-verb", Json.ofText c.addVerb),
      ("remove-verb", Json.ofText c.removeVerb)] ++
    optional "pre-hook" c.preHook ++ optional "post-hook" c.postHook ++
    optional "catalog-url" c.catalogUrl ++
    [("dry-run", Json.ofBool c.dryRun)] ++
    optional "base-dir" (c.baseDirectory.map Path.text)

def load {m : Type → Type} [Monad m] [FileSystem m] (path : Path) :
    ExceptT StageError m Config := do
  unless ← (FileSystem.exists? path : m Bool) do return {}
  match ← (FileSystem.readText path : m (Except FileError String)) with
  | .error e => throw (.configUnreadable path e)
  | .ok text =>
    match read text with
    | .ok config => return config
    | .error e => throw (.configMalformed path e)

end Config

end PackageStaging
