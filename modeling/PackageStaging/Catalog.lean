import PackageStaging.Error
import PackageStaging.Json.Bytes
import PackageStaging.Json.Record

namespace PackageStaging

structure Catalog (m : Type → Type) where
  lookup : String → ExceptT StageError m Unit

structure PackageInfo where
  name : Option String := none
  version : Option String := none
  description : Option String := none
  deriving DecidableEq, Repr

namespace PackageInfo

def fields : List (Json.Field PackageInfo) := [
  .string? "name" (fun name i ↦ { i with name }) "a string",
  .string? "version" (fun version i ↦ { i with version }) "a string",
  .string? "description" (fun description i ↦ { i with description }) "a string"]

def read (text : String) : Except Json.Error PackageInfo :=
  Json.document (.ofFault (Json.readRecord "struct PackageInfo" fields {})) text

def ofBody? (body : ByteArray) : Option PackageInfo := (read (Json.ofBytes body)).toOption

end PackageInfo

/-- A catalog behind a URL template, in which the encoded name takes the place of the first
placeholder. -/
structure WebCatalog where
  template : Option String
  deriving DecidableEq, Repr

namespace WebCatalog

def placeholder : String := "\x7bpackageName\x7d"

def ofSetting (template : Option String) : WebCatalog := ⟨template.bind Text.nonBlank?⟩

def splitFirst? (word : List Char) : List Char → Option (List Char × List Char)
  | [] => if word.isEmpty then some ([], []) else none
  | c :: cs =>
    if word.isPrefixOf (c :: cs) then some ([], (c :: cs).drop word.length)
    else (splitFirst? word cs).map fun (before, after) ↦ (c :: before, after)

def packageUrl (template name : String) : String :=
  match splitFirst? placeholder.toList template.toList with
  | none => template
  | some (before, after) =>
    String.ofList before ++ Percent.encode Percent.isUnreserved name ++ String.ofList after

def validTemplate (c : WebCatalog) : Except StageError (Option String) := do
  match c.template with
  | none => return none
  | some template =>
    match Url.read template with
    | .error fault => throw (.badCatalogUrl template fault)
    | .ok _ =>
      match splitFirst? placeholder.toList template.toList with
      | none => throw (.noPlaceholder template)
      | some _ => return some template

variable {m : Type → Type} [Monad m] [Http.Network m]

def ask (template name : String) : ExceptT StageError m Http.Response := do
  let response ← ExceptT.adapt StageError.transport (Http.get (packageUrl template name))
  if response.isSuccess then return response else throw (.packageNotFound name)

/-- Whether a package exists; without a template every package does. -/
def lookup (c : WebCatalog) (name : String) : ExceptT StageError m Unit := do
  match ← MonadExcept.ofExcept c.validTemplate with
  | none => return ()
  | some template =>
    let _ ← ask template name

def info (c : WebCatalog) (name : String) : ExceptT StageError m PackageInfo := do
  match ← MonadExcept.ofExcept c.validTemplate with
  | none => throw .noCatalog
  | some template =>
    match PackageInfo.ofBody? (← ask template name).body with
    | some info => return info
    | none => throw .undecodableBody

def toCatalog (c : WebCatalog) : Catalog m := ⟨c.lookup⟩

end WebCatalog

end PackageStaging
