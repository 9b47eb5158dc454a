import PackageStaging.CommandLine.Arguments
import PackageStaging.CommandLine.Terminal
import PackageStaging.Session

namespace PackageStaging.CommandLine

open Terminal (Line)

structure Complaint where
  context : Option String
  error : StageError

def Complaint.message (c : Complaint) : String :=
  ": ".intercalate (c.context.toList ++ c.error.causes)

abbrev Console (m : Type → Type) := ExceptT Complaint (StateT (List Line) m)

structure Report where
  exit : Nat
  lines : List Line
  complaint : Option String

def Report.output (r : Report) : String := String.join (r.lines.map Line.render)

def Report.errors (r : Report) : String := r.complaint.elim "" Terminal.failure

section

variable {m : Type → Type} [Monad m] [FileSystem m] [Http.Network m] [Clock m]

def print (line : Line) : Console m Unit := modify (· ++ [line])

def during {α : Type} (context : Option String) (act : ExceptT StageError m α) : Console m α := do
  match ← (StateT.lift act.run : StateT (List Line) m (Except StageError α)) with
  | .ok a => return a
  | .error e => throw ⟨context, e⟩

def perform {α : Type} (act : ExceptT StageError m α) : Console m α := during none act

def stageOne (s : Session m) (o : Operation) (package : String) : Console m Unit := do
  let staged ← (StateT.lift (s.stage o package).run :
    StateT (List Line) m (Except StageError Unit))
  match staged with
  | .ok () => print (.change o package)
  | .error .agreementRequired =>
    print (.hint "Run `pkgstage agree` to accept the user agreement")
    throw ⟨none, .agreementRequired⟩
  | .error e => throw ⟨some s!"Failed to stage '{package}'", e⟩

def stageAll (s : Session m) (o : Operation) (packages : List String) : Console m Unit := do
  unless s.gate.status.isActive do
    print (.warning "Package manager is disabled; changes will not be applied")
  packages.forM (stageOne s o)
  print (.success s!"Staged {packages.length} package change(s)")

def printList (s : Session m) (heading : String) (o : Operation) : Console m Unit := do
  print (.heading heading)
  (← perform (s.packages o)).forM fun name ↦ print (.item name)

def printUnstaged (s : Session m) : Console m Unit := do
  let log ← perform s.unstaged
  if log.isEmpty then print (.info "No unstaged changes")
  else log.forM fun c ↦ print (.change c.operation c.name)

def printCommand (s : Session m) (t : Transaction) : Console m Unit := do
  let command ← perform (s.command t)
  print (if command.isEmpty then .info "Nothing to do" else .plain command)

def agree (s : Session m) : Console m Unit := do
  if s.gate.status = .requiresAgreement then
    perform s.gate.accept
    print (.success "User agreement accepted")
  else
    print (.info s!"Package manager is {s.gate.status.name}; no agreement is required")

def printStatus (s : Session m) : Console m Unit := do
  print (.field "Status" s.gate.status.name)
  let accepted ← (StateT.lift s.gate.isAccepted : StateT (List Line) m Bool)
  print (.field "Agreement" (if accepted then "accepted" else "pending"))
  print (.field "State" s.store.base.text)
  print (.field "Unstaged" (toString (← perform s.unstaged).length))

def summarize (s : Session m) : Option Path → Console m Unit
  | some path => do
    if ← perform (s.writeSummary path) then print (.success s!"Wrote summary to {path.text}")
    else print (.info "Nothing to summarize")
  | none => do print (.raw (← perform s.summary))

def printInfo (catalog : WebCatalog) (package : String) : Console m Unit := do
  let info ← perform (catalog.info package)
  print (.field "Name" (info.name.getD package))
  info.version.forM fun v ↦ print (.field "Version" v)
  info.description.forM fun d ↦ print (.field "Description" d)

def carryOut (s : Session m) (catalog : WebCatalog) : Command → Console m Unit
  | .add packages => stageAll s .add packages
  | .remove packages => stageAll s .remove packages
  | .list => do
    printList s "ADDED:" .add
    printList s "REMOVED:" .remove
  | .unstaged => printUnstaged s
  | .command upgrade => printCommand s (if upgrade then .upgrade else .apply)
  | .clear => do
    perform s.clear
    print (.success "Cleared unstaged changes")
  | .agree => agree s
  | .status => printStatus s
  | .summary out => summarize s out
  | .info package => printInfo catalog package

def invoke (i : Invocation) : Console m Unit := do
  let file := i.config.getD Config.standardFile
  let config ← during (some s!"Failed to load config from {file.text}") (Config.load file)
  let config := { config with dryRun := config.dryRun || i.dryRun }
  if i.dryRun then print (.dryRun s!"Using state in {config.base.text}")
  let catalog := WebCatalog.ofSetting config.catalogUrl
  let session ← during (some "Failed to open package state")
    (Session.start config catalog.toCatalog)
  carryOut session catalog i.command

def helpText : String :=
  "Stage package changes for the next system root\n\n" ++
  "Usage: " ++ programName ++ " [--config <FILE>] [--dry-run] <COMMAND>\n\n" ++
  "Commands: " ++ " ".intercalate commandNames ++ "\n"

def run (args : List String) : m Report := do
  match parse args with
  | .error .help => return ⟨0, [.raw helpText], none⟩
  | .error .version => return ⟨0, [.plain (programName ++ " " ++ programVersion)], none⟩
  | .error .usage => return ⟨2, [], some "the arguments cannot be understood; try --help"⟩
  | .ok i =>
    match ← StateT.run (ExceptT.run (invoke i)) [] with
    | (.ok (), lines) => return ⟨0, lines, none⟩
    | (.error c, lines) => return ⟨1, lines, some c.message⟩

end

end PackageStaging.CommandLine
