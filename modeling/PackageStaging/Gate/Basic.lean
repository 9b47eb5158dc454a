import PackageStaging.Error
import PackageStaging.Gate.Status

namespace PackageStaging

class Clock (m : Type → Type) where
  stamp : m String

/-- What is closed only while an agreement is required and its marker file is missing. -/
structure Gate where
  status : GateStatus
  agreementFile : Path
  deriving DecidableEq, Repr

namespace Gate

variable {m : Type → Type} [Monad m] [FileSystem m]

def isAccepted (g : Gate) : m Bool :=
  if g.status = .requiresAgreement then FileSystem.exists? g.agreementFile else return true

def check (g : Gate) : ExceptT StageError m Unit := do
  unless ← (g.isAccepted : m Bool) do throw .agreementRequired

def accept [Clock m] (g : Gate) : ExceptT StageError m Unit := do
  if g.status = .requiresAgreement then
    let stamp ← (Clock.stamp : m String)
    onFile g.agreementFile (FileSystem.writeText g.agreementFile stamp)

end Gate

end PackageStaging
