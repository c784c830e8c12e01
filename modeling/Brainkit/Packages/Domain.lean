import Brainkit.Library.Transition
import Brainkit.Modules.MountTable

set_option autoImplicit false

namespace Brainkit.Packages

open Function (update)
open GoText Modules

structure BuiltPackage where
  name : GoString
  version : GoString
  source : GoString
deriving DecidableEq

-- filepath.Ext, on the path read backwards: the text from the last dot on, unless a slash comes after it.
def extFrom : GoString → GoString → GoString
  | [], _ => []
  | byte :: rest, seen => if byte = 47 then [] else if byte = 46 then byte :: seen else extFrom rest (byte :: seen)

def ext (path : GoString) : GoString := extFrom path.reverse []

-- The names that the esbuild builder gives, for a directory, for a file and for files in memory.
def buildDir (name version : GoString) : BuiltPackage := ⟨name, version, name ++ lit ".ts"⟩

def buildFile (name : GoString) : BuiltPackage := ⟨name, lit "0.0.0", name ++ lit ".ts"⟩

def buildFiles (name version entry : GoString) : BuiltPackage := ⟨name, version, name ++ ext entry⟩

inductive CallPc where
  | idle
  | built (pkg : BuiltPackage)
  | artifact (pkg : BuiltPackage)
  | found (source : GoString)
  | returned

-- deployments are the sources in the runtime, each with the name of the package that has been deployed last under it.
structure Domain where
  deployments : Table GoString
  deployed : Table BuiltPackage
  call : Nat → CallPc

namespace Domain

def new : Domain := ⟨∅, ∅, fun _ => .idle⟩

def setCall (i : Nat) (pc : CallPc) (s : Domain) : Domain := { s with call := update s.call i pc }

-- DeployArtifact tears down what is deployed under the source and evaluates the code, unless the source is blank.
def deployArtifact (i : Nat) (pkg : BuiltPackage) (evaluates : Bool) (s : Domain) : Domain :=
  if trimSpace pkg.source = [] then s.setCall i .returned
  else if evaluates then { s.setCall i (.artifact pkg) with deployments := s.deployments.insert pkg.source pkg.name }
  else { s.setCall i .returned with deployments := s.deployments.erase pkg.source }

def record (i : Nat) (pkg : BuiltPackage) (s : Domain) : Domain :=
  { s.setCall i .returned with deployed := s.deployed.insert pkg.name pkg }

def find (i : Nat) (name : GoString) (s : Domain) : Domain :=
  match s.deployed.lookup name with
  | some pkg => { s.setCall i (.found pkg.source) with deployed := s.deployed.erase name }
  | none => s.setCall i (.found (name ++ lit ".ts"))

def teardownArtifact (i : Nat) (source : GoString) (s : Domain) : Domain :=
  { s.setCall i .returned with deployments := s.deployments.erase source }

structure DeployedPackageInfo where
  name : GoString
  version : GoString
  source : GoString

def metadata (order : List BuiltPackage) : Table BuiltPackage := order.foldl (fun found pkg => found.insert pkg.source pkg) ∅

def list (order : List BuiltPackage) (s : Domain) : List DeployedPackageInfo :=
  s.deployments.keys.map fun source => match (metadata order).lookup source with
    | some pkg => ⟨pkg.name, pkg.version, source⟩
    | none => ⟨[], [], source⟩

-- A call whose package does not build returns at once.
inductive Action where
  | deploy (i : Nat) (pkg : Option BuiltPackage)
  | deployArtifact (i : Nat) (evaluates : Bool)
  | record (i : Nat)
  | teardown (i : Nat) (name : GoString)
  | teardownArtifact (i : Nat)

def step (s : Domain) : Action → Option Domain
  | .deploy i pkg => match s.call i with
      | .idle => some (s.setCall i (pkg.elim .returned .built))
      | _ => none
  | .deployArtifact i evaluates => match s.call i with
      | .built pkg => some (s.deployArtifact i pkg evaluates)
      | _ => none
  | .record i => match s.call i with
      | .artifact pkg => some (s.record i pkg)
      | _ => none
  | .teardown i name => match s.call i with
      | .idle => some (s.find i name)
      | _ => none
  | .teardownArtifact i => match s.call i with
      | .found source => some (s.teardownArtifact i source)
      | _ => none

end Domain

end Brainkit.Packages
