import Mathlib.Data.List.FinRange
import Brainkit.Library.GoText

set_option autoImplicit false

namespace Brainkit.Deploy

open Function (update)
open GoText

inductive ArtifactKind where
  | source
  | normalizedJS
deriving DecidableEq

-- A row of the deployments table. Its time is read by no code below.
structure PersistedDeployment where
  source : GoString
  code : GoString
  order : Nat
  packageName : GoString
  artifactKind : Option ArtifactKind
deriving DecidableEq

def PersistedDeployment.effectiveArtifactKind (d : PersistedDeployment) : ArtifactKind :=
  match d.artifactKind with
  | some kind => kind
  | none => if d.packageName ≠ [] then .normalizedJS else .source

structure DeployConfig where
  packageName : GoString
  restoring : Bool
  artifactKind : Option ArtifactKind
deriving DecidableEq

def DeployConfig.effectiveArtifactKind (c : DeployConfig) : ArtifactKind := c.artifactKind.getD .source

inductive DeployOption where
  | withPackageName (name : GoString)
  | withRestoring
  | withNormalizedJS
deriving DecidableEq

def DeployOption.apply (c : DeployConfig) : DeployOption → DeployConfig
  | .withPackageName name => { c with packageName := name }
  | .withRestoring => { c with restoring := true }
  | .withNormalizedJS => { c with artifactKind := some .normalizedJS }

-- The options start from the package name of the deployment that is replaced.
def deployConfig (existing : Option PersistedDeployment) (opts : List DeployOption) : DeployConfig :=
  opts.foldl DeployOption.apply ⟨(existing.map PersistedDeployment.packageName).getD [], false, none⟩

def restoreOptions (dep : PersistedDeployment) : List DeployOption :=
  ([.withRestoring] : List DeployOption) ++ (if dep.packageName ≠ [] then [.withPackageName dep.packageName] else []) ++
    if dep.effectiveArtifactKind = .normalizedJS then [.withNormalizedJS] else []

-- The source preparer is the mounted TypeScript compiler, followed by the removal of the imports.
def prepareDeployCode (sourcePreparer : Option (GoString → GoString → Option GoString)) (source code : GoString)
    (cfg : DeployConfig) : Option GoString :=
  if cfg.effectiveArtifactKind = .normalizedJS ∨ ¬ (lit ".ts" <:+ source) then some code
  else match sourcePreparer with
    | none => none
    | some prepare => prepare source code

inductive Job where
  | validating (source code : GoString) (opts : List DeployOption)
  | replacing (source code : GoString) (opts : List DeployOption) (existing : Option PersistedDeployment)
  | preparing (source code : GoString) (cfg : DeployConfig) (replaced : Bool)
  | persisting (source code : GoString) (cfg : DeployConfig) (order : Nat)
  | removing (source : GoString) (mirrored : Bool)
deriving DecidableEq

-- mirrors are the records that the handler of kit.deployed has loaded and is about to deploy, waiting for
-- lifecycleMu.
structure Replica where
  deployments : GoString → Option Nat
  deployOrder : Nat
  job : Option Job
  mirrors : List PersistedDeployment

inductive Event (n : Nat) where
  | kitDeployed (source : GoString) (origin : Fin n)
  | kitTeardowned (source : GoString) (origin : Fin n)
deriving DecidableEq

-- The replicas with the store they share and the events on their way, each addressed to one replica. latest is
-- history: the code of the last operation on a source when it was a successful deploy, as of its last write.
structure Cluster (n : Nat) where
  store : GoString → Option PersistedDeployment
  replica : Fin n → Replica
  inFlight : List (Fin n × Event n)
  latest : GoString → Option GoString

def Cluster.start (n : Nat) : Cluster n where
  store := fun _ => none
  replica := fun _ => ⟨fun _ => none, 0, none, []⟩
  inFlight := []
  latest := fun _ => none

namespace Cluster

variable {n : Nat}

def setJob (c : Cluster n) (r : Fin n) (job : Option Job) : Cluster n :=
  { c with replica := update c.replica r { c.replica r with job := job } }

def publish (c : Cluster n) (announced : Bool) (evt : Event n) : Cluster n :=
  if announced then { c with inFlight := c.inFlight ++ (List.finRange n).map fun r => (r, evt) } else c

def deploy (r : Fin n) (source code : GoString) (opts : List DeployOption) (c : Cluster n) : Option (Cluster n) :=
  match (c.replica r).job with
  | some _ => none
  | none =>
      if blank source then some c
      else if ((c.replica r).deployments source).isSome then some (c.setJob r (some (.validating source code opts)))
      else some (c.setJob r (some (.preparing source code (deployConfig none opts) false)))

def loadExisting (r : Fin n) (c : Cluster n) : Option (Cluster n) :=
  match (c.replica r).job with
  | some (.validating source code opts) => some (c.setJob r (some (.replacing source code opts (c.store source))))
  | _ => none

-- teardownLocked with deletePersisted set, as validateAndPrepareDeploy calls it for every deploy; the error of the
-- store is ignored.
def teardownExisting (r : Fin n) (deleted : Bool) (c : Cluster n) : Option (Cluster n) :=
  match (c.replica r).job with
  | some (.replacing source code opts existing) =>
      some { c with
        store := if deleted then update c.store source none else c.store
        replica := update c.replica r { c.replica r with
          deployments := update (c.replica r).deployments source none
          job := some (.preparing source code (deployConfig existing opts) true) }
        latest := if (deployConfig existing opts).restoring then c.latest else update c.latest source none }
  | _ => none

def evaluate (sourcePreparer : Option (GoString → GoString → Option GoString)) (r : Fin n) (evaluates : Bool)
    (c : Cluster n) : Option (Cluster n) :=
  match (c.replica r).job with
  | some (.preparing source code cfg replaced) =>
      if (prepareDeployCode sourcePreparer source code cfg).isSome ∧ evaluates = true then
        some { c with replica := update c.replica r { c.replica r with
          deployments := update (c.replica r).deployments source (some ((c.replica r).deployOrder + 1))
          deployOrder := (c.replica r).deployOrder + 1
          job := some (.persisting source code cfg ((c.replica r).deployOrder + 1)) } }
      else some { c.setJob r none with
        latest := if cfg.restoring ∨ replaced then c.latest else update c.latest source none }
  | _ => none

def persistDeployment (r : Fin n) (saved announced : Bool) (c : Cluster n) : Option (Cluster n) :=
  match (c.replica r).job with
  | some (.persisting source code cfg order) =>
      if cfg.restoring then some (c.setJob r none)
      else some { (c.setJob r none).publish announced (.kitDeployed source r) with
        store := if saved then
          update c.store source (some ⟨source, code, order, cfg.packageName, some cfg.effectiveArtifactKind⟩) else c.store
        latest := update c.latest source (some code) }
  | _ => none

def teardown (r : Fin n) (source : GoString) (c : Cluster n) : Option (Cluster n) :=
  match (c.replica r).job with
  | some _ => none
  | none => some (c.setJob r (some (.removing source false)))

def teardownLocked (r : Fin n) (deleted announced : Bool) (c : Cluster n) : Option (Cluster n) :=
  match (c.replica r).job with
  | some (.removing source mirrored) =>
      some { (c.setJob r none).publish (announced && !mirrored) (.kitTeardowned source r) with
        store := if deleted then update c.store source none else c.store
        replica := update c.replica r { c.replica r with
          deployments := update (c.replica r).deployments source none
          job := none }
        latest := if mirrored then c.latest else update c.latest source none }
  | _ => none

-- The handlers of SubscribeToDeploymentPropagation. The replica's own event is ignored; a record that is gone ends
-- the handling.
def receive (r : Fin n) (evt : Event n) (c : Cluster n) : Option (Cluster n) :=
  if (r, evt) ∉ c.inFlight then none
  else match evt with
    | .kitDeployed source origin =>
        if origin = r then some { c with inFlight := c.inFlight.erase (r, evt) }
        else match c.store source with
          | none => some { c with inFlight := c.inFlight.erase (r, evt) }
          | some dep => some { c with
              inFlight := c.inFlight.erase (r, evt)
              replica := update c.replica r { c.replica r with mirrors := (c.replica r).mirrors ++ [dep] } }
    | .kitTeardowned source origin =>
        if origin = r then some { c with inFlight := c.inFlight.erase (r, evt) }
        else match (c.replica r).job with
          | some _ => none
          | none => some { c.setJob r (some (.removing source true)) with inFlight := c.inFlight.erase (r, evt) }

def mirror (r : Fin n) (dep : PersistedDeployment) (c : Cluster n) : Option (Cluster n) :=
  if dep ∉ (c.replica r).mirrors then none
  else deploy r dep.source dep.code (restoreOptions dep) { c with
    replica := update c.replica r { c.replica r with mirrors := (c.replica r).mirrors.erase dep } }

def lose (r : Fin n) (evt : Event n) (c : Cluster n) : Option (Cluster n) :=
  if (r, evt) ∈ c.inFlight then some { c with inFlight := c.inFlight.erase (r, evt) } else none

inductive Action (n : Nat) where
  | deploy (r : Fin n) (source code : GoString) (opts : List DeployOption)
  | loadExisting (r : Fin n)
  | teardownExisting (r : Fin n) (deleted : Bool)
  | evaluate (r : Fin n) (evaluates : Bool)
  | persistDeployment (r : Fin n) (saved announced : Bool)
  | teardown (r : Fin n) (source : GoString)
  | teardownLocked (r : Fin n) (deleted announced : Bool)
  | receive (r : Fin n) (evt : Event n)
  | mirror (r : Fin n) (dep : PersistedDeployment)
  | lose (r : Fin n) (evt : Event n)

-- Only the mirroring of an event deploys with the restoring option.
def step (sourcePreparer : Option (GoString → GoString → Option GoString)) (c : Cluster n) : Action n → Option (Cluster n)
  | .deploy r source code opts => if .withRestoring ∈ opts then none else c.deploy r source code opts
  | .loadExisting r => c.loadExisting r
  | .teardownExisting r deleted => c.teardownExisting r deleted
  | .evaluate r evaluates => c.evaluate sourcePreparer r evaluates
  | .persistDeployment r saved announced => c.persistDeployment r saved announced
  | .teardown r source => c.teardown r source
  | .teardownLocked r deleted announced => c.teardownLocked r deleted announced
  | .receive r evt => c.receive r evt
  | .mirror r dep => c.mirror r dep
  | .lose r evt => c.lose r evt

end Cluster

end Brainkit.Deploy
