import Brainkit.Modules.MountTable
import Brainkit.Modules.Scope
import Brainkit.Sdk.Errors

set_option autoImplicit false

namespace Brainkit.Storage

open Function (update)
open GoText Sdk
open Modules (Table joinErrors)

inductive StoreKind where
  | storage
  | vector
deriving DecidableEq

-- A StorageConfig. A VectorConfig has the same fields without url and token.
structure StoreConfig where
  type : GoString
  path : GoString
  connectionString : GoString
  uri : GoString
  dbName : GoString
  url : GoString
  token : GoString

def sqliteStore (path : GoString) : StoreConfig := ⟨lit "sqlite", path, [], [], [], [], []⟩

inductive RegistrationConfig where
  | libsql (url : GoString)
  | postgres (connectionString : GoString)
  | pg (connectionString : GoString)
  | mongoDB (uri dbName : GoString)
  | upstash (url token : GoString)
  | none
deriving DecidableEq

structure Registration where
  type : GoString
  config : RegistrationConfig
deriving DecidableEq

-- The other types go by the same name on both sides.
def registryType (userType : GoString) : GoString := if userType = lit "sqlite" then lit "libsql" else userType

def storageToRegistration (cfg : StoreConfig) (bridgeURL : GoString) : Registration where
  type := registryType cfg.type
  config :=
    if cfg.type = lit "sqlite" then .libsql bridgeURL
    else if cfg.type = lit "postgres" then .postgres cfg.connectionString
    else if cfg.type = lit "mongodb" then .mongoDB cfg.uri cfg.dbName
    else if cfg.type = lit "upstash" then .upstash cfg.url cfg.token
    else .none

def vectorToRegistration (cfg : StoreConfig) (bridgeURL : GoString) : Registration where
  type := registryType cfg.type
  config :=
    if cfg.type = lit "sqlite" then .libsql bridgeURL
    else if cfg.type = lit "pgvector" then .pg cfg.connectionString
    else if cfg.type = lit "mongodb" then .mongoDB cfg.uri cfg.dbName
    else .none

namespace StoreKind

def resource : StoreKind → GoString
  | storage => lit "storage"
  | vector => lit "vector"

def required : StoreKind → GoString
  | storage => lit "storage name is required"
  | vector => lit "vector store name is required"

def bridgeKey : StoreKind → GoString → GoString
  | storage, name => name
  | vector, name => lit "vec_" ++ name

def toRegistration : StoreKind → StoreConfig → GoString → Registration
  | storage => storageToRegistration
  | vector => vectorToRegistration

end StoreKind

-- An entry of the provider registry, with the path that it has been configured with.
structure Entry where
  registration : Registration
  path : GoString
deriving DecidableEq

abbrev StoreName := StoreKind × GoString

-- A server on a database file. The number stands for the pointer.
structure Bridge where
  number : Nat
  url : GoString
  path : GoString
deriving DecidableEq

-- bridges are the running ones: an error of CloseContext leaves a bridge usable. A bridge that is being closed is kept
-- with the entry that goes with it. maps are the maps from paths to URLs that InitBridges has returned to its callers,
-- with the empty text for what is missing.
structure Manager where
  bridges : Table Bridge
  closingBridges : Table (Bridge × StoreName)
  entries : StoreName → Option Entry
  registryClosed : Bool
  jsRuntime : Bool
  started : Nat
  maps : List (GoString → GoString)

namespace Manager

def new : Manager := ⟨∅, ∅, fun _ => none, false, false, 0, []⟩

section

variable (isPrint : Nat → Bool)

-- RegisterStorage and RegisterVectorStore of the provider registry
def register (i : StoreName) (registration : Registration) (path : GoString) (m : Manager) : Except GoString Manager :=
  if i.2 = [] then .error ((BrainkitError.validationError (lit "name") i.1.required).errorText isPrint)
  else if m.registryClosed then .error (lit "provider registry is closed")
  else .ok { m with entries := update m.entries i (some ⟨registration, path⟩) }

def unregister (i : StoreName) (m : Manager) : Manager := { m with entries := update m.entries i none }

def start (key path url : GoString) (m : Manager) : Manager :=
  { m with bridges := m.bridges.insert key ⟨m.started, url, path⟩, started := m.started + 1 }

def bridgeError (name err : GoString) : GoString := lit "storage " ++ quote isPrint name ++ lit ": " ++ err

def closeBridge (name : GoString) (closeErr : Option GoString) (m : Manager) : Manager × Option GoString :=
  if name ∈ m.bridges then match closeErr with
    | some err => (m, some (bridgeError isPrint name err))
    | none => ({ m with bridges := m.bridges.erase name }, none)
  else (m, none)

-- newBridge answers with an error or with a bridge, of which started is the URL.
def add (kind : StoreKind) (name : GoString) (cfg : StoreConfig) (started : Except GoString GoString)
    (closeErr : Option GoString) (m : Manager) : Manager × Option GoString :=
  if cfg.type = lit "sqlite" ∧ m.jsRuntime then
    if kind.bridgeKey name ∈ m.bridges then
      (m, some ((BrainkitError.alreadyExistsError kind.resource name []).errorText isPrint))
    else match started with
      | .error err => (m, some err)
      | .ok url =>
          let opened := m.start (kind.bridgeKey name) cfg.path url
          match opened.register isPrint (kind, name) (kind.toRegistration cfg url) cfg.path with
          | .ok next => (next, none)
          | .error err =>
              let (after, left) := opened.closeBridge isPrint (kind.bridgeKey name) closeErr
              (after, joinErrors (err :: left.toList))
  else match m.register isPrint (kind, name) (kind.toRegistration cfg []) cfg.path with
    | .ok next => (next, none)
    | .error err => (m, some err)

def addStorage := add isPrint .storage
def addVector := add isPrint .vector

-- RemoveStorage and RemoveVector, until CloseContext of the bridge.
def remove (i : StoreName) (m : Manager) : Manager × Option GoString :=
  let key := i.1.bridgeKey i.2
  match m.bridges.lookup key with
  | none => (m.unregister i, none)
  | some srv =>
      if key ∈ m.closingBridges then (m, some (bridgeError isPrint key (lit "close already in progress")))
      else ({ m with closingBridges := m.closingBridges.insert key (srv, i) }, none)

def removeStorage (name : GoString) := remove isPrint (.storage, name)
def removeVector (name : GoString) := remove isPrint (.vector, name)

-- CloseContext has returned.
def finishBridgeClose (key : GoString) (target : Bridge × StoreName) (closeErr : Option GoString) (m : Manager) :
    Manager × Option GoString :=
  let released := { m with closingBridges := m.closingBridges.erase key }
  match closeErr with
  | some err => (released, some (bridgeError isPrint key err))
  | none =>
      if m.bridges.lookup key = some target.1 then
        ({ released with bridges := m.bridges.erase key }.unregister target.2, none)
      else (released, none)

def closeStarted (closeErr : GoString → Option GoString) : List GoString → Manager → Manager × List GoString
  | [], m => (m, [])
  | name :: rest, m =>
      let (after, err) := m.closeBridge isPrint name (closeErr name)
      let (last, errs) := closeStarted closeErr rest after
      (last, err.toList ++ errs)

-- The loop of InitBridges over the storages, in the order of the range statement, with what newBridge answers for each.
def startBridges (closeErr : GoString → Option GoString) :
    List (GoString × StoreConfig × Except GoString GoString) → List GoString → (GoString → GoString) → Manager →
      Manager × Except GoString (GoString → GoString)
  | [], _, bridgeURLs, m => (m, .ok bridgeURLs)
  | (name, cfg, started) :: rest, names, bridgeURLs, m =>
      if cfg.type ≠ lit "sqlite" then startBridges closeErr rest names bridgeURLs m
      else if name ∈ m.bridges then (m, .error (lit "storage " ++ quote isPrint name ++ lit " bridge already exists"))
      else match started with
        | .error err =>
            let (after, errs) := closeStarted isPrint closeErr names m
            (after, .error ((joinErrors (bridgeError isPrint name err :: errs)).getD []))
        | .ok url =>
            startBridges closeErr rest (names ++ [name]) (update bridgeURLs cfg.path url) (m.start name cfg.path url)

def initBridges (storages : List (GoString × StoreConfig × Except GoString GoString))
    (closeErr : GoString → Option GoString) (m : Manager) : Manager × Except GoString (GoString → GoString) :=
  match startBridges isPrint closeErr storages [] (fun _ => []) m with
  | (after, .ok bridgeURLs) => ({ after with maps := m.maps ++ [bridgeURLs] }, .ok bridgeURLs)
  | (after, .error err) => (after, .error err)

-- none is the nil map.
def mapped (bridgeURLs : Option Nat) (cfg : StoreConfig) (m : Manager) : GoString :=
  if cfg.type = lit "sqlite" then bridgeURLs.elim [] fun i => (m.maps.getD i fun _ => []) cfg.path else []

-- How RegisterStorages and RegisterVectors write an entry. close is their test for closing the bridge of a refused one.
def mirror (i : StoreName) (cfg : StoreConfig) (bridgeURL : GoString) (close : Bool) (closeErr : Option GoString) (m : Manager) :
    Manager × Option GoString :=
  match m.register isPrint i (i.1.toRegistration cfg bridgeURL) cfg.path with
  | .ok next => (next, none)
  | .error err =>
      let err := i.1.resource ++ lit " " ++ quote isPrint i.2 ++ lit ": " ++ err
      if close then
        let (after, left) := m.closeBridge isPrint (i.1.bridgeKey i.2) closeErr
        (after, joinErrors (err :: left.toList))
      else (m, some err)

-- A turn of the loop of RegisterStorages.
def registerStorage (name : GoString) (cfg : StoreConfig) (bridgeURLs : Option Nat) (closeErr : Option GoString) (m : Manager) :
    Manager × Option GoString :=
  let bridgeURL := m.mapped bridgeURLs cfg
  m.mirror isPrint (.storage, name) cfg bridgeURL (cfg.type = lit "sqlite" ∧ bridgeURL ≠ []) closeErr

-- A turn of the loop of RegisterVectors. A bridge that finds its key taken is closed again.
def registerVector (name : GoString) (cfg : StoreConfig) (bridgeURLs : Option Nat) (started : Except GoString GoString)
    (closeErr : Option GoString) (m : Manager) : Manager × Option GoString :=
  let i := (StoreKind.vector, name)
  let about := lit "vector " ++ quote isPrint name
  let bridgeURL := m.mapped bridgeURLs cfg
  match bridgeURLs with
  | none => m.mirror isPrint i cfg bridgeURL false closeErr
  | some urls =>
      if cfg.type = lit "sqlite" ∧ bridgeURL = [] then match started with
        | .error err => (m, some (about ++ lit ": " ++ err))
        | .ok url =>
            if i.1.bridgeKey name ∈ m.bridges then
              (m, joinErrors ((about ++ lit " bridge already exists") ::
                (closeErr.map fun err => about ++ lit " cleanup: " ++ err).toList))
            else
              let opened := m.start (i.1.bridgeKey name) cfg.path url
              let noted := { opened with maps := opened.maps.modify urls fun before => update before cfg.path url }
              noted.mirror isPrint i cfg url (url ≠ []) closeErr
      else m.mirror isPrint i cfg bridgeURL (cfg.type = lit "sqlite" ∧ bridgeURL ≠ []) closeErr

end

inductive Action where
  | setRuntime (attached : Bool)
  | closeRegistry
  | add (i : StoreName) (cfg : StoreConfig) (started : Except GoString GoString) (closeErr : Option GoString)
  | remove (i : StoreName)
  | finish (key : GoString) (closeErr : Option GoString)
  | initBridges (storages : List (GoString × StoreConfig × Except GoString GoString)) (closeErr : GoString → Option GoString)
  | registerStorage (name : GoString) (cfg : StoreConfig) (bridgeURLs : Option Nat) (closeErr : Option GoString)
  | registerVector (name : GoString) (cfg : StoreConfig) (bridgeURLs : Option Nat) (started : Except GoString GoString)
      (closeErr : Option GoString)

def answered : Except GoString GoString → List GoString
  | .ok url => [url]
  | .error _ => []

def Action.urls : Action → List GoString
  | add _ _ started _ => answered started
  | initBridges storages _ => storages.flatMap fun entry => answered entry.2.2
  | registerVector _ _ _ started _ => answered started
  | _ => []

def Free (m : Manager) (urls : List GoString) : Prop :=
  urls.Nodup ∧ ∀ url ∈ urls, url ≠ [] ∧ ∀ entry ∈ m.bridges.entries, entry.2.url ≠ url

instance (m : Manager) (urls : List GoString) : Decidable (m.Free urls) :=
  inferInstanceAs (Decidable (_ ∧ _))

def known (m : Manager) (bridgeURLs : Option Nat) : Prop := ∀ i ∈ bridgeURLs, i < m.maps.length

instance (m : Manager) (bridgeURLs : Option Nat) : Decidable (m.known bridgeURLs) :=
  inferInstanceAs (Decidable (∀ i ∈ bridgeURLs, _))

-- One operation of the manager after the other. The end of CloseContext is a step of its own, as Remove returns before
-- it when its deadline passes.
def perform (isPrint : Nat → Bool) (m : Manager) : Action → Option Manager
  | .setRuntime attached => some { m with jsRuntime := attached }
  | .closeRegistry => some { m with registryClosed := true }
  | .add i cfg started closeErr => some (m.add isPrint i.1 i.2 cfg started closeErr).1
  | .remove i => some (m.remove isPrint i).1
  | .finish key closeErr => (m.closingBridges.lookup key).map fun target => (m.finishBridgeClose isPrint key target closeErr).1
  | .initBridges storages closeErr => some (m.initBridges isPrint storages closeErr).1
  | .registerStorage name cfg bridgeURLs closeErr =>
      if m.known bridgeURLs then some (m.registerStorage isPrint name cfg bridgeURLs closeErr).1 else none
  | .registerVector name cfg bridgeURLs started closeErr =>
      if m.known bridgeURLs then some (m.registerVector isPrint name cfg bridgeURLs started closeErr).1 else none

def step (isPrint : Nat → Bool) (m : Manager) (action : Action) : Option Manager :=
  if m.Free action.urls then m.perform isPrint action else none

end Manager

end Brainkit.Storage
