/-
# Host.GatewayIdentity -- the local certificate authority

`init`, `load_ca` and `write_private` are those of `src/gateway.rs`; `tlsIdentity` is the part of
`tls_config` that concerns the authority.  Keys, certificates and their texts are those of a
`Crypto`.  `luhmen cert` and `luhmen daemon` take no lock here, so any number of them runs at once.
What they do before `init` (`ensure_owned`) and what a daemon does besides its identity (the
listener, `gateway.lock`) is not part of this.

A `State` is the directory `gateway-ca`, the staging directories next to it, and the processes
that drew their names: names are numbered as they are drawn, and none is drawn twice.  With
`faulty`, any request can fail; without it only those that have to.
-/
import Luhmen.Theory.CrashLogic
import Luhmen.Theory.Bytes

namespace Luhmen.Host.GatewayIdentity

open Luhmen.Theory

set_option autoImplicit false

structure Crypto where
  Key : Type
  Certificate : Type
  Issuer : Type
  keyPem : Key → Bytes
  certificatePem : Certificate → Bytes
  /-- What `self_signed` can make of a key. -/
  SelfSigned : Key → Certificate → Prop
  readKey : Bytes → Except String Key
  readCertificate : Bytes → Except String Certificate
  /-- `CertifiedKey::from_der`: the key is that of the certificate. -/
  certify : Certificate → Key → Except String Unit
  issuer : Bytes → Key → Except String Issuer

inductive Pem where
  | key
  | ca
  deriving DecidableEq, Repr

inductive PemFile where
  | regular (data : Bytes) (mode : Nat)
  | other
  deriving DecidableEq, Repr

structure Directory where
  mode : Nat
  files : Pem → Option PemFile
  /-- Whether there is anything else in it. -/
  more : Bool

/-- What stands at a path; `other` is no real directory, and may resolve to something or not. -/
inductive Entry where
  | directory (d : Directory)
  | other (resolves : Bool)

inductive Kind where
  | directory
  | file
  | other
  deriving DecidableEq, Repr

structure Metadata where
  kind : Kind
  mode : Nat
  length : Nat
  deriving DecidableEq, Repr

def maxConfigBytes : Nat := 64 * 1024

/-! ## Requests -/

inductive Request (crypto : Crypto) where
  | createStateDir
  | caExists
  | tempdir (pid : Nat)
  | setPermissions (name : Nat)
  | generateKey
  | selfSigned (key : crypto.Key)
  | createNew (name : Nat) (file : Pem)
  | writeAll (name : Nat) (file : Pem) (bytes : Bytes)
  | syncAll (name : Nat) (file : Pem)
  | rename (name : Nat)
  | syncStateDir
  /-- What dropping a `TempDir` does. -/
  | removeStaging (name : Nat)
  | caMetadata
  | fileMetadata (file : Pem)
  | read (file : Pem)

def Reply (crypto : Crypto) : Request crypto → Type
  | .caExists => Except String Bool
  | .tempdir _ => Except String Nat
  | .generateKey => Except String crypto.Key
  | .selfSigned _ => Except String crypto.Certificate
  | .caMetadata | .fileMetadata _ => Except String Metadata
  | .read _ => Except String Bytes
  | _ => Except String Unit

def Requests (crypto : Crypto) : Interface where
  Request := Request crypto
  Reply := Reply crypto

inductive Stop where
  | failed (message : String)

abbrev Run (crypto : Crypto) := Fallible Stop (Requests crypto)

variable {crypto : Crypto}

namespace Run

def perform (request : Request crypto) : Run crypto (Reply crypto request) :=
  @Fallible.perform Stop (Requests crypto) request

def orFail {α : Type} (outcome : Except String α) : Run crypto α :=
  Fallible.ofExcept (outcome.mapError .failed)

def demand (request : Request crypto) {α : Type}
    (outcome : Reply crypto request → Except String α) : Run crypto α := do
  orFail (outcome (← perform request))

def attempt {α : Type} (block : Run crypto α) : Run crypto (Except Stop α) :=
  Fallible.attempt .ok block

/-- `ensure!`. -/
def ensure (condition : Prop) [Decidable condition] (message : String) : Run crypto Unit :=
  if condition then pure () else throw (.failed message)

end Run

open Run

/-! ## `gateway.rs` -/

def writePrivate (name : Nat) (file : Pem) (bytes : Bytes) : Run crypto Unit := do
  demand (.createNew name file) id
  demand (.writeAll name file bytes) id
  demand (.syncAll name file) id

/-- The directory rename publishes the key and certificate together; another initializer may
have been faster. -/
def publish (name : Nat) : Run crypto Unit := do
  match ← perform (.rename name) with
  | .ok () => pure ()
  | .error _ => do
      let present ← demand .caExists id
      ensure (present = true) "publish local CA identity"

/-- What `init` does while it holds the staging directory. -/
def fill (name : Nat) : Run crypto Unit := do
  demand (.setPermissions name) id
  let key ← demand .generateKey (Except.mapError fun _ => "generate local CA key")
  let certificate ← demand (.selfSigned key)
    (Except.mapError fun _ => "generate local CA certificate")
  writePrivate name .key (crypto.keyPem key)
  writePrivate name .ca (crypto.certificatePem certificate)
  publish name
  demand .syncStateDir id

def create (pid : Nat) : Run crypto Unit := do
  let name ← demand (.tempdir pid) id
  let result ← attempt (fill name)
  let _ ← perform (.removeStaging name)
  match result with
  | .ok () => pure ()
  | .error stop => throw stop

def isPrivate (mode : Nat) : Prop :=
  mode &&& 0o077 = 0

instance (mode : Nat) : Decidable (isPrivate mode) :=
  inferInstanceAs (Decidable (mode &&& 0o077 = 0))

def Pem.text : Pem → String
  | .key => "key.pem"
  | .ca => "ca.pem"

def checkFile (file : Pem) : Run crypto Unit := do
  let metadata ← demand (.fileMetadata file) id
  ensure (metadata.kind = .file) ("CA " ++ file.text ++ " must be a regular file")
  ensure (metadata.length ≤ maxConfigBytes) ("CA " ++ file.text ++ " exceeds 64 KiB")
  ensure (file = .key → isPrivate metadata.mode) "CA private key permissions must be 0600"

/-- What `load_ca` does behind its look at the directory, of this mode. -/
def loadFiles (mode : Nat) : Run crypto (crypto.Issuer × crypto.Certificate) := do
  ensure (isPrivate mode) "CA directory permissions must be 0700"
  checkFile .key
  checkFile .ca
  let key ← demand (.read .key) fun reply => reply.bind crypto.readKey
  let pem ← demand (.read .ca) id
  let certificate ← orFail ((crypto.readCertificate pem).mapError fun _ =>
    "CA PEM contains no valid certificate")
  orFail (crypto.certify certificate key)
  let issuer ← orFail (crypto.issuer pem key)
  pure (issuer, certificate)

def loadCa : Run crypto (crypto.Issuer × crypto.Certificate) := do
  let directory ← demand .caMetadata id
  ensure (directory.kind = .directory) "CA directory must be a real directory"
  loadFiles directory.mode

/-- `if !ca_dir.try_exists()?`. -/
def ensureCa (pid : Nat) : Run crypto Unit := do
  match ← demand .caExists id with
  | true => pure ()
  | false => create pid

def init (pid : Nat) : Run crypto Unit := do
  demand .createStateDir (Except.mapError fun _ => "create gateway state directory")
  ensureCa pid
  match ← attempt loadCa with
  | .ok _ => pure ()
  | .error _ => throw (.failed "load local CA identity; existing certificate files were preserved")

def tlsIdentity (pid : Nat) : Run crypto (crypto.Issuer × crypto.Certificate) := do
  init pid
  loadCa

inductive Command where
  | cert
  | daemon
  deriving DecidableEq, Repr

/-- What a command does with the authority, and the identity it goes on with: `init`, and behind
it `load_ca` in a daemon. -/
def command (pid : Nat) : Command → Run crypto (Option (crypto.Issuer × crypto.Certificate))
  | .cert => do
      init pid
      pure none
  | .daemon => do
      let identity ← tlsIdentity pid
      pure (some identity)

/-! ## The state directory -/

structure State where
  /-- `gateway-ca`. -/
  ca : Option Entry
  staging : Nat → Option Directory
  /-- Who drew which name. -/
  owners : List Nat

namespace State

def owner (s : State) (name : Nat) : Option Nat :=
  s.owners[name]?

def putStaging (s : State) (name : Nat) (directory : Option Directory) : State :=
  { s with staging := fun other => if other = name then directory else s.staging other }

def draw (s : State) (pid : Nat) : State :=
  { s with owners := s.owners ++ [pid] }

end State

def Directory.put (d : Directory) (file : Pem) (contents : PemFile) : Directory :=
  { d with files := fun other => if other = file then some contents else d.files other }

def Entry.exists : Option Entry → Bool
  | none => false
  | some (.directory _) => true
  | some (.other resolves) => resolves

/-- A directory can be renamed to nothing and to an empty directory. -/
def Vacant : Option Entry → Prop
  | none => True
  | some (.directory d) => (∀ file, d.files file = none) ∧ d.more = false
  | some (.other _) => False

def Entry.metadata : Entry → Metadata → Prop
  | .directory d, metadata => metadata.kind = .directory ∧ metadata.mode = d.mode
  | .other _, metadata => metadata.kind ≠ .directory

def PemFile.metadata : PemFile → Metadata → Prop
  | .regular data mode, metadata =>
      metadata.kind = .file ∧ metadata.mode = mode ∧ metadata.length = data.length
  | .other, metadata => metadata.kind ≠ .file

/-- What a request for a file of `gateway-ca` gets. -/
def Looked {α : Type} (ca : Option Entry) (file : Pem) (sees : PemFile → α → Prop)
    (reply : Except String α) : Prop :=
  match ca with
  | none => ∃ message, reply = .error message
  | some (.other _) => True
  | some (.directory d) =>
      match d.files file with
      | none => ∃ message, reply = .error message
      | some contents => ∃ value, sees contents value ∧ reply = .ok value

/-- An error without an effect, if `may`. -/
def Fails {α : Type} (may : Prop) (s : State) (reply : Except String α) (t : State) : Prop :=
  may ∧ (∃ message, reply = .error message) ∧ t = s

section Exec

variable (faulty : Prop)

def exec : (request : Request crypto) → State → Reply crypto request → State → Prop
  | .caExists, s, (reply : Except String Bool), t =>
      Fails faulty s reply t ∨ (reply = .ok (Entry.exists s.ca) ∧ t = s)
  | .tempdir pid, s, (reply : Except String Nat), t =>
      Fails faulty s reply t ∨ ∃ mode, reply = .ok s.owners.length ∧
        t = (s.putStaging s.owners.length (some ⟨mode, fun _ => none, false⟩)).draw pid
  | .setPermissions name, s, (reply : Except String Unit), t =>
      Fails (faulty ∨ s.staging name = none) s reply t ∨ ∃ d, s.staging name = some d ∧
        reply = .ok () ∧ t = s.putStaging name (some { d with mode := 0o700 })
  | .generateKey, s, (reply : Except String crypto.Key), t =>
      Fails faulty s reply t ∨ ∃ key, reply = .ok key ∧ t = s
  | .selfSigned key, s, (reply : Except String crypto.Certificate), t =>
      Fails faulty s reply t ∨
        ∃ certificate, crypto.SelfSigned key certificate ∧ reply = .ok certificate ∧ t = s
  | .createNew name file, s, (reply : Except String Unit), t =>
      Fails (faulty ∨ ∀ d, s.staging name = some d → d.files file ≠ none) s reply t ∨
        ∃ d, s.staging name = some d ∧ d.files file = none ∧ reply = .ok () ∧
          t = s.putStaging name (some (d.put file (.regular [] 0o600)))
  | .writeAll name file bytes, s, (reply : Except String Unit), t =>
      Fails (faulty ∨ ∀ d, s.staging name = some d → d.files file = none) s reply t ∨
        ∃ d written, s.staging name = some d ∧
          t = s.putStaging name (some (d.put file (.regular written 0o600))) ∧
          ((reply = .ok () ∧ written = bytes) ∨ (faulty ∧ ∃ message, reply = .error message))
  | .rename name, s, (reply : Except String Unit), t =>
      Fails (faulty ∨ s.staging name = none ∨ ¬ Vacant s.ca) s reply t ∨
        ∃ d, s.staging name = some d ∧ Vacant s.ca ∧ reply = .ok () ∧
          t = { s.putStaging name none with ca := some (.directory d) }
  | .removeStaging name, s, _, t =>
      t = s ∨ ∃ left, s.staging name ≠ none ∧ t = s.putStaging name left
  | .caMetadata, s, (reply : Except String Metadata), t =>
      Fails (faulty ∨ s.ca = none) s reply t ∨
        ∃ entry metadata, s.ca = some entry ∧ entry.metadata metadata ∧ reply = .ok metadata ∧ t = s
  | .fileMetadata file, s, (reply : Except String Metadata), t =>
      Fails faulty s reply t ∨ (Looked s.ca file PemFile.metadata reply ∧ t = s)
  | .read file, s, (reply : Except String Bytes), t =>
      Fails faulty s reply t ∨ (Looked s.ca file
        (fun contents bytes => ∀ data mode, contents = .regular data mode → bytes = data) reply ∧ t = s)
  | .createStateDir, s, (reply : Except String Unit), t
  | .syncAll _ _, s, (reply : Except String Unit), t
  | .syncStateDir, s, (reply : Except String Unit), t =>
      Fails faulty s reply t ∨ (reply = .ok () ∧ t = s)

/-- Only these programs have to do with the directory. -/
abbrev home : System (Requests crypto) where
  State := State
  exec := exec faulty
  env := fun _ _ => False
  idle := fun _ _ => False

end Exec

/-! ## Identities -/

/-- What an initializer publishes. -/
def freshDirectory (crypto : Crypto) (key : crypto.Key) (certificate : crypto.Certificate) :
    Directory :=
  ((⟨0o700, fun _ => none, false⟩ : Directory).put .key (.regular (crypto.keyPem key) 0o600)).put .ca
    (.regular (crypto.certificatePem certificate) 0o600)

end Luhmen.Host.GatewayIdentity
