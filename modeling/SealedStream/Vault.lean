import SealedStream.Cipher.Box
import SealedStream.Files.Replacement
import SealedStream.Vault.Document

/-!
# The key vault

A vault holds symmetric keys and key pairs under aliases, in memory alone or
with a document that follows every change. Secret keys never leave it: `wrap`
seals a key for the holder of a public key, `unwrap` opens it with the secret
key that stays inside. A change is made to the entries and then written; where
the write fails, the change is undone. `VaultSite` is a vault at work in its
surroundings, where each request is noted before it acts.
-/

namespace SealedStream

structure Vault where
  entries : Dict VaultEntry := .empty
  /-- Where the document is kept, if there is one. -/
  path : Option Path := none
  locked : Bool := false

/-- Names the secret key of a pair, which stays in the vault. -/
structure PrivateKeyHandle where
  keyName : String
  deriving DecidableEq

structure PublicKeyHandle where
  keyName : String
  bytes : Bytes
  deriving DecidableEq

structure KeyPairHandle where
  publicKey : PublicKeyHandle
  privateKey : PrivateKeyHandle

namespace Vault

def protectionLevel (_ : Vault) : ProtectionLevel := .software

def size (v : Vault) : Nat := v.entries.size

def ensureUnlocked (v : Vault) : Except VaultError Unit :=
  if v.locked then .error .locked else .ok ()

def hasKey (v : Vault) (keyName : String) : Except VaultError Bool := do
  v.ensureUnlocked
  return v.entries.contains keyName

def symmetricKey (v : Vault) (keyName : String) : Except VaultError (Option SymmetricKey) := do
  v.ensureUnlocked
  match v.entries.get? keyName with
  | some (.symmetric key) => return some key
  | _ => return none

def privateKey (v : Vault) (keyName : String) : Except VaultError (Option PrivateKeyHandle) := do
  v.ensureUnlocked
  match v.entries.get? keyName with
  | some (.keyPair _ _) => return some ⟨keyName⟩
  | _ => return none

/-- The size of a symmetric key that the vault is ready to generate. -/
def admitSymmetric (v : Vault) (keyName : String) (bits : Nat) : Except VaultError KeySize := do
  v.ensureUnlocked
  if keyName = "" then throw (.unsupportedSpec .emptyAlias)
  match KeySize.ofBits? bits with
  | some size => return size
  | none => throw (.unsupportedSpec (.symmetricSize bits))

/-- The vault is ready to generate such a key pair. -/
def admitKeyPair (v : Vault) (keyName : String) (spec : KeyPairSpec) : Except VaultError Unit := do
  v.ensureUnlocked
  if keyName = "" then throw (.unsupportedSpec .emptyAlias)
  if spec.sizeBits ≠ 256 then throw (.unsupportedSpec (.keyPairSize spec.sizeBits.toNat))
  if spec.notAfter ≤ spec.notBefore then throw (.unsupportedSpec .emptyWindow)

/-- The parts of a wrapped key: ephemeral public key, nonce, box. -/
structure Wrapped where
  ephemeral : Bytes
  nonce : Bytes
  box : Bytes

def Wrapped.bytes (w : Wrapped) : Bytes := w.ephemeral ++ w.nonce ++ w.box

def Wrapped.leastSize : Nat :=
  Cipher.Box.publicKeySize + Cipher.Box.nonceSize + Cipher.Box.tagSize

def Wrapped.ofBytes? (bytes : Bytes) : Option Wrapped :=
  if bytes.length < leastSize then none
  else
    let rest := bytes.drop Cipher.Box.publicKeySize
    some ⟨bytes.take Cipher.Box.publicKeySize, rest.take Cipher.Box.nonceSize,
      rest.drop Cipher.Box.nonceSize⟩

/-- A key sealed for a public key by a secret key that is used this once. -/
def wrapped (ephemeral : SecretKey) (nonce recipient : Bytes) (key : SymmetricKey) : Wrapped where
  ephemeral := ephemeral.publicKey
  nonce := nonce
  box := Cipher.Box.sealed (Cipher.Box.agreedKey ephemeral.bytes recipient) nonce key.bytes

/-- Opens a wrapped key with a secret key. -/
def unwrapped (secret : SecretKey) (bytes : Bytes) : Except UnwrapDefect SymmetricKey :=
  match Wrapped.ofBytes? bytes with
  | none => .error .tooShort
  | some w =>
    match Cipher.Box.opened (Cipher.Box.agreedKey secret.bytes w.ephemeral) w.nonce w.box with
    | none => .error .notAuthentic
    | some plain => (SymmetricKey.ofBytes plain).mapError .keyLength

def unwrap (v : Vault) (now : Time) (handle : PrivateKeyHandle) (bytes : Bytes) :
    Except VaultError SymmetricKey := do
  v.ensureUnlocked
  match v.entries.get? handle.keyName with
  | some (.keyPair secret spec) =>
    if spec.IsValidAt now then (unwrapped secret bytes).mapError .unwrap
    else throw (.keyExpired handle.keyName)
  | _ => throw (.keyNotFound handle.keyName)

/-- The text shown for a vault in diagnostics. -/
def debugText (v : Vault) : String :=
  let path := match v.path with
    | some p => "Some(" ++ Text.quoted p.toString ++ ")"
    | none => "None"
  Text.recordText "SoftwareVault"
    [("keys", s!"{v.size}"), ("path", path), ("locked", s!"{v.locked}")]

/-- Writes the document of the entries, where a vault has one. -/
def persist (path : Option Path) (entries : Dict VaultEntry) : Action Files VaultError Unit :=
  match path with
  | none => pure ()
  | some path => (Files.replace path (encode entries)).mapError .io

/--
The vault whose document is at a path; where nothing is, an empty one. That one can see whether
anything is there is taken for granted: it is the reading that may fail.
-/
def openVisiting (visit : Visit) (path : Path) : Action Files (Failure VaultError) Vault := do
  let files ← get
  if files.exists? path then
    let document ← Failure.lift .io (Files.read path)
    let entries ← Action.ofExcept ((decode document visit).mapError fun e => e.map .corrupted)
    return { entries, path := some path }
  else return { path := some path }

/-- Only what is wrong with a document hangs on the order of the visit, not what is had from it. -/
def openAt (path : Path) : Action Files (Failure VaultError) Vault := openVisiting .byName path

end Vault

/-- What is asked of a vault. -/
inductive Request where
  | hasKey | getSymmetricKey | generateSymmetricKey | generateKeyPair
  | privateKey | wrap | unwrap | deleteKey
  deriving DecidableEq, Repr

namespace Request

def name : Request → String
  | hasKey => "HasKey"
  | getSymmetricKey => "GetSymmetricKey"
  | generateSymmetricKey => "GenerateSymmetricKey"
  | generateKeyPair => "GenerateKeyPair"
  | privateKey => "PrivateKey"
  | wrap => "Wrap"
  | unwrap => "Unwrap"
  | deleteKey => "DeleteKey"

def isGeneration : Request → Bool
  | generateSymmetricKey => true
  | generateKeyPair => true
  | _ => false

end Request

/-- What a program finds around it. -/
structure Machine where
  files : Files := {}
  entropy : Entropy
  now : Time

namespace Machine

def onFiles {ε α : Type} (x : Action Files ε α) : Action Machine ε α :=
  x.zoom files fun files m => { m with files }

/-- Draws from the operating system's entropy. -/
def draw {ε α : Type} (x : Entropy → α × Entropy) : Action Machine ε α :=
  modifyGet fun m =>
    let (a, entropy) := x m.entropy
    (a, { m with entropy })

end Machine

structure VaultSite where
  vault : Vault := {}
  /-- All requests so far, in order. -/
  requests : List Request := []
  machine : Machine

namespace VaultSite

def onMachine {ε α : Type} (x : Action Machine ε α) : Action VaultSite ε α :=
  x.zoom machine fun machine site => { site with machine }

def note (r : Request) : Action VaultSite VaultError Unit :=
  modify fun site => { site with requests := site.requests ++ [r] }

/-- Answers a request from the vault as it is. -/
def ask {α : Type} (r : Request) (answer : VaultSite → Except VaultError α) :
    Action VaultSite VaultError α := do
  note r
  Action.reads answer

def hasKey (keyName : String) : Action VaultSite VaultError Bool :=
  ask .hasKey fun site => site.vault.hasKey keyName

def symmetricKey (keyName : String) : Action VaultSite VaultError (Option SymmetricKey) :=
  ask .getSymmetricKey fun site => site.vault.symmetricKey keyName

def privateKey (keyName : String) : Action VaultSite VaultError (Option PrivateKeyHandle) :=
  ask .privateKey fun site => site.vault.privateKey keyName

def unwrap (handle : PrivateKeyHandle) (bytes : Bytes) : Action VaultSite VaultError SymmetricKey :=
  ask .unwrap fun site => site.vault.unwrap site.machine.now handle bytes

def change (f : Dict VaultEntry → Dict VaultEntry) : Action VaultSite VaultError Unit :=
  modify fun site => { site with vault := { site.vault with entries := f site.vault.entries } }

/-- Writes the entries as they now are; where that fails, the change to them is undone. -/
def persistOr (undo : Dict VaultEntry → Dict VaultEntry) : Action VaultSite VaultError Unit := do
  let site ← get
  try onMachine (Machine.onFiles (Vault.persist site.vault.path site.vault.entries))
  catch e => do
    change undo
    throw e

/-- Puts an entry in its place; what stood there before is kept until it has been written. -/
def store (keyName : String) (entry : VaultEntry) : Action VaultSite VaultError Unit := do
  let previous := (← get).vault.entries.get? keyName
  change (·.insert keyName entry)
  persistOr fun entries =>
    match previous with
    | some previous => entries.insert keyName previous
    | none => entries.erase keyName

/-- The key is drawn before it is stored: a failing write has used its bytes. -/
def generateSymmetricKey (keyName : String) (bits : Nat) :
    Action VaultSite VaultError SymmetricKey := do
  let size ← ask .generateSymmetricKey fun site => site.vault.admitSymmetric keyName bits
  let key ← onMachine (Machine.draw (SymmetricKey.draw size))
  store keyName (.symmetric key)
  return key

def generateKeyPair (keyName : String) (spec : KeyPairSpec) :
    Action VaultSite VaultError KeyPairHandle := do
  ask .generateKeyPair fun site => site.vault.admitKeyPair keyName spec
  let secret ← onMachine (Machine.draw SecretKey.draw)
  store keyName (.keyPair secret spec)
  return { publicKey := ⟨keyName, secret.publicKey⟩, privateKey := ⟨keyName⟩ }

def wrap (publicKey : PublicKeyHandle) (key : SymmetricKey) : Action VaultSite VaultError Bytes := do
  ask .wrap fun site => site.vault.ensureUnlocked
  let ephemeral ← onMachine (Machine.draw SecretKey.draw)
  let nonce ← onMachine (Machine.draw (·.draw Cipher.Box.nonceSize))
  return (Vault.wrapped ephemeral nonce publicKey.bytes key).bytes

/-- Tells whether there was a key to delete. -/
def deleteKey (keyName : String) : Action VaultSite VaultError Bool := do
  ask .deleteKey fun site => site.vault.ensureUnlocked
  match (← get).vault.entries.get? keyName with
  | none => return false
  | some previous => do
    change (·.erase keyName)
    persistOr (·.insert keyName previous)
    return true

end VaultSite

end SealedStream
