import SealedStream.Proofs.Durable.Runs
import SealedStream.Vault

/-!
# A vault as a map of its keys

What can happen to a vault with a document, and the map from names to keys that it
stands for: the map has no file, and of its surroundings it knows only their refusals.
-/

namespace SealedStream

-- ----------------------------------------------------------------------------
-- Events
-- ----------------------------------------------------------------------------

inductive VaultAnswer where
  | done
  | known (was : Bool)
  | symmetricKey (key? : Option SymmetricKey)
  | privateKey (handle? : Option PrivateKeyHandle)
  | key (key : SymmetricKey)
  | keyPair (pair : KeyPairHandle)
  | wrapped (bytes : Bytes)

inductive VaultCall where
  | hasKey (keyName : String)
  | symmetricKey (keyName : String)
  | privateKey (keyName : String)
  | generateSymmetricKey (keyName : String) (bits : Nat)
  | generateKeyPair (keyName : String) (spec : KeyPairSpec)
  | wrap (publicKey : PublicKeyHandle) (key : SymmetricKey)
  | unwrap (handle : PrivateKeyHandle) (bytes : Bytes)
  | deleteKey (keyName : String)

namespace VaultCall

def ask : VaultCall → Action VaultSite VaultError VaultAnswer
  | hasKey keyName => do
    return .known (← VaultSite.hasKey keyName)
  | symmetricKey keyName => do
    return .symmetricKey (← VaultSite.symmetricKey keyName)
  | privateKey keyName => do
    return .privateKey (← VaultSite.privateKey keyName)
  | generateSymmetricKey keyName bits => do
    return .key (← VaultSite.generateSymmetricKey keyName bits)
  | generateKeyPair keyName spec => do
    return .keyPair (← VaultSite.generateKeyPair keyName spec)
  | wrap publicKey key => do
    return .wrapped (← VaultSite.wrap publicKey key)
  | unwrap handle bytes => do
    return .key (← VaultSite.unwrap handle bytes)
  | deleteKey keyName => do
    return .known (← VaultSite.deleteKey keyName)

/-- The entries that a call is to leave. -/
def wanted (site : VaultSite) : VaultCall → Dict VaultEntry
  | generateSymmetricKey keyName bits =>
    match KeySize.ofBits? bits with
    | some size =>
      site.vault.entries.insert keyName
        (.symmetric (SymmetricKey.draw size site.machine.entropy).1)
    | none => site.vault.entries
  | generateKeyPair keyName spec =>
    site.vault.entries.insert keyName (.keyPair (SecretKey.draw site.machine.entropy).1 spec)
  | deleteKey keyName => site.vault.entries.erase keyName
  | _ => site.vault.entries

/-- The clock can show the times of a key pair that is asked for. -/
def InRange : VaultCall → Prop
  | generateKeyPair _ spec => spec.notBefore.InRange ∧ spec.notAfter.InRange
  | _ => True

end VaultCall

/-- What happens to a vault with a document, the faults that it meets and the time. -/
inductive VaultEvent where
  | asked (call : VaultCall) (faults : List (Option Fault)) (now : Time)
  | setLocked (locked : Bool)
  /-- Opened again. The faults are those of the reading; where it fails, the vault in memory goes
  on. -/
  | opened (faults : List (Option Fault))

namespace VaultEvent

def act (path : Path) : VaultEvent → Action VaultSite (Failure VaultError) VaultAnswer
  | asked call faults now => fun site =>
    Failure.lift id call.ask { site with
      machine := { site.machine with files := site.machine.files.facing faults, now } }
  | setLocked locked => fun site => (.ok .done, { site with vault := { site.vault with locked } })
  | opened faults => fun site =>
    match Vault.openAt path (site.machine.files.facing faults) with
    | (.ok vault, files) => (.ok .done, { site with vault, machine := { site.machine with files } })
    | (.error e, files) => (.error e, { site with machine := { site.machine with files } })

theorem opened_apply (path : Path) (faults : List (Option Fault)) (site : VaultSite) :
    (opened faults).act path site =
      match Vault.openAt path (site.machine.files.facing faults) with
      | (.ok vault, files) =>
        (.ok .done, { site with vault, machine := { site.machine with files } })
      | (.error e, files) => (.error e, { site with machine := { site.machine with files } }) := rfl

def InRange : VaultEvent → Prop
  | asked call _ _ => call.InRange
  | _ => True

end VaultEvent

-- ----------------------------------------------------------------------------
-- The map that a vault stands for
-- ----------------------------------------------------------------------------

inductive HeldKey where
  | symmetric (key : SymmetricKey)
  | pair (secret : SecretKey) (sizeBits : UInt32)

def VaultEntry.held : VaultEntry → HeldKey
  | symmetric key => .symmetric key
  | keyPair secret spec => .pair secret spec.sizeBits

/-- Keys by their names, in no file and without times. -/
structure KeyMap where
  keys : String → Option HeldKey
  locked : Bool
  entropy : Entropy

namespace KeyMap

def set (map : KeyMap) (keyName : String) (held? : Option HeldKey) : KeyMap :=
  { map with keys := fun other => if other = keyName then held? else map.keys other }

/-- A change to one name, unless it is refused. -/
def change (map : KeyMap) (refusal? : Option VaultError) (keyName : String)
    (held? : Option HeldKey) (answer : VaultAnswer) : Except VaultError VaultAnswer × KeyMap :=
  match refusal? with
  | some e => (.error e, map)
  | none => (.ok answer, map.set keyName held?)

/-- What is answered while nothing is locked. Only what would change a key or open one can be
refused from outside. -/
def answer (map : KeyMap) (refusal? : Option VaultError) :
    VaultCall → Except VaultError VaultAnswer × KeyMap
  | .hasKey keyName => (.ok (.known (map.keys keyName).isSome), map)
  | .symmetricKey keyName =>
    match map.keys keyName with
    | some (.symmetric key) => (.ok (.symmetricKey (some key)), map)
    | _ => (.ok (.symmetricKey none), map)
  | .privateKey keyName =>
    match map.keys keyName with
    | some (.pair _ _) => (.ok (.privateKey (some ⟨keyName⟩)), map)
    | _ => (.ok (.privateKey none), map)
  | .generateSymmetricKey keyName bits =>
    if keyName = "" then (.error (.unsupportedSpec .emptyAlias), map)
    else match KeySize.ofBits? bits with
    | none => (.error (.unsupportedSpec (.symmetricSize bits)), map)
    | some size =>
      let (key, entropy) := SymmetricKey.draw size map.entropy
      change { map with entropy } refusal? keyName (some (.symmetric key)) (.key key)
  | .generateKeyPair keyName spec =>
    if keyName = "" then (.error (.unsupportedSpec .emptyAlias), map)
    else if spec.sizeBits ≠ 256 then
      (.error (.unsupportedSpec (.keyPairSize spec.sizeBits.toNat)), map)
    else if spec.notAfter ≤ spec.notBefore then (.error (.unsupportedSpec .emptyWindow), map)
    else
      let (secret, entropy) := SecretKey.draw map.entropy
      change { map with entropy } refusal? keyName (some (.pair secret spec.sizeBits))
        (.keyPair ⟨⟨keyName, secret.publicKey⟩, ⟨keyName⟩⟩)
  | .wrap publicKey key =>
    let (ephemeral, entropy) := SecretKey.draw map.entropy
    let (nonce, entropy) := entropy.draw Cipher.Box.nonceSize
    (.ok (.wrapped (Vault.wrapped ephemeral nonce publicKey.bytes key).bytes), { map with entropy })
  | .unwrap handle bytes =>
    match map.keys handle.keyName, refusal? with
    | some (.pair _ _), some e => (.error e, map)
    | some (.pair secret _), none =>
      (((Vault.unwrapped secret bytes).mapError .unwrap).map .key, map)
    | _, _ => (.error (.keyNotFound handle.keyName), map)
  | .deleteKey keyName =>
    if (map.keys keyName).isSome then map.change refusal? keyName none (.known true)
    else (.ok (.known false), map)

def ask (map : KeyMap) (refusal? : Option VaultError) (call : VaultCall) :
    Except VaultError VaultAnswer × KeyMap :=
  if map.locked then (.error .locked, map) else map.answer refusal? call

theorem ask_locked {map : KeyMap} (hl : map.locked) (refusal? : Option VaultError)
    (call : VaultCall) : map.ask refusal? call = (.error .locked, map) := if_pos hl

theorem ask_unlocked {map : KeyMap} (hl : ¬ map.locked) (refusal? : Option VaultError)
    (call : VaultCall) : map.ask refusal? call = map.answer refusal? call := if_neg hl

def meet (map : KeyMap) (refusal? : Option VaultError) :
    VaultEvent → Except VaultError VaultAnswer × KeyMap
  | .asked call _ _ => map.ask refusal? call
  | .setLocked locked => (.ok .done, { map with locked })
  | .opened _ =>
    match refusal? with
    | some e => (.error e, map)
    | none => (.ok .done, { map with locked := false })

/-- The replies to events, each with what refuses it from outside, if anything does. -/
def replies : List (VaultEvent × Option VaultError) → KeyMap → List (Except VaultError VaultAnswer)
  | [], _ => []
  | (event, refusal?) :: rest, map =>
    (map.meet refusal? event).1 :: replies rest (map.meet refusal? event).2

end KeyMap

def VaultSite.keyMap (site : VaultSite) : KeyMap where
  keys := fun keyName => (site.vault.entries.get? keyName).map VaultEntry.held
  locked := site.vault.locked
  entropy := site.machine.entropy

end SealedStream
