import SealedStream.Action
import SealedStream.Bytes
import SealedStream.Cipher.Aes
import SealedStream.Cipher.Box
import SealedStream.Cipher.ChaCha
import SealedStream.Cipher.Gcm
import SealedStream.Cipher.Poly1305
import SealedStream.Cipher.Salsa
import SealedStream.Cipher.Words
import SealedStream.Cipher.X25519
import SealedStream.CommandLine.Arguments
import SealedStream.CommandLine.KeyReport
import SealedStream.CommandLine.Program
import SealedStream.Config
import SealedStream.ContentCipher
import SealedStream.ContentKey
import SealedStream.Custodian
import SealedStream.Custody
import SealedStream.Dict
import SealedStream.Entropy
import SealedStream.Exercise.Chunks
import SealedStream.Exercise.Records
import SealedStream.Exercise.Restarts
import SealedStream.Exercise.Workbench
import SealedStream.Exercise.Workload
import SealedStream.Files
import SealedStream.Files.Change
import SealedStream.Files.Replacement
import SealedStream.Files.Resolution
import SealedStream.Files.Step
import SealedStream.Host
import SealedStream.IoError
import SealedStream.Main
import SealedStream.Path
import SealedStream.Platform
import SealedStream.RandomSource
import SealedStream.SealError
import SealedStream.Settings
import SealedStream.Settings.Document
import SealedStream.Settings.Error
import SealedStream.StateDirectory
import SealedStream.Stream.Header
import SealedStream.Stream.Input
import SealedStream.Stream.Opening
import SealedStream.Stream.Protected
import SealedStream.Stream.Sealing
import SealedStream.Stream.Sink
import SealedStream.Stream.Source
import SealedStream.Text.Base64
import SealedStream.Text.Blank
import SealedStream.Text.CodePoints
import SealedStream.Text.Decimal
import SealedStream.Text.Double
import SealedStream.Text.Double.Shortest
import SealedStream.Text.Extending
import SealedStream.Text.Hex
import SealedStream.Text.Json
import SealedStream.Text.Json.Access
import SealedStream.Text.Json.Magnitude
import SealedStream.Text.Json.Reader
import SealedStream.Text.Printable
import SealedStream.Text.Quoted
import SealedStream.Tier
import SealedStream.Time
import SealedStream.Vault
import SealedStream.Vault.Document
import SealedStream.Vault.Error
import SealedStream.Vault.Key
import SealedStream.Proofs.Curve.Coordinates
import SealedStream.Proofs.Curve.Modulus
import SealedStream.Proofs.Curve.Agreement
import SealedStream.Proofs.Base64
import SealedStream.Proofs.Ciphers
import SealedStream.Proofs.Json
import SealedStream.Proofs.Stream.Pieces
import SealedStream.Proofs.Stream.Whole
import SealedStream.Proofs.Stream.Writing
import SealedStream.Proofs.Stream.Reading
import SealedStream.Proofs.Stream.Fronts
import SealedStream.Proofs.Stream.Keyless
import SealedStream.Proofs.Exercise.Chunks
import SealedStream.Proofs.Exercise.RoundTrips
import SealedStream.Proofs.Exercise.Workloads
import SealedStream.Proofs.Stores
import SealedStream.Proofs.Holdings
import SealedStream.Proofs.LookUp
import SealedStream.Proofs.Lifetime
import SealedStream.Proofs.Permanence
import SealedStream.Proofs.Upgrades
import SealedStream.Proofs.Generation
import SealedStream.Proofs.Reports
import SealedStream.Proofs.Markers
import SealedStream.Proofs.Recovery
import SealedStream.Proofs.KeptKey
import SealedStream.Proofs.Migration
import SealedStream.Proofs.Unwrapping
import SealedStream.Proofs.Respacing
import SealedStream.Proofs.Status
import SealedStream.Proofs.Successors
import SealedStream.Proofs.Documents
import SealedStream.Proofs.Files.Trees
import SealedStream.Proofs.Files.Changes
import SealedStream.Proofs.Files.Replacement
import SealedStream.Proofs.Files.Rewriting
import SealedStream.Proofs.Durable.KeyMap
import SealedStream.Proofs.Durable.Runs
import SealedStream.Proofs.Epochs
import SealedStream.Proofs.Durable.Settings
import SealedStream.Proofs.Durable.Vault
import SealedStream.Proofs.Durable.VaultCalls
import SealedStream.Proofs.Durable.Opening
import SealedStream.Proofs.Relabelling
import SealedStream.Proofs.Stream.Errors
import SealedStream.Proofs.Durable.Wrapping
import SealedStream.Proofs.Durable.Windows
import SealedStream.Proofs.Durable.Interruptions
import SealedStream.Proofs.Randomness.Draws
import SealedStream.Proofs.Randomness.Spending
import SealedStream.Proofs.Randomness.Workshop
import SealedStream.Proofs.CommandLine.State
import SealedStream.Proofs.CommandLine.Drafts
import SealedStream.Proofs.CommandLine.Failures
import SealedStream.Proofs.CommandLine.RoundTrip
