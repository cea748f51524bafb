import SecureBoot.Arithmetic
import SecureBoot.BootImage
import SecureBoot.Bytes
import SecureBoot.Cipher.Aes
import SecureBoot.Cipher.Cbc
import SecureBoot.Command.Action
import SecureBoot.Command.Arguments
import SecureBoot.Command.Failure
import SecureBoot.Command.Generating
import SecureBoot.Command.Loading
import SecureBoot.Command.Publishing
import SecureBoot.Command.Report
import SecureBoot.Command.Run
import SecureBoot.Command.Syntax
import SecureBoot.Der.Element
import SecureBoot.Der.Time
import SecureBoot.Der.Value
import SecureBoot.Fault
import SecureBoot.Files.FileTree
import SecureBoot.Files.Host
import SecureBoot.Files.Path
import SecureBoot.Files.Workspace
import SecureBoot.Hash.Crc32
import SecureBoot.Hash.Hmac
import SecureBoot.Hash.Pbkdf2
import SecureBoot.Hash.Scrypt
import SecureBoot.Hash.Sha256
import SecureBoot.Hash.Sha512
import SecureBoot.Image
import SecureBoot.KeyFile.Certificate
import SecureBoot.KeyFile.EncryptedKey
import SecureBoot.KeyFile.Format
import SecureBoot.KeyFile.Pkcs1
import SecureBoot.KeyFile.PrivateKeyInfo
import SecureBoot.KeyFile.PublicKeyInfo
import SecureBoot.KeyRecord
import SecureBoot.Layout
import SecureBoot.Main
import SecureBoot.Montgomery
import SecureBoot.OtaImage
import SecureBoot.Pem.Armour
import SecureBoot.Pem.Base64
import SecureBoot.Proofs.ByteOrder
import SecureBoot.Proofs.Crc32
import SecureBoot.Rsa.Basic
import SecureBoot.Rsa.Generator
import SecureBoot.Rsa.Pss
import SecureBoot.Saving
import SecureBoot.SignatureBlock
import SecureBoot.Signer
import SecureBoot.Stream.Sink
import SecureBoot.Stream.Source
import SecureBoot.Text.Blank
import SecureBoot.Text.Hex
import SecureBoot.Text.Utf8
import SecureBoot.Proofs.SignatureBlock
import SecureBoot.Proofs.Verification
import SecureBoot.Proofs.BurstErrors
import SecureBoot.Proofs.Arithmetic
import SecureBoot.Proofs.Rsa
import SecureBoot.Proofs.Pss
import SecureBoot.Proofs.Signing
import SecureBoot.Proofs.Der
import SecureBoot.Proofs.Verdicts
import SecureBoot.Proofs.Answers
import SecureBoot.Proofs.Layers
import SecureBoot.Proofs.Euclid
import SecureBoot.Proofs.Montgomery
import SecureBoot.Proofs.KeyCreation
import SecureBoot.Proofs.BlockFormat
import SecureBoot.Proofs.Tampering
import SecureBoot.Proofs.KeyReconstruction
import SecureBoot.Proofs.ImageParts
import SecureBoot.Proofs.FileTree
import SecureBoot.Proofs.OutsideSigning
import SecureBoot.Proofs.Publishing
import SecureBoot.Proofs.Directories
import SecureBoot.Proofs.Path
import SecureBoot.Proofs.Repacking
import SecureBoot.Proofs.Loading
import SecureBoot.Proofs.Saving
import SecureBoot.Proofs.SigningCommands
import SecureBoot.Proofs.Simulation
import SecureBoot.Proofs.Outcomes
import SecureBoot.Proofs.KeyHash
import SecureBoot.Proofs.Reader
import SecureBoot.Proofs.Arguments
import SecureBoot.Proofs.Log
import SecureBoot.Proofs.Reports
import SecureBoot.Proofs.VerifyingCommands
import SecureBoot.Proofs.Base64
import SecureBoot.Proofs.Pem
import SecureBoot.Proofs.KeyFormat
import SecureBoot.Proofs.PublicKeyInfo
import SecureBoot.Proofs.Certificate
import SecureBoot.Proofs.KeyGeneration
import SecureBoot.Proofs.KeySources
import SecureBoot.Proofs.Registers
import SecureBoot.Proofs.Attribution
