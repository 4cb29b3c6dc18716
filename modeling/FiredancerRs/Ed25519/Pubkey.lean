import Mathlib.Tactic.Common

/-!
# Public keys, signatures and errors of `fd_ed25519`

A byte string is a list of bytes, and a public key is a newtype of 32 bytes. Code that
can panic returns an `Option`, where `none` is the panic.
-/

/-- A byte string, the model of a Rust `&[u8]` or `Vec<u8>`. -/
abbrev Bytes : Type := List UInt8

namespace FdEd25519

/-- The 32 bytes of a public key, a hash or a blockhash. -/
abbrev Bytes32 : Type := Vector UInt8 32

/-- `Pubkey([u8; 32])`. -/
structure Pubkey where
  bytes : Bytes32
deriving DecidableEq, Repr

/-- `Pubkey::as_bytes`, as a byte string. -/
def Pubkey.asBytes (key : Pubkey) : Bytes := key.bytes.toList

@[simp]
theorem Pubkey.length_asBytes (key : Pubkey) :
  key.asBytes.length = 32
  := Vector.length_toList

/-- `Signature([u8; 64])` -/
structure Signature where
  bytes : Vector UInt8 64
deriving DecidableEq

/-- `Signature::as_ref`, as a byte string. -/
def Signature.asBytes (signature : Signature) : Bytes := signature.bytes.toList

/-- `Ed25519Error`. -/
inductive Ed25519Error where
  | invalidSignature (msg : String)
  | invalidPublicKey (msg : String)
  | verificationFailed
  | invalidInput (msg : String)
  | cryptoError (msg : String)
  | derivationFailed
  | maxSeedLengthExceeded
  | keyExchangeFailed
deriving DecidableEq, Repr

end FdEd25519
