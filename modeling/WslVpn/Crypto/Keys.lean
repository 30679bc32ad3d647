import WslVpn.Encodings.Base64
import WslVpn.Agent.Tunnel
import WslVpn.Utf8

/-! The keys of tunnels, and the verifiers and challenges of sign-ins, as text. Hashing and the arithmetic
of the curve come from outside.
-/

namespace WslVpn.Crypto

open Dns (Text trim)

/-- What the cryptographic libraries compute. -/
structure Primitives where
  sha256 : List UInt8 → Vector UInt8 32
  publicKey : Vector UInt8 32 → Vector UInt8 32

variable (primitives : Primitives)

-----------------------------------------------------------------------------------------
-- Proof of possession
-----------------------------------------------------------------------------------------

structure Pkce where
  verifier : Text
  challenge : Text
  deriving DecidableEq

/-- The S256 transform: base64url of the SHA-256 of the verifier's bytes. -/
def challengeFor (verifier : Text) : Text :=
  Base64.urlSafeNoPad.encode (primitives.sha256 (Utf8.encode verifier)).toList

/-- A verifier from 32 random bytes, and its challenge. -/
def Pkce.generate (random : Vector UInt8 32) : Pkce :=
  let verifier := Base64.urlSafeNoPad.encode random.toList
  ⟨verifier, challengeFor primitives verifier⟩

namespace Ios

/-- The standard coding, with other characters for `+` and `/` and without `=`. -/
def base64URLEncodedString (data : List UInt8) : Text :=
  Agent.replace '=' (Agent.replace '/' (Agent.replace '+' (Base64.standard.encode data) ['-']) ['_']) []

def challenge (verifier : Text) : Text :=
  base64URLEncodedString (primitives.sha256 (Utf8.encode verifier)).toList

/-- What the app makes of its random bytes. -/
def pkce (bytes : Vector UInt8 32) : Pkce :=
  let verifier := base64URLEncodedString bytes.toList
  ⟨verifier, challenge primitives verifier⟩

end Ios

-----------------------------------------------------------------------------------------
-- Keys of tunnels
-----------------------------------------------------------------------------------------

structure WireGuardKeypair where
  privateKeyB64 : Text
  publicKeyB64 : Text

/-- The pair of a random secret. -/
def generateWireguardKeypair (secret : Vector UInt8 32) : WireGuardKeypair :=
  ⟨Base64.standard.encode secret.toList,
    Base64.standard.encode (primitives.publicKey secret).toList⟩

/-- The public key for a private key, as `wg pubkey` prints it. -/
def publicKeyFromPrivate (privateB64 : Text) : Option Text := do
  let bytes ← Base64.standard.decode (trim privateB64)
  if length : bytes.length = 32 then
    some (Base64.standard.encode (primitives.publicKey ⟨bytes.toArray, length⟩).toList)
  else none

end WslVpn.Crypto
