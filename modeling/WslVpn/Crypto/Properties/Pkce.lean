import WslVpn.Crypto.Keys

/-! The two clients and the control plane agree on what a verifier proves: they write the same text for
the same bytes, which needs no escaping in a URL.
-/

namespace WslVpn.Crypto

open Dns (Text)
open Base64 (standard urlSafeNoPad sextets)

variable {data : List UInt8}

-----------------------------------------------------------------------------------------
-- One coding from the other
-----------------------------------------------------------------------------------------

/-- What the replacements make of a character. -/
def toUrlSafe (char : Char) : Text :=
  Agent.replace '=' (Agent.replace '/' (Agent.replace '+' [char] ['-']) ['_']) []

theorem replace_flatMap {Part : Type} {char : Char} {parts : List Part} {text : Part → Text}
    {replacement : Text}
    : Agent.replace char (parts.flatMap text) replacement
      = parts.flatMap (fun part => Agent.replace char (text part) replacement) := by
  simp [Agent.replace, List.flatMap_assoc]

theorem base64URLEncodedString_eq
    : Ios.base64URLEncodedString data = (standard.encode data).flatMap toUrlSafe := by
  have whole : standard.encode data = (standard.encode data).flatMap (fun char => [char]) := by simp
  rw [Ios.base64URLEncodedString, whole, replace_flatMap, replace_flatMap, replace_flatMap, ← whole]
  rfl

theorem toUrlSafe_symbol {value : Nat} (small : value < 64)
    : toUrlSafe (standard.symbol value) = [urlSafeNoPad.symbol value] := by
  have each : ∀ value < 64, toUrlSafe (standard.symbol value) = [urlSafeNoPad.symbol value] := by
    decide +kernel
  exact each value small

/-- The app's text is that of the coding for URLs. -/
theorem base64URLEncodedString_urlSafe
    : Ios.base64URLEncodedString data = urlSafeNoPad.encode data := by
  have small := Base64.sextets_lt data
  have symbols : ((sextets data).map standard.symbol).flatMap toUrlSafe
      = (sextets data).map urlSafeNoPad.symbol := by
    rw [List.flatMap_map, ← List.flatMap_singleton' ((sextets data).map urlSafeNoPad.symbol),
      List.flatMap_map]
    refine List.flatMap_congr ?_
    intro value member
    exact toUrlSafe_symbol (small value member)
  have filled (count : Nat) : (standard.padding count).flatMap toUrlSafe = [] := by
    refine List.flatMap_eq_nil_iff.mpr ?_
    intro char member
    rw [List.eq_of_mem_replicate member]
    rfl
  rw [base64URLEncodedString_eq, Base64.Coding.encode, List.flatMap_append, symbols, filled]
  rfl

-----------------------------------------------------------------------------------------
-- Verifiers and challenges
-----------------------------------------------------------------------------------------

/-- A character that a query string carries as it is. -/
def unreserved (char : Char) : Bool := char.isAlphanum || char = '-' || char = '_'

theorem unreserved_urlSafe : ∀ char ∈ urlSafeNoPad.encode data, unreserved char = true := by
  refine Base64.Coding.forall_mem_encode ?_
  decide +kernel

theorem length_urlSafe (bytes : Vector UInt8 32)
    : (urlSafeNoPad.encode bytes.toList).length = 43 := by
  rw [Base64.Coding.encode, List.length_append, List.length_map, Base64.length_sextets,
    Vector.length_toList]
  rfl

variable (primitives : Primitives)

/-- A verifier meets the challenge of another one just if their digests agree. -/
theorem challengeFor_eq_iff {verifier presented : Text}
    : challengeFor primitives presented = challengeFor primitives verifier
      ↔ primitives.sha256 (Utf8.encode presented) = primitives.sha256 (Utf8.encode verifier) := by
  constructor
  · intro same
    exact Vector.toList_inj.mp (Base64.Coding.encode_injective same)
  · intro same
    rw [challengeFor, same]
    rfl

/-- Both clients draw the same verifier and challenge from the same random bytes: 43 characters each that
need no escaping, of which the first tells the bytes apart, and the second meets just the verifiers
with its digest, as either client and the control plane compute it.
-/
theorem generate_agreed (random : Vector UInt8 32)
    : let pkce := Pkce.generate primitives random
      Ios.pkce primitives random = pkce
        ∧ pkce.verifier.length = 43 ∧ pkce.challenge.length = 43
        ∧ (∀ char ∈ pkce.verifier ++ pkce.challenge, unreserved char = true)
        ∧ (∀ other, (Pkce.generate primitives other).verifier = pkce.verifier ↔ other = random)
        ∧ ∀ presented,
            Ios.challenge primitives presented = challengeFor primitives presented
            ∧ (challengeFor primitives presented = pkce.challenge
              ↔ primitives.sha256 (Utf8.encode presented)
                = primitives.sha256 (Utf8.encode pkce.verifier)) := by
  have challenges (presented : Text)
      : Ios.challenge primitives presented = challengeFor primitives presented :=
    base64URLEncodedString_urlSafe
  have verifiers : Ios.base64URLEncodedString random.toList = urlSafeNoPad.encode random.toList :=
    base64URLEncodedString_urlSafe
  refine ⟨?_, length_urlSafe _, length_urlSafe _, ?_, ?_, ?_⟩
  · simp only [Ios.pkce, Pkce.generate, verifiers, challenges]
  · intro char member
    rcases List.mem_append.mp member with inVerifier | inChallenge
    · exact unreserved_urlSafe _ inVerifier
    · exact unreserved_urlSafe _ inChallenge
  · intro other
    constructor
    · intro same
      exact Vector.toList_inj.mp (Base64.Coding.encode_injective same)
    · exact fun same => congrArg (fun bytes => (Pkce.generate primitives bytes).verifier) same
  · exact fun presented => ⟨challenges presented, challengeFor_eq_iff primitives⟩

end WslVpn.Crypto
