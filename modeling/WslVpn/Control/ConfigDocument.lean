import WslVpn.Dns.Text
import WslVpn.Templates.References

/-! The configuration file of the control plane as a YAML document, and the expansion of the variables in
its strings.
-/

namespace WslVpn.Control

open Dns (Text)
open Templates

/-- `serde_yaml::Value`, over any type of numbers. -/
inductive YamlValue (Number : Type) where
  | null
  | bool (value : Bool)
  | number (value : Number)
  | string (value : Text)
  | sequence (items : List (YamlValue Number))
  | mapping (entries : List (YamlValue Number × YamlValue Number))
  | tagged (tag : Text) (value : YamlValue Number)

inductive ExpandError where
  | unterminated
  | unset (name : Text)
  deriving DecidableEq

/-- `std::env::var`: nothing for a variable that is not set, or has no Unicode value. -/
abbrev Environment := Text → Option Text

def openingSign : Text := ['$', '{']

/-- The loop of `expand_env`, with what it has put out. -/
def expandEnvFrom (env : Environment) (out rest : Text) : Except ExpandError Text :=
  match _found : find openingSign rest with
  | none => .ok (out ++ rest)
  | some start =>
      let out := out ++ rest.take start
      let after := rest.drop (start + 2)
      if '}' ∉ after then .error .unterminated
      else
        let name := after.takeWhile (· ≠ '}')
        match env name with
        | none => .error (.unset name)
        | some value => expandEnvFrom env (out ++ value) (after.drop (name.length + 1))
termination_by rest.length
decreasing_by
  have starts := (find_some _found).1.1
  have long := starts.length_le
  simp only [openingSign, List.length_cons, List.length_nil, List.length_drop] at long ⊢
  omega

/-- Replace `${VAR}` with the environment variable's value. -/
def expandEnv (env : Environment) (raw : Text) : Except ExpandError Text := expandEnvFrom env [] raw

variable {Number : Type}

mutual

/-- Expand `${VAR}` in every string in a parsed document. -/
def expandEnvInDocument (env : Environment)
    : YamlValue Number → Except ExpandError (YamlValue Number)
  | .string value =>
      if openingSign <:+: value then (expandEnv env value).map .string else .ok (.string value)
  | .sequence items => (expandItems env items).map .sequence
  | .mapping entries => (expandEntries env entries).map .mapping
  | value => .ok value

def expandItems (env : Environment)
    : List (YamlValue Number) → Except ExpandError (List (YamlValue Number))
  | [] => .ok []
  | item :: rest => do
      let item ← expandEnvInDocument env item
      let rest ← expandItems env rest
      return item :: rest

/-- Keys are field names, never secrets. -/
def expandEntries (env : Environment)
    : List (YamlValue Number × YamlValue Number)
      → Except ExpandError (List (YamlValue Number × YamlValue Number))
  | [] => .ok []
  | (key, value) :: rest => do
      let value ← expandEnvInDocument env value
      let rest ← expandEntries env rest
      return (key, value) :: rest

end

end WslVpn.Control
