import WslVpn.AddressSpace.RoundTrip
import WslVpn.Dns.Text

/-! The characters that addresses, networks and numbers are written with. -/

namespace WslVpn.Dns

open AddressSpace

/-- The character is one of those that addresses, networks and numbers are written with. -/
def IsNumeral (char : Char) : Prop :=
  char ∈ ['.', ':', '/', 'f'] ∨ ∃ digit < 16, char = digit.digitChar

theorem IsNumeral.plain {char : Char} (numeral : IsNumeral char)
    : isWhitespace char = false ∧ char ≠ '#' ∧ char ≠ ',' := by
  rcases numeral with sign | ⟨digit, below, rfl⟩
  · simp only [List.mem_cons, List.not_mem_nil, or_false] at sign
    rcases sign with rfl | rfl | rfl | rfl <;> decide
  · have all : ∀ digit : Fin 16, isWhitespace digit.val.digitChar = false
        ∧ digit.val.digitChar ≠ '#'
        ∧ digit.val.digitChar ≠ ',' := by decide
    exact all ⟨digit, below⟩

theorem numerals_toDigits {radix : Nat} (wide : 1 < radix) (small : radix ≤ 16) (number : Nat)
    : ∀ char ∈ Nat.toDigits radix number, IsNumeral char := by
  intro char member
  obtain ⟨digit, below, rfl⟩ := toDigits_chars wide member
  exact Or.inr ⟨digit, lt_of_lt_of_le below small, rfl⟩

theorem numerals_append {first second : Text} (left : ∀ char ∈ first, IsNumeral char)
    (right : ∀ char ∈ second, IsNumeral char)
    : ∀ char ∈ first ++ second, IsNumeral char :=
  List.forall_mem_append.mpr ⟨left, right⟩

theorem numerals_cons {sign : Char} {text : Text} (signs : sign ∈ ['.', ':', '/', 'f'])
    (others : ∀ char ∈ text, IsNumeral char)
    : ∀ char ∈ sign :: text, IsNumeral char :=
  List.forall_mem_cons.mpr ⟨Or.inl signs, others⟩

theorem numerals_ipv4 (address : BitVec 32) : ∀ char ∈ renderIpv4 address, IsNumeral char := by
  have octet (number : Nat) := numerals_toDigits (by decide : 1 < 10) (by decide) number
  have dot {text : Text} := @numerals_cons '.' text (by decide)
  rw [renderIpv4_eq]
  exact numerals_append (octet _) (dot (numerals_append (octet _) (dot (numerals_append (octet _)
    (dot (octet _))))))

theorem numerals_ipv6 (address : BitVec 128) : ∀ char ∈ renderIpv6 address, IsNumeral char := by
  have groups (numbers : List Nat) : ∀ char ∈ renderGroups numbers, IsNumeral char := by
    intro char member
    rcases renderGroups_chars member with rfl | digit
    · exact Or.inl (by decide)
    · exact Or.inr digit
  have mapped : ∀ char ∈ "::ffff:".toList, IsNumeral char := by
    intro char member
    have sign : ∀ char ∈ "::ffff:".toList, char ∈ ['.', ':', '/', 'f'] :=
      List.all_iff_forall_prop.mp (by decide)
    exact Or.inl (sign char member)
  have colon {text : Text} := @numerals_cons ':' text (by decide)
  simp only [renderIpv6]
  split
  · exact numerals_append mapped (numerals_ipv4 _)
  · split
    · exact numerals_append (numerals_append (groups _) (colon (colon (by simp)))) (groups _)
    · exact groups _

theorem numerals_address (address : IpAddr) : ∀ char ∈ address.render, IsNumeral char := by
  cases address with
  | v4 address => exact numerals_ipv4 address
  | v6 address => exact numerals_ipv6 address

end WslVpn.Dns
