import Mathlib.Data.Int.Notation
import Shabdiz.Text.Numeral
import Shabdiz.Text.Split

/-!
# Internet addresses

The addresses of the platform, as far as they are written as texts and made from bytes: four bytes
with dots between them, or eight groups of hexadecimal digits with colons between them, after a
host name that need not be there, and before a port.

## Main definitions

* `Net.InetAddress`, `Net.InetSocketAddress` — addresses without a port, and with one
* `Net.InetAddress.getHostAddress`, `Net.InetSocketAddress.toString` — how they are written
* `Net.InetAddress.getByAddress` — the address with the given bytes

## Main results

* `Net.InetAddress.splitOn_octets` — the bytes of a dotted address are read off from it
* `Net.InetAddress.exists_group` — the first group of sixteen bytes ends at a colon
-/

namespace Shabdiz

namespace Net

/-- The bytes of an address. -/
abbrev Bytes (n : ℕ) : Type := {bytes : List UInt8 // bytes.length = n}

/-- An address of four bytes or of sixteen, and the host name that it was made with. -/
inductive InetAddress where
  | inet4 (hostName : Option (List Char)) (bytes : Bytes 4)
  | inet6 (hostName : Option (List Char)) (bytes : Bytes 16) (scope : Option (List Char))
deriving DecidableEq

/-- A port. -/
abbrev Port : Type := Fin 65536

/-- An address with a port. It is unresolved if no address was found for its host name. -/
inductive InetSocketAddress where
  | resolved (address : InetAddress) (port : Port)
  | unresolved (hostname : List Char) (port : Port)
deriving DecidableEq

namespace InetAddress

/-- The groups of two bytes, in hexadecimal digits. -/
def hexGroups : List UInt8 → List (List Char)
  | high :: low :: bytes => Nat.toDigits 16 (256 * high.toNat + low.toNat) :: hexGroups bytes
  | _ => []

/-- The bytes in decimal. -/
def octets (bytes : List UInt8) : List (List Char) := bytes.map fun b => Nat.toDigits 10 b.toNat

/-- The address in numbers, with the scope of an IPv6 address. -/
def getHostAddress : InetAddress → List Char
  | inet4 _ bytes => ['.'].intercalate (octets bytes.1)
  | inet6 _ bytes scope => [':'].intercalate (hexGroups bytes.1) ++ scope.elim [] ('%' :: ·)

/-- The host name, if the address has been given one. -/
def hostName : InetAddress → Option (List Char)
  | inet4 hostName _ => hostName
  | inet6 hostName _ _ => hostName

/-- The same address with another host name. -/
def withHostName (address : InetAddress) (hostName : Option (List Char)) : InetAddress :=
  match address with
  | inet4 _ bytes => inet4 hostName bytes
  | inet6 _ bytes scope => inet6 hostName bytes scope

/-- The host name, which may be missing, a slash, and the address in numbers. -/
protected def toString (address : InetAddress) : List Char :=
  address.hostName.getD [] ++ '/' :: address.getHostAddress

/-- Host names are not compared, and neither are scopes. -/
def equals : InetAddress → InetAddress → Bool
  | inet4 _ bytes, inet4 _ bytes' => bytes = bytes'
  | inet6 _ bytes _, inet6 _ bytes' _ => bytes = bytes'
  | _, _ => false

/-- A host name may be given in brackets. -/
def stripBrackets (host : List Char) : List Char :=
  if host.head? = some '[' ∧ host.getLast? = some ']' then host.tail.dropLast else host

/-- Sixteen bytes that stand for an address of four. -/
def isIPv4MappedAddress (bytes : List UInt8) : Bool :=
  bytes.take 12 = List.replicate 10 0 ++ [255, 255]

/-- `none` stands for an `UnknownHostException`. -/
def getByAddress (host : Option (List Char)) (bytes : List UInt8) : Option InetAddress :=
  if h : bytes.length = 4 then some (inet4 (host.map stripBrackets) ⟨bytes, h⟩)
  else if h : bytes.length = 16 then
    if isIPv4MappedAddress bytes then
      some (inet4 (host.map stripBrackets) ⟨bytes.drop 12, by rw [List.length_drop, h]⟩)
    else some (inet6 (host.map stripBrackets) ⟨bytes, h⟩ none)
  else none

end InetAddress

namespace InetSocketAddress

/-- The constructor; `none` stands for an `IllegalArgumentException`. -/
def ofPort (address : InetAddress) (port : Int32) : Option InetSocketAddress :=
  if h : 0 ≤ port.toInt ∧ port.toInt < 65536 then
    some (resolved address ⟨port.toInt.toNat, by omega⟩)
  else none

/-- The address or the host name, a colon, and the port. -/
protected def toString : InetSocketAddress → List Char
  | resolved address port => address.toString ++ ':' :: Nat.toDigits 10 port
  | unresolved hostname port => hostname ++ ':' :: Nat.toDigits 10 port

/-- Whether a resolved address is equal to this one. No resolved address is equal to one that is
not. -/
def equalsResolved (a : InetSocketAddress) (address : InetAddress) (port : Port) : Prop :=
  ∃ address', a = resolved address' port ∧ address.equals address' = true

end InetSocketAddress

/-! ### Texts -/

namespace InetAddress

variable {bytes : List UInt8} {c : Char} {b n : ℕ}

/-- What stands between the parts of the text of an address. -/
def isSeparator (c : Char) : Bool := c = ':' || c = '/' || c = '.'

/-- Digits, hexadecimal ones too, are no separators. -/
theorem not_isSeparator_of_mem_toDigits (hb : 1 < b) (hb' : b ≤ 16) :
    ∀ c ∈ Nat.toDigits b n, isSeparator c = false := by
  have hdigit : ∀ d < 16, isSeparator (Nat.digitChar d) = false := by decide
  induction n using Nat.strongRecOn with
  | ind n ih =>
    intro c hc
    rw [Nat.toDigits_eq_if hb] at hc
    split at hc
    · rw [List.mem_singleton.mp hc]
      exact hdigit n (by omega)
    · rcases List.mem_append.mp hc with hc | hc
      · exact ih (n / b) (Nat.div_lt_self (by omega) hb) c hc
      · have := Nat.mod_lt n (show 0 < b by omega)
        rw [List.mem_singleton.mp hc]
        exact hdigit (n % b) (by omega)

theorem not_isSeparator_of_mem_octets :
    ∀ octet ∈ octets bytes, ∀ c ∈ octet, isSeparator c = false := by
  intro octet hoctet
  obtain ⟨byte, -, rfl⟩ := List.mem_map.mp hoctet
  exact not_isSeparator_of_mem_toDigits (by decide) (by decide)

/-- Four bytes are written with dots, and no other separators. -/
theorem eq_dot_of_isSeparator (bytes : List UInt8) :
    ∀ c ∈ ['.'].intercalate (octets bytes), isSeparator c = true → c = '.' := by
  refine forall_mem_intercalate (fun _ => rfl) fun octet hoctet c hc hsep => ?_
  rw [not_isSeparator_of_mem_octets octet hoctet c hc] at hsep
  exact absurd hsep (by decide)

/-- A text without separators does not have this one. -/
theorem notMem_of_not_isSeparator {s : List Char} (h : ∀ c ∈ s, isSeparator c = false)
    (hc : isSeparator c = true) : c ∉ s := by
  intro hmem
  rw [h c hmem] at hc
  exact absurd hc (by decide)

/-- **The bytes of a dotted address** are the fields between its dots. -/
theorem splitOn_octets (hne : bytes ≠ []) :
    (['.'].intercalate (octets bytes)).splitOn '.' = octets bytes := by
  refine List.splitOn_intercalate '.' (fun octet hoctet => ?_) (by simpa [octets] using hne)
  exact notMem_of_not_isSeparator (not_isSeparator_of_mem_octets octet hoctet) rfl

theorem intercalate_octets_ne_nil (hne : bytes ≠ []) : ['.'].intercalate (octets bytes) ≠ [] := by
  intro hnil
  have hoctets := splitOn_octets hne
  rw [hnil, List.splitOn_nil] at hoctets
  obtain ⟨byte, -, hbyte⟩ := List.mem_map.mp (hoctets ▸ List.mem_singleton_self [])
  exact Nat.toDigits_ne_nil hbyte

/-- The text of sixteen bytes is a group, a colon and more. -/
theorem exists_group (hlength : bytes.length = 16) :
    ∃ n rest, (hexGroups bytes).head? = some (Nat.toDigits 16 n) ∧
      [':'].intercalate (hexGroups bytes) = Nat.toDigits 16 n ++ ':' :: rest := by
  match bytes, hlength with
  | b0 :: b1 :: b2 :: b3 :: bytes, _ =>
    refine ⟨256 * b0.toNat + b1.toNat, [':'].intercalate (hexGroups (b2 :: b3 :: bytes)), rfl, ?_⟩
    rw [hexGroups, List.intercalate_cons_of_ne_nil (by simp [hexGroups]), List.append_assoc,
      List.singleton_append]

end InetAddress

end Net

end Shabdiz
