import Shabdiz.Util.NetworkUtil

/-!
# The addresses that are read back

`NetworkUtil.getAddressFromString` is there to read what `InetSocketAddress.toString` writes. It
takes the text before the first colon for the host, so the groups of sixteen bytes are torn apart;
and an address without a slash was not resolved, and has no bytes. It also looks at the fields that
it needs and at no others, and takes the low bytes of the numerals between the dots, so that more
is read as an address than what is one.

## Main definitions

* `NetworkUtil.HasFields` — what a text with given fields has been put together from
* `NetworkUtil.ReadsBack`, `NetworkUtil.Readable` — an address is read back
* `NetworkUtil.AcceptsOnlyAddresses`, `NetworkUtil.AddressFields.Exact` — a text is not misread

## Main results

* `NetworkUtil.parseAddress_eq_some_iff_hasFields` — the fields of a text
* `NetworkUtil.readsBack_iff` — the addresses that are read back
* `NetworkUtil.acceptsOnlyAddresses_iff` — the texts that are not misread
-/

namespace Shabdiz

open Net InetAddress

namespace NetworkUtil

variable {s name : List Char} {f : AddressFields} {a : Net.InetSocketAddress}
  {address : InetAddress} {port : Port} {bytes : List UInt8}

/-! ### The address of the fields -/

/-- The fields are those of the given address: the numerals have its bytes, or sixteen bytes that
stand for them, and the port is its port. -/
def AddressFields.Denotes (f : AddressFields) (address : InetAddress) (port : Port) : Prop :=
  f.port.toInt = (port : ℕ) ∧ ∃ address',
    InetAddress.getByAddress none (f.values.map byteValue) = some address' ∧
      address'.equals address = true

/-- The name makes no difference to the bytes. -/
theorem getByAddress_eq (name : List Char) (bytes : List UInt8) :
    ∃ hostName, getByAddress name bytes =
      (InetAddress.getByAddress none bytes).map (·.withHostName hostName) := by
  have hmap (hostName : Option (List Char)) : InetAddress.getByAddress hostName bytes =
      (InetAddress.getByAddress none bytes).map
        (·.withHostName (hostName.map stripBrackets)) := by
    rw [InetAddress.getByAddress, InetAddress.getByAddress]
    split
    · rfl
    · split
      · split <;> rfl
      · rfl
  rw [getByAddress]
  split
  · exact ⟨_, hmap none⟩
  · exact ⟨_, hmap (some name)⟩

theorem equals_withHostName (address' : InetAddress) (hostName : Option (List Char)) :
    (address'.withHostName hostName).equals address = address'.equals address := by
  cases address' <;> cases address <;> rfl

/-- **The address of the fields** is equal to the one that they denote. -/
theorem denotes_iff :
    (∃ address' port', f.address = some (.resolved address' port') ∧
      (Net.InetSocketAddress.resolved address port).equalsResolved address' port') ↔
        f.Denotes address port := by
  obtain ⟨hostName, hname⟩ := getByAddress_eq f.name (f.values.map byteValue)
  rw [AddressFields.address, hname, AddressFields.Denotes]
  constructor
  · rintro ⟨address', port', haddress, _, heq, hequals⟩
    obtain ⟨rfl, rfl⟩ := Net.InetSocketAddress.resolved.inj heq
    obtain ⟨_, hmap, hport⟩ := Option.bind_eq_some_iff.mp haddress
    obtain ⟨read, hread, rfl⟩ := Option.map_eq_some_iff.mp hmap
    obtain ⟨port', heq', htoInt⟩ := ofPort_eq_some_iff.mp hport
    obtain ⟨rfl, rfl⟩ := Net.InetSocketAddress.resolved.inj heq'
    exact ⟨htoInt, read, hread, by rwa [equals_withHostName] at hequals⟩
  · rintro ⟨hport, read, hread, hequals⟩
    refine ⟨read.withHostName hostName, port, ?_, address, rfl, ?_⟩
    · rw [hread, Option.map_some, Option.bind_some]
      exact ofPort_eq_some_iff.mpr ⟨port, rfl, hport⟩
    · rwa [equals_withHostName]

/-! ### Reading back -/

/-- The text of an address is read as an equal address, and that of no address as none. -/
def ReadsBack : Option Net.InetSocketAddress → Prop
  | none => getAddressFromString (some "null".toList) = .ok none
  | some a => ∃ address port,
      getAddressFromString (some a.toString) = .ok (some (.resolved address port)) ∧
        a.equalsResolved address port

/-- A host name without colons and slashes. -/
def Plain (name : List Char) : Prop := ':' ∉ name ∧ '/' ∉ name

/-- The text has these fields: the numbers of the address, with dots between them, come after the
first slash and before the first colon, and the port is between the first two colons. -/
def HasFields (s : List Char) (f : AddressFields) : Prop :=
  ∃ host quads portText, s = [':'].intercalate (host :: portText :: f.afterPort) ∧
    host = ['/'].intercalate (f.name :: ['.'].intercalate quads :: f.afterAddress) ∧
      (∀ piece ∈ f.name :: f.afterAddress, Plain piece) ∧ (∀ piece ∈ f.afterPort, ':' ∉ piece) ∧
        quads ≠ [] ∧ quads.map Integer.parseInt = f.values.map some ∧
          Integer.parseInt portText = some f.port

variable {quads : List (List Char)} {values : List Int32} {portText : List Char} {p : Int32}

theorem not_isSeparator_of_map_parseInt (h : quads.map Integer.parseInt = values.map some) :
    ∀ quad ∈ quads, ∀ c ∈ quad, isSeparator c = false := by
  intro quad hquad
  have hmem : Integer.parseInt quad ∈ values.map some := h ▸ List.mem_map_of_mem hquad
  obtain ⟨v, -, hv⟩ := List.mem_map.mp hmem
  exact not_isSeparator_of_parseInt hv.symm

theorem parseAddress_of_hasFields (h : HasFields s f) : parseAddress s = some f := by
  obtain ⟨host, quads, portText, rfl, rfl, hplain, hafterPort, hne, hvalues, hport⟩ := h
  obtain ⟨hname, hafterAddress⟩ := List.forall_mem_cons.mp hplain
  have hquads := not_isSeparator_of_map_parseInt hvalues
  have hdots : Plain (['.'].intercalate quads) := by
    have hne : ∀ c ∈ ['.'].intercalate quads, c ≠ ':' ∧ c ≠ '/' :=
      forall_mem_intercalate (by decide) fun quad hquad c hc =>
        ⟨fun heq => notMem_of_not_isSeparator (hquads quad hquad) rfl (heq ▸ hc),
          fun heq => notMem_of_not_isSeparator (hquads quad hquad) rfl (heq ▸ hc)⟩
    exact ⟨fun hmem => (hne _ hmem).1 rfl, fun hmem => (hne _ hmem).2 rfl⟩
  have hpieces : ∀ piece ∈ f.name :: ['.'].intercalate quads :: f.afterAddress, Plain piece :=
    List.forall_mem_cons.mpr ⟨hname, List.forall_mem_cons.mpr ⟨hdots, hafterAddress⟩⟩
  have hhost : ∀ c ∈ ['/'].intercalate (f.name :: ['.'].intercalate quads :: f.afterAddress),
      c ≠ ':' :=
    forall_mem_intercalate (by decide) fun piece hpiece c hc heq =>
      (hpieces piece hpiece).1 (heq ▸ hc)
  refine parseAddress_eq_some_iff.mpr ⟨_, portText, _, List.splitOn_intercalate ':' ?_ (by simp),
    List.splitOn_intercalate '/' (fun piece hpiece => (hpieces piece hpiece).2) (by simp),
    hport, ?_⟩
  · exact List.forall_mem_cons.mpr ⟨fun hmem => hhost _ hmem rfl, List.forall_mem_cons.mpr
      ⟨notMem_of_not_isSeparator (not_isSeparator_of_parseInt hport) rfl, hafterPort⟩⟩
  · rw [List.splitOn_intercalate '.'
      (fun quad hquad => notMem_of_not_isSeparator (hquads quad hquad) rfl) hne]
    exact hvalues

theorem hasFields_of_parseAddress (h : parseAddress s = some f) : HasFields s f := by
  obtain ⟨host, portText, address, hcolon, hslash, hport, hvalues⟩ := parseAddress_eq_some_iff.mp h
  have hnotColon : ∀ piece ∈ s.splitOn ':', ':' ∉ piece := notMem_of_mem_splitOn
  have hnotSlash : ∀ piece ∈ host.splitOn '/', '/' ∉ piece := notMem_of_mem_splitOn
  have hs : [':'].intercalate (s.splitOn ':') = s := List.intercalate_splitOn ':'
  have hhost : ['/'].intercalate (host.splitOn '/') = host := List.intercalate_splitOn '/'
  have haddress : ['.'].intercalate (address.splitOn '.') = address := List.intercalate_splitOn '.'
  rw [hcolon] at hnotColon hs
  rw [hslash] at hnotSlash hhost
  refine ⟨host, address.splitOn '.', portText, hs.symm, by rw [haddress, hhost],
    fun piece hpiece => ?_, fun piece hpiece => hnotColon piece (by simp [hpiece]),
    List.splitOn_ne_nil '.' address, hvalues, hport⟩
  have hmem : piece ∈ f.name :: address :: f.afterAddress := by
    rcases List.mem_cons.mp hpiece with rfl | hpiece <;> simp [*]
  refine ⟨fun hc => hnotColon host (List.mem_cons_self ..) ?_, hnotSlash piece hmem⟩
  rw [← hhost]
  exact mem_intercalate_of_mem hmem hc

/-- **The fields of a text** are those that it has been put together from. -/
theorem parseAddress_eq_some_iff_hasFields : parseAddress s = some f ↔ HasFields s f :=
  ⟨hasFields_of_parseAddress, parseAddress_of_hasFields⟩

theorem splitOn_host (rest : List Char) (hname : Plain name)
    (hi : ∀ c ∈ s, isSeparator c = true → c = '.') :
    (name ++ '/' :: s ++ ':' :: rest).splitOn ':' = (name ++ '/' :: s) :: rest.splitOn ':' ∧
      (name ++ '/' :: s).splitOn '/' = [name, s] := by
  have hnot {c : Char} (hc : isSeparator c = true) (hdot : c ≠ '.') : c ∉ s :=
    fun hmem => hdot (hi c hmem hc)
  have hcolon : ':' ∉ name ++ '/' :: s := by
    rw [List.mem_append, List.mem_cons]
    rintro (h | h | h)
    · exact hname.1 h
    · exact absurd h (by decide)
    · exact hnot rfl (by decide) h
  exact ⟨List.splitOn_append_cons_self_of_not_mem hcolon _,
    splitOn_pair hname.2 (hnot rfl (by decide))⟩

/-- A name, numbers and a port are taken apart where they were put together. -/
theorem parseAddress_append (hname : Plain name) (hne : quads ≠ [])
    (hvalues : quads.map Integer.parseInt = values.map some)
    (hport : Integer.parseInt portText = some p) :
    parseAddress (name ++ '/' :: ['.'].intercalate quads ++ ':' :: portText) =
      some ⟨name, values, [], p, []⟩ :=
  parseAddress_eq_some_iff_hasFields.mpr ⟨_, quads, portText, by simp, rfl, by simpa using hname,
    by simp, hne, hvalues, hport⟩

/-- The text of four bytes has their values between the slash and the colon. -/
theorem parseAddress_inet4 (hname : Plain name) (hne : bytes ≠ []) :
    parseAddress (name ++ '/' :: ['.'].intercalate (octets bytes) ++ ':' :: Nat.toDigits 10 port) =
      some ⟨name, byteValues bytes, [], .ofInt (port : ℕ), []⟩ :=
  parseAddress_append hname (mt List.map_eq_nil_iff.mp hne) map_parseInt_octets
    (parseInt_toDigits port.isLt)

/-- A text with no dot before the colon has one value. -/
theorem length_values_eq_one (rest : List Char) (hname : Plain name)
    (hs : ∀ c ∈ s, isSeparator c = false)
    (hf : parseAddress (name ++ '/' :: s ++ ':' :: rest) = some f) : f.values.length = 1 := by
  have hdots : ∀ c ∈ s, isSeparator c = true → c = '.' := by
    intro c hc hsep
    rw [hs c hc] at hsep
    exact absurd hsep (by decide)
  obtain ⟨hcolon, hslash⟩ := splitOn_host rest hname hdots
  obtain ⟨host, portText, addressText, hcolon', hslash', -, hvalues⟩ :=
    parseAddress_eq_some_iff.mp hf
  obtain ⟨rfl, -⟩ := List.cons.inj (hcolon.symm.trans hcolon')
  rw [hslash] at hslash'
  obtain ⟨-, haddress⟩ := List.cons.inj hslash'
  obtain ⟨rfl, -⟩ := List.cons.inj haddress
  rw [List.splitOn_eq_singleton (notMem_of_not_isSeparator hs rfl)] at hvalues
  have hlength := congrArg List.length hvalues
  simpa using hlength.symm

/-- What is read is what the fields of the text denote. -/
theorem readsBack_resolved_iff :
    ReadsBack (some (.resolved address port)) ↔
      ∃ f, parseAddress (Net.InetSocketAddress.resolved address port).toString = some f ∧
        f.Denotes address port := by
  simp only [ReadsBack, getAddressFromString_eq_ok_iff, ← denotes_iff]
  constructor
  · rintro ⟨address', port', ⟨f, hf, haddress⟩, hequals⟩
    exact ⟨f, hf, address', port', haddress, hequals⟩
  · rintro ⟨f, hf, address', port', haddress, hequals⟩
    exact ⟨address', port', ⟨f, hf, haddress⟩, hequals⟩

theorem not_readsBack_inet6 {hostName scope : Option (List Char)} {bytes : Bytes 16}
    (hname : Plain (hostName.getD [])) :
    ¬ ReadsBack (some (.resolved (.inet6 hostName bytes scope) port)) := by
  rw [readsBack_resolved_iff]
  rintro ⟨f, hf, -, address, haddress, -⟩
  obtain ⟨n, rest, -, hgroups⟩ := exists_group bytes.2
  have hlength : f.values.length = 1 := by
    refine length_values_eq_one (s := Nat.toDigits 16 n)
      (rest ++ scope.elim [] ('%' :: ·) ++ ':' :: Nat.toDigits 10 port) hname
      (not_isSeparator_of_mem_toDigits (by decide) (by decide)) ?_
    rw [← hf]
    simp [Net.InetSocketAddress.toString, InetAddress.toString, InetAddress.hostName,
      getHostAddress, hgroups]
  rw [InetAddress.getByAddress, dif_neg (by rw [List.length_map]; omega),
    dif_neg (by rw [List.length_map]; omega)] at haddress
  exact absurd haddress (by simp)

theorem readsBack_inet4 {hostName : Option (List Char)} {bytes : Bytes 4}
    (hname : Plain (hostName.getD [])) :
    ReadsBack (some (.resolved (.inet4 hostName bytes) port)) := by
  have hne : bytes.1 ≠ [] := List.ne_nil_of_length_pos (by rw [bytes.2]; decide)
  refine readsBack_resolved_iff.mpr ⟨_, parseAddress_inet4 hname hne, toInt_ofNat port.isLt,
    .inet4 none bytes, ?_, by simp [equals]⟩
  rw [map_byteValue_byteValues, InetAddress.getByAddress, dif_pos bytes.2]
  rfl

/-- An address that is read back: it is resolved, and it has four bytes if its host name is plain.
A host name with colons or slashes is taken for the beginning of the address, and then what comes
first in the text must happen to be the address. -/
def Readable : Option Net.InetSocketAddress → Prop
  | none => True
  | some (.unresolved _ _) => False
  | some (.resolved address port) =>
    (Plain (address.hostName.getD []) ∧ ∃ hostName bytes, address = .inet4 hostName bytes) ∨
      (¬ Plain (address.hostName.getD []) ∧
        ∃ f, HasFields (Net.InetSocketAddress.resolved address port).toString f ∧
          f.Denotes address port)

theorem not_readsBack_unresolved {hostname : List Char} :
    ¬ ReadsBack (some (.unresolved hostname port)) := by
  rintro ⟨address, port', -, address', heq, -⟩
  exact absurd heq (by simp)

/-- **The addresses that are read back** are the resolved ones of four bytes, apart from those whose
host names have colons or slashes. -/
theorem readsBack_iff (a : Option Net.InetSocketAddress) : ReadsBack a ↔ Readable a := by
  rcases a with _ | ⟨address, port⟩ | ⟨hostname, port⟩
  · exact iff_of_true rfl trivial
  · rw [Readable]
    by_cases hname : Plain (address.hostName.getD [])
    · rw [and_iff_right hname, or_iff_left fun h => h.1 hname]
      rcases address with ⟨hostName, bytes⟩ | ⟨hostName, bytes, scope⟩
      · exact iff_of_true (readsBack_inet4 hname) ⟨hostName, bytes, rfl⟩
      · refine iff_of_false (not_readsBack_inet6 hname) ?_
        rintro ⟨_, _, heq⟩
        exact absurd heq (by simp)
    · rw [and_iff_right hname, or_iff_right fun h => hname h.1]
      simp only [← parseAddress_eq_some_iff_hasFields]
      exact readsBack_resolved_iff
  · exact iff_of_false not_readsBack_unresolved id

/-- The local address of sixteen bytes is not read back. -/
theorem not_readsBack_loopback :
    ¬ ReadsBack (some (.resolved (.inet6 none ⟨List.replicate 15 0 ++ [1], rfl⟩ none) 8080)) :=
  not_readsBack_inet6 ⟨List.not_mem_nil, List.not_mem_nil⟩

/-! ### What is read -/

/-- A name, four octets and a port, with the given bytes and the given port. -/
def IsAddressText (s : List Char) (bytes : List UInt8) (port : Port) : Prop :=
  ∃ name quads portText, s = name ++ '/' :: ['.'].intercalate quads ++ ':' :: portText ∧
    '/' ∉ name ∧ s.count ':' = 1 ∧
      quads.map integer? = bytes.map (fun b => some (b.toNat : ℤ)) ∧
        integer? portText = some ((port : ℕ) : ℤ)

/-- What is read as an address of four bytes is the text of this address. -/
def AcceptsOnlyAddresses (s : List Char) : Prop :=
  ∀ hostName bytes port,
    getAddressFromString (some s) = .ok (some (.resolved (.inet4 hostName bytes) port)) →
      IsAddressText s bytes.1 port

/-- The fields make an address of four bytes. -/
def AddressFields.IsInet4 (f : AddressFields) : Prop :=
  (0 ≤ f.port.toInt ∧ f.port.toInt < 65536) ∧
    (f.values.length = 4 ∨
      f.values.length = 16 ∧ isIPv4MappedAddress (f.values.map byteValue) = true)

/-- There are no fields that are not looked at, and the values are four octets. -/
def AddressFields.Exact (f : AddressFields) : Prop :=
  f.afterPort = [] ∧ f.afterAddress = [] ∧ f.values.length = 4 ∧
    ∀ v ∈ f.values, 0 ≤ v.toInt ∧ v.toInt ≤ 255

/-- The bytes that make an address of four. -/
theorem getByAddress_eq_inet4_iff (hostName : Option (List Char)) (bytes : List UInt8) :
    (∃ hostName' bytes', InetAddress.getByAddress hostName bytes =
      some (.inet4 hostName' bytes')) ↔
        bytes.length = 4 ∨ bytes.length = 16 ∧ isIPv4MappedAddress bytes = true := by
  rw [InetAddress.getByAddress]
  split
  · next h => exact iff_of_true ⟨_, _, rfl⟩ (.inl h)
  · next h4 =>
    split
    · next h16 =>
      split
      · next hmapped => exact iff_of_true ⟨_, _, rfl⟩ (.inr ⟨h16, hmapped⟩)
      · next hmapped => simp [h4, hmapped]
    · next h16 => simp [h4, h16]

theorem exists_getByAddress (name : List Char) (bytes : List UInt8) :
    ∃ hostName, getByAddress name bytes = InetAddress.getByAddress hostName bytes := by
  rw [getByAddress]
  split
  · exact ⟨none, rfl⟩
  · exact ⟨some name, rfl⟩

theorem exists_inet4_iff :
    (∃ hostName bytes port, f.address = some (.resolved (.inet4 hostName bytes) port)) ↔
      f.IsInet4 := by
  obtain ⟨host, hhost⟩ := exists_getByAddress f.name (f.values.map byteValue)
  have hinet4 := getByAddress_eq_inet4_iff host (f.values.map byteValue)
  rw [List.length_map] at hinet4
  rw [AddressFields.address, hhost, AddressFields.IsInet4, ← hinet4]
  constructor
  · rintro ⟨hostName, bytes, port, h⟩
    obtain ⟨addr, haddr, haddress⟩ := Option.bind_eq_some_iff.mp h
    obtain ⟨port', heq, hport⟩ := ofPort_eq_some_iff.mp haddress
    obtain ⟨rfl, rfl⟩ := Net.InetSocketAddress.resolved.inj heq
    have := port.isLt
    exact ⟨⟨by omega, by omega⟩, hostName, bytes, haddr⟩
  · rintro ⟨⟨hnonneg, hlt⟩, hostName, bytes, haddr⟩
    refine ⟨hostName, bytes, ⟨f.port.toInt.toNat, by omega⟩, ?_⟩
    rw [haddr, Option.bind_some, ofPort_eq_some_iff]
    exact ⟨_, rfl, (Int.toNat_of_nonneg hnonneg).symm⟩

/-- The bytes of an address that is made of four values. -/
theorem address_eq_inet4 {hostName : Option (List Char)} {bytes : Bytes 4}
    (h : f.address = some (.resolved (.inet4 hostName bytes) port))
    (hlength : f.values.length = 4) :
    f.values.map byteValue = bytes.1 ∧ f.port.toInt = (port : ℕ) := by
  obtain ⟨addr, haddr, haddress⟩ := Option.bind_eq_some_iff.mp h
  obtain ⟨port', heq, hport⟩ := ofPort_eq_some_iff.mp haddress
  obtain ⟨rfl, rfl⟩ := Net.InetSocketAddress.resolved.inj heq
  refine ⟨?_, hport⟩
  obtain ⟨host, hhost⟩ := exists_getByAddress f.name (f.values.map byteValue)
  rw [hhost, InetAddress.getByAddress, dif_pos (by rw [List.length_map, hlength])] at haddr
  obtain ⟨-, hbytes⟩ := InetAddress.inet4.inj (Option.some.inj haddr)
  exact congrArg Subtype.val hbytes

/-! ### Texts of addresses -/

/-- Numerals for bytes are parsed as the values of these bytes. -/
theorem map_parseInt_of_map_integer? {quads : List (List Char)}
    (h : quads.map integer? = bytes.map fun b => some (b.toNat : ℤ)) :
    quads.map Integer.parseInt = (byteValues bytes).map some := by
  induction quads generalizing bytes with
  | nil =>
    have hnil : bytes = [] := by simpa using h.symm
    rw [hnil]
    rfl
  | cons quad quads ih =>
    cases bytes with
    | nil => exact absurd h (by simp)
    | cons b bytes =>
      obtain ⟨hquad, hquads⟩ := List.cons.inj h
      have := b.toNat_lt
      have hparse : Integer.parseInt quad = some (.ofInt b.toNat) := by
        rw [Integer.parseInt_eq_some_iff, hquad, toInt_ofNat (by omega)]
      rw [List.map_cons, ih hquads, hparse]
      rfl

/-- Octets are the numerals of their bytes. -/
theorem map_integer?_of_map_parseInt {quads : List (List Char)} {values : List Int32}
    (h : quads.map Integer.parseInt = values.map some)
    (hoctets : ∀ v ∈ values, 0 ≤ v.toInt ∧ v.toInt ≤ 255) :
    quads.map integer? = (values.map byteValue).map fun b => some (b.toNat : ℤ) := by
  induction quads generalizing values with
  | nil =>
    have hnil : values = [] := by simpa using h.symm
    rw [hnil]
    rfl
  | cons quad quads ih =>
    cases values with
    | nil => exact absurd h (by simp)
    | cons v values =>
      obtain ⟨hquad, hquads⟩ := List.cons.inj h
      obtain ⟨hv, hoctets⟩ := List.forall_mem_cons.mp hoctets
      have hbyte : ((byteValue v).toNat : ℤ) = v.toInt := by
        rw [byteValue, UInt8.toNat_ofNat']
        omega
      rw [List.map_cons, ih hquads hoctets, Integer.parseInt_eq_some_iff.mp hquad, List.map_cons,
        List.map_cons, hbyte]

/-- The text of an address has no fields but those of the address. -/
theorem exact_of_isAddressText (h : IsAddressText s bytes port) (hlength : bytes.length = 4)
    (hf : parseAddress s = some f) : f.Exact := by
  obtain ⟨name, quads, portText, rfl, hname, hcount, hquads, hport⟩ := h
  have hne : quads ≠ [] := by
    rintro rfl
    have hnil := congrArg List.length hquads
    rw [List.map_nil, List.length_nil, List.length_map] at hnil
    omega
  have hcolon : ':' ∉ name := by
    rw [List.count_append, List.count_cons_self, List.count_append] at hcount
    exact List.count_eq_zero.mp (by omega)
  have hportText : Integer.parseInt portText = some (.ofInt (port : ℕ)) := by
    rw [Integer.parseInt_eq_some_iff, toInt_ofNat port.isLt, hport]
  have hparse := parseAddress_append ⟨hcolon, hname⟩ hne (map_parseInt_of_map_integer? hquads)
    hportText
  obtain rfl := Option.some.inj (hparse.symm.trans hf)
  refine ⟨rfl, rfl, by rw [byteValues, List.length_map, hlength], fun v hv => ?_⟩
  exact octet_of_mem_byteValues v hv

/-- Fields without any that are not looked at are those of the text of an address. -/
theorem isAddressText_of_exact (hf : parseAddress s = some f) (hexact : f.Exact)
    (hbytes : f.values.map byteValue = bytes) (hport : f.port.toInt = (port : ℕ)) :
    IsAddressText s bytes port := by
  obtain ⟨hafterPort, hafterAddress, -, hoctets⟩ := hexact
  obtain ⟨host, portText, address, hcolon, hslash, hportText, hvalues⟩ :=
    parseAddress_eq_some_iff.mp hf
  rw [hafterPort] at hcolon
  rw [hafterAddress] at hslash
  have hs : s = host ++ ':' :: portText := by
    have hpieces : [':'].intercalate (s.splitOn ':') = s := List.intercalate_splitOn ':'
    rw [← hpieces, hcolon]
    simp
  have hhost : host = f.name ++ '/' :: address := by
    have hpieces : ['/'].intercalate (host.splitOn '/') = host := List.intercalate_splitOn '/'
    rw [← hpieces, hslash]
    simp
  have hnotColon : ∀ piece ∈ s.splitOn ':', ':' ∉ piece := notMem_of_mem_splitOn
  rw [hcolon, List.forall_mem_cons, List.forall_mem_cons] at hnotColon
  have hnotSlash : ∀ piece ∈ host.splitOn '/', '/' ∉ piece := notMem_of_mem_splitOn
  rw [hslash, List.forall_mem_cons] at hnotSlash
  refine ⟨f.name, address.splitOn '.', portText, ?_, hnotSlash.1, ?_, ?_, ?_⟩
  · rw [List.intercalate_splitOn, ← hhost, hs]
  · rw [hs, List.count_append, List.count_cons_self, List.count_eq_zero.mpr hnotColon.1,
      List.count_eq_zero.mpr hnotColon.2.1]
  · rw [← hbytes]
    exact map_integer?_of_map_parseInt hvalues hoctets
  · rw [Integer.parseInt_eq_some_iff.mp hportText, hport]

/-- **The texts that are not misread** are those that are not read as an address of four bytes, and
those that have no fields but four octets and a port. -/
theorem acceptsOnlyAddresses_iff :
    AcceptsOnlyAddresses s ↔ ∀ f, HasFields s f → f.IsInet4 → f.Exact := by
  simp only [← parseAddress_eq_some_iff_hasFields]
  constructor
  · intro h f hf hinet4
    obtain ⟨hostName, bytes, port, haddress⟩ := exists_inet4_iff.mpr hinet4
    have htext := h hostName bytes port (getAddressFromString_eq_ok_iff.mpr ⟨f, hf, haddress⟩)
    exact exact_of_isAddressText htext bytes.2 hf
  · intro h hostName bytes port hread
    obtain ⟨f, hf, haddress⟩ := getAddressFromString_eq_ok_iff.mp hread
    have hexact := h f hf (exists_inet4_iff.mp ⟨hostName, bytes, port, haddress⟩)
    obtain ⟨hbytes, hport⟩ := address_eq_inet4 haddress hexact.2.2.1
    exact isAddressText_of_exact hf hexact hbytes hport

/-- A number that is too large for an octet is read as another one. -/
theorem not_acceptsOnlyAddresses_wrapped : ¬ AcceptsOnlyAddresses "/257.2.3.4:80".toList := by
  intro h
  have hparse : parseAddress "/257.2.3.4:80".toList = some ⟨[], [257, 2, 3, 4], [], 80, []⟩ := by
    decide
  have hread : getAddressFromString (some "/257.2.3.4:80".toList) =
      .ok (some (.resolved (.inet4 none ⟨[1, 2, 3, 4], rfl⟩) 80)) :=
    getAddressFromString_eq_ok_iff.mpr ⟨_, hparse, by decide⟩
  have hexact := exact_of_isAddressText (h _ _ _ hread) rfl hparse
  exact absurd (hexact.2.2.2 257 (by decide)) (by decide)

end NetworkUtil

end Shabdiz
