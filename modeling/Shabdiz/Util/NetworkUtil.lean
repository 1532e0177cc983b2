import Shabdiz.Text.Split
import Shabdiz.Util.InetAddress
import Shabdiz.Util.Loops

/-!
# Reading addresses

`NetworkUtil` reads addresses in two formats. `extractInetSocketAddress` reads a host and a port
with a colon between them, and replaces what is missing; the host is looked up.
`getAddressFromString` reads what `InetSocketAddress.toString` writes, by splitting it at the
colons, the slashes and the dots, and takes the fields that it needs by their positions.

## Main definitions

* `NetworkUtil.extractInetSocketAddress`, `NetworkUtil.getAddressFromString` — the code
* `NetworkUtil.AddressFields`, `NetworkUtil.parseAddress` — the fields of an address

## Main results

* `NetworkUtil.extractHostName_append`, `NetworkUtil.extractPortNumber_append` — a host and a port
* `NetworkUtil.getAddressFromString_eq_ok_iff` — the address is the one of the fields
* `NetworkUtil.parseAddress_eq_some_iff` — where the fields are in the text
-/

namespace Shabdiz

open Net

/-- What the addresses of hosts are looked up in; `none` stands for an `UnknownHostException`. -/
structure Network where
  getByName : List Char → Option InetAddress
  getLocalIPv4Address : Option InetAddress

namespace NetworkUtil

/-! ### A host and a port -/

/-- The port of a text that has none. -/
def undefinedPort : Int32 := -1

/-- The address of a host and a port; `none` where the source throws. -/
def getInetSocketAddress (network : Network) (hostName : List Char) (port : Int32) :
    Option Net.InetSocketAddress :=
  (network.getByName hostName).bind (Net.InetSocketAddress.ofPort · port)

/-- The address of this host and a port; `none` where the source throws. -/
def getLocalIPv4InetSocketAddress (network : Network) (port : Int32) :
    Option Net.InetSocketAddress :=
  network.getLocalIPv4Address.bind (Net.InetSocketAddress.ofPort · port)

/-- What follows the first colon, or the undefined port if nothing does. -/
def extractPortNumberAsString : Option (List Char) → List Char
  | none => integerText undefinedPort.toInt
  | some hostAndPort =>
    match hostAndPort.idxOf? ':' with
    | none => integerText undefinedPort.toInt
    | some separatorIndex =>
      if separatorIndex = hostAndPort.length - 1 then integerText undefinedPort.toInt
      else hostAndPort.drop (separatorIndex + 1)

/-- The port of a text, undefined where it is no number. -/
def extractPortNumber (hostAndPort : Option (List Char)) : Int32 :=
  (Integer.parseInt (extractPortNumberAsString hostAndPort)).getD undefinedPort

/-- What stands before the first colon. -/
def extractHostName : Option (List Char) → List Char
  | none => []
  | some hostAndPort =>
    match hostAndPort.idxOf? ':' with
    | none => hostAndPort
    | some separatorIndex => hostAndPort.take separatorIndex

/-- `none` stands for an exception. -/
def extractInetSocketAddress (network : Network) (hostAndPort : Option (List Char))
    (defaultPort : Int32) : Option Net.InetSocketAddress :=
  let hostName := extractHostName hostAndPort
  let port := extractPortNumber hostAndPort
  if hostName = [] then
    if port = undefinedPort then getLocalIPv4InetSocketAddress network defaultPort
    else getLocalIPv4InetSocketAddress network port
  else if port = undefinedPort then getInetSocketAddress network hostName defaultPort
  else getInetSocketAddress network hostName port

/-- The host, a colon, and the port. -/
def formatHostAddress (host : List Char) (port : Int32) : List Char :=
  host ++ ':' :: integerText port.toInt

/-- `formatHostAddress`, for an address; `none` stands for a `NullPointerException`. -/
def formatSocketAddress : Net.InetSocketAddress → Option (List Char)
  | .resolved address port => some (formatHostAddress address.getHostAddress (.ofInt (port : ℕ)))
  | .unresolved _ _ => none

/-! ### The text of an address -/

/-- What is thrown for a text that is not an address. -/
inductive AddressException where
  | arrayIndexOutOfBounds
  | numberFormat
  | unknownHost
  | illegalArgument
deriving DecidableEq

/-- `Integer.byteValue`, as a number without a sign. -/
def byteValue (i : Int32) : UInt8 := .ofNat (i.toInt % 256).toNat

/-- The bytes of what follows the first slash. -/
def getBytes (host : List Char) : Except AddressException (List UInt8) :=
  match host.splitOn '/' with
  | _ :: address :: _ =>
    match (address.splitOn '.').mapM Integer.parseInt with
    | some values => .ok (values.map byteValue)
    | none => .error .numberFormat
  | _ => .error .arrayIndexOutOfBounds

/-- What stands before the first slash. -/
def getName (host : List Char) : List Char := (host.splitOn '/').headD []

/-- The address with a name, if the name is not empty. -/
def getByAddress (name : List Char) (bytes : List UInt8) : Option InetAddress :=
  if name = [] then InetAddress.getByAddress none bytes
  else InetAddress.getByAddress (some name) bytes

/-- The address of a text that `toString` made. -/
def getAddressFromString :
    Option (List Char) → Except AddressException (Option Net.InetSocketAddress)
  | none => .ok none
  | some addressInString =>
    if addressInString = "null".toList then .ok none
    else match addressInString.splitOn ':' with
      | host :: portText :: _ => do
        let port ← (Integer.parseInt portText).elim (.error .numberFormat) .ok
        let name := getName host
        let addressBytes ← getBytes host
        let addr ← (getByAddress name addressBytes).elim (.error .unknownHost) .ok
        let address ← (Net.InetSocketAddress.ofPort addr port).elim (.error .illegalArgument) .ok
        pure (some address)
      | _ => .error .arrayIndexOutOfBounds

/-! ### Ports -/

section Ports

variable {a : Net.InetSocketAddress} {address : InetAddress} {port : Port} {host rest : List Char}
  {n : ℕ}

theorem toInt_ofNat (h : n < 65536) : (Int32.ofInt n).toInt = n :=
  Int32.toInt_ofInt_of_le (by omega) (by omega)

theorem parseInt_toDigits (h : n < 65536) :
    Integer.parseInt (Nat.toDigits 10 n) = some (.ofInt n) := by
  rw [Integer.parseInt_eq_some_iff, toInt_ofNat h]
  exact integer?_of_natural? natural?_toDigits

/-- A number has no separators in it. -/
theorem not_isSeparator_of_parseInt {i : Int32} (h : Integer.parseInt rest = some i) :
    ∀ c ∈ rest, InetAddress.isSeparator c = false := by
  intro c hc
  have hnumeric := isNumeric_of_integer? (Integer.parseInt_eq_some_iff.mp h) c hc
  rw [Bool.eq_false_iff, InetAddress.isSeparator, ne_eq, Bool.or_eq_true, Bool.or_eq_true,
    decide_eq_true_eq, decide_eq_true_eq, decide_eq_true_eq]
  rintro ((rfl | rfl) | rfl) <;> exact absurd hnumeric (by decide)

theorem ofPort_eq_some_iff {p : Int32} :
    Net.InetSocketAddress.ofPort address p = some a ↔
      ∃ port : Port, a = .resolved address port ∧ p.toInt = (port : ℕ) := by
  rw [Net.InetSocketAddress.ofPort]
  constructor
  · intro h
    obtain ⟨hrange, h⟩ := Option.dite_none_right_eq_some.mp h
    exact ⟨⟨p.toInt.toNat, by omega⟩, (Option.some.inj h).symm, (Int.toNat_of_nonneg hrange.1).symm⟩
  · rintro ⟨port, rfl, hp⟩
    have hport := port.isLt
    have hrange : 0 ≤ p.toInt ∧ p.toInt < 65536 := by omega
    rw [dif_pos hrange]
    congr 2
    exact Fin.ext (show p.toInt.toNat = port by omega)

/-- The host is what comes before the first colon. -/
theorem extractHostName_append (h : ':' ∉ host) :
    extractHostName (some (host ++ ':' :: rest)) = host := by
  simp only [extractHostName, idxOf?_append_cons h, List.take_left']

/-- The port is what comes after the first colon. -/
theorem extractPortNumber_append (h : ':' ∉ host) (hrest : rest ≠ []) :
    extractPortNumber (some (host ++ ':' :: rest)) =
      (Integer.parseInt rest).getD undefinedPort := by
  have hpos := List.length_pos_of_ne_nil hrest
  have hlast : host.length ≠ (host ++ ':' :: rest).length - 1 := by
    rw [List.length_append, List.length_cons]
    omega
  have hdrop : (host ++ ':' :: rest).drop (host.length + 1) = rest := by
    rw [List.drop_append, List.drop_eq_nil_of_le (Nat.le_succ _), List.nil_append,
      Nat.add_sub_cancel_left, List.drop_succ_cons, List.drop_zero]
  simp only [extractPortNumber, extractPortNumberAsString, idxOf?_append_cons h, if_neg hlast,
    hdrop]

end Ports

/-! ### Bytes -/

section Bytes

variable {bytes : List UInt8}

/-- The values of bytes without a sign. -/
def byteValues (bytes : List UInt8) : List Int32 := bytes.map fun b => .ofInt b.toNat

theorem map_byteValue_byteValues : (byteValues bytes).map byteValue = bytes := by
  rw [byteValues, List.map_map]
  refine List.map_id'' (fun b => ?_) bytes
  have := b.toNat_lt
  rw [Function.comp_apply, byteValue, toInt_ofNat (by omega),
    show ((b.toNat : ℤ) % 256).toNat = b.toNat by omega, UInt8.ofNat_toNat]

theorem map_parseInt_octets :
    (InetAddress.octets bytes).map Integer.parseInt = (byteValues bytes).map some := by
  rw [InetAddress.octets, byteValues, List.map_map, List.map_map]
  refine List.map_congr_left fun b _ => ?_
  have := b.toNat_lt
  exact parseInt_toDigits (by omega)

theorem octet_of_mem_byteValues : ∀ v ∈ byteValues bytes, 0 ≤ v.toInt ∧ v.toInt ≤ 255 := by
  intro v hv
  obtain ⟨b, -, rfl⟩ := List.mem_map.mp hv
  have := b.toNat_lt
  rw [toInt_ofNat (by omega)]
  omega

end Bytes

/-! ### Fields -/

/-- The fields of the text of an address, with the ones that are not looked at. -/
structure AddressFields where
  name : List Char
  values : List Int32
  afterAddress : List (List Char)
  port : Int32
  afterPort : List (List Char)
deriving DecidableEq

/-- The fields of a text, if it has enough of them. -/
def parseAddress (s : List Char) : Option AddressFields :=
  match s.splitOn ':' with
  | host :: portText :: afterPort =>
    match host.splitOn '/' with
    | name :: address :: afterAddress =>
      (Integer.parseInt portText).bind fun port =>
        ((address.splitOn '.').mapM Integer.parseInt).map fun values =>
          ⟨name, values, afterAddress, port, afterPort⟩
    | _ => none
  | _ => none

/-- The address that is made of the fields. -/
def AddressFields.address (f : AddressFields) : Option Net.InetSocketAddress :=
  (getByAddress f.name (f.values.map byteValue)).bind (Net.InetSocketAddress.ofPort · f.port)

variable {s : List Char} {f : AddressFields} {a : Net.InetSocketAddress}

theorem mapM_eq_some_iff {α β : Type} {g : α → Option β} {l : List α} {r : List β} :
    l.mapM g = some r ↔ l.map g = r.map some := by
  induction l generalizing r with
  | nil => cases r <;> simp
  | cons x l ih =>
    cases r with
    | nil => simp [Option.bind_eq_some_iff]
    | cons y r =>
      simp only [List.mapM_cons, Option.bind_eq_bind, Option.bind_eq_some_iff, Option.pure_def,
        Option.some.injEq, List.cons.injEq, List.map_cons, ih]
      constructor
      · rintro ⟨_, hx, _, hl, rfl, rfl⟩
        exact ⟨hx, hl⟩
      · rintro ⟨hx, hl⟩
        exact ⟨y, hx, r, hl, rfl, rfl⟩

/-- **The fields of a text**, by their positions between the delimiters. -/
theorem parseAddress_eq_some_iff :
    parseAddress s = some f ↔ ∃ host portText address,
      s.splitOn ':' = host :: portText :: f.afterPort ∧
        host.splitOn '/' = f.name :: address :: f.afterAddress ∧
          Integer.parseInt portText = some f.port ∧
            (address.splitOn '.').map Integer.parseInt = f.values.map some := by
  constructor
  · intro h
    rw [parseAddress] at h
    split at h
    · next host portText afterPort hcolon =>
      split at h
      · next name address afterAddress hslash =>
        obtain ⟨port, hport, h⟩ := Option.bind_eq_some_iff.mp h
        obtain ⟨values, hvalues, rfl⟩ := Option.map_eq_some_iff.mp h
        exact ⟨host, portText, address, hcolon, hslash, hport, mapM_eq_some_iff.mp hvalues⟩
      · exact absurd h (by simp)
    · exact absurd h (by simp)
  · rintro ⟨host, portText, address, hcolon, hslash, hport, hvalues⟩
    rw [parseAddress, hcolon]
    simp only [hslash, hport, mapM_eq_some_iff.mpr hvalues, Option.bind_some, Option.map_some]

theorem getBytes_eq_ok_iff {host : List Char} {bytes : List UInt8} :
    getBytes host = .ok bytes ↔ ∃ name address afterAddress, ∃ values : List Int32,
      host.splitOn '/' = name :: address :: afterAddress ∧
        (address.splitOn '.').map Integer.parseInt = values.map some ∧
          values.map byteValue = bytes := by
  constructor
  · intro h
    rw [getBytes] at h
    split at h
    · next name address afterAddress hslash =>
      split at h
      · next values hvalues =>
        exact ⟨name, address, afterAddress, values, hslash, mapM_eq_some_iff.mp hvalues,
          Except.ok.inj h⟩
      · exact absurd h (by simp)
    · exact absurd h (by simp)
  · rintro ⟨name, address, afterAddress, values, hslash, hvalues, rfl⟩
    rw [getBytes, hslash]
    simp only [mapM_eq_some_iff.mpr hvalues]

theorem elim_bind_eq_ok_iff {α β ε : Type} {o : Option α} {e : ε} {k : α → Except ε β} {b : β} :
    (o.elim (.error e) .ok >>= k) = .ok b ↔ ∃ x, o = some x ∧ k x = .ok b := by
  cases o with
  | none => simp [bind, Except.bind]
  | some x => simp [bind, Except.bind]

/-- **The address that is read** is that of the fields. -/
theorem getAddressFromString_eq_ok_iff :
    getAddressFromString (some s) = .ok (some a) ↔
      ∃ f, parseAddress s = some f ∧ f.address = some a := by
  constructor
  · intro h
    rw [getAddressFromString] at h
    split at h
    · exact absurd h (by simp)
    · split at h
      · next host portText afterPort hcolon =>
        obtain ⟨port, hport, h⟩ := elim_bind_eq_ok_iff.mp h
        obtain ⟨bytes, hbytes, h⟩ := bind_eq_ok_iff.mp h
        obtain ⟨addr, haddr, h⟩ := elim_bind_eq_ok_iff.mp h
        obtain ⟨address, haddress, h⟩ := elim_bind_eq_ok_iff.mp h
        obtain rfl := Option.some.inj (Except.ok.inj h)
        obtain ⟨name, addressText, afterAddress, values, hslash, hvalues, rfl⟩ :=
          getBytes_eq_ok_iff.mp hbytes
        have hname : getName host = name := by rw [getName, hslash, List.headD_cons]
        refine ⟨⟨name, values, afterAddress, port, afterPort⟩, ?_, ?_⟩
        · exact parseAddress_eq_some_iff.mpr ⟨host, portText, addressText, hcolon, hslash, hport,
            hvalues⟩
        · rw [hname] at haddr
          rw [AddressFields.address, haddr, Option.bind_some, haddress]
      · exact absurd h (by simp)
  · rintro ⟨f, hf, ha⟩
    obtain ⟨host, portText, addressText, hcolon, hslash, hport, hvalues⟩ :=
      parseAddress_eq_some_iff.mp hf
    obtain ⟨addr, haddr, haddress⟩ := Option.bind_eq_some_iff.mp ha
    have hnull : s ≠ "null".toList := by
      rintro rfl
      exact absurd (congrArg List.length hcolon) (by simp [List.splitOn_eq_singleton])
    have hname : getName host = f.name := by rw [getName, hslash, List.headD_cons]
    have hbytes : getBytes host = .ok (f.values.map byteValue) :=
      getBytes_eq_ok_iff.mpr ⟨_, _, _, _, hslash, hvalues, rfl⟩
    rw [getAddressFromString, if_neg hnull, hcolon]
    refine elim_bind_eq_ok_iff.mpr ⟨_, hport, bind_eq_ok_iff.mpr ⟨_, hbytes, ?_⟩⟩
    refine elim_bind_eq_ok_iff.mpr ⟨addr, by rw [hname, haddr], ?_⟩
    exact elim_bind_eq_ok_iff.mpr ⟨_, haddress, rfl⟩

end NetworkUtil

end Shabdiz
