import Shabdiz.Util.NetworkUtil

/-!
# The command line of a worker

A launcher hands its callback address and the port of the worker over in the arguments of a process.
The address is written as bytes, a colon and the port, and read up to the first colon. An address of
sixteen bytes has colons of its own: the worker looks its first group up as the name of a host, and,
since what follows is no number, takes the default port.

## Main definitions

* `CommandLineArgs.parseCommandLineArgs`, `WorkerMain.constructCommandLineArguments`,
  `WorkerMain.configureLauncherAddress`, `WorkerMain.configureLocalAddress` — the code
* `WorkerMain.ParsesLiterals` — dotted addresses are not looked up but parsed
* `WorkerMain.RoundTrips` — a worker is configured with what the launcher handed over

## Main results

* `WorkerMain.roundTrips_iff` — the addresses that are handed over
-/

namespace Shabdiz

open Net

/-! ### The code -/

namespace CommandLineArgs

/-- The map from flags to values. The first two characters of an argument are its flag; an argument
replaces an earlier one with the same flag. -/
def parseCommandLineArgs (args : List (List Char)) : List Char → Option (List Char) :=
  args.foldl (fun map element =>
    if 1 < element.length then
      fun flag => if flag = element.take 2 then some (element.drop 2) else map flag
    else map) fun _ => none

end CommandLineArgs

namespace WorkerMain

open CommandLineArgs NetworkUtil

/-- The switch of the local address. -/
def localAddressKey : List Char := ['-', 's']

/-- The switch of the address of the callback. -/
def callbackAddressKey : List Char := ['-', 'c']

/-- `none` stands for a `NullPointerException`. -/
def constructCommandLineArguments (callbackAddress : Net.InetSocketAddress) (port : Option Int32) :
    Option (List (List Char)) :=
  (formatSocketAddress callbackAddress).map fun address =>
    (callbackAddressKey ++ address) ::
      (port.map fun p => localAddressKey ++ formatHostAddress [] p).toList

/-- `none` stands for an exception. A missing parameter is reported, and read as an empty one. -/
def configureLauncherAddress (network : Network) (arguments : List Char → Option (List Char)) :
    Option Net.InetSocketAddress :=
  extractInetSocketAddress network (arguments callbackAddressKey) 0

/-- The local address that the worker listens at; its port is 0 without the switch. -/
def configureLocalAddress (network : Network) (arguments : List Char → Option (List Char)) :
    Option Net.InetSocketAddress :=
  let localAddressParameter := arguments localAddressKey
  let port := if localAddressParameter.isSome then extractPortNumber localAddressParameter else 0
  getLocalIPv4InetSocketAddress network port

/-! ### Handing over -/

/-- Four bytes with dots between them are parsed as these bytes. -/
def ParsesLiterals (network : Network) : Prop :=
  ∀ hostName bytes, ∃ hostName',
    network.getByName (InetAddress.inet4 hostName bytes).getHostAddress =
      some (.inet4 hostName' bytes)

/-- From the arguments for a callback address and a local port, a worker is configured with a
callback address with these bytes and this port, and with the local port on whatever local address
there is. No local port is the port 0. -/
def RoundTrips (network : Network) (address : InetAddress) (port : Port)
    (localPort : Option Port) : Prop :=
  ∃ args, constructCommandLineArguments (.resolved address port)
      (localPort.map fun p => .ofInt (p : ℕ)) = some args ∧
    (∃ launcher, configureLauncherAddress network (parseCommandLineArgs args) =
      some (.resolved launcher port) ∧ launcher.equals address = true) ∧
    ∀ localAddress, network.getLocalIPv4Address = some localAddress →
      configureLocalAddress network (parseCommandLineArgs args) =
        some (.resolved localAddress (localPort.getD 0))

variable {network : Network} {address : InetAddress} {port : Port} {localPort : Option Port}
  {callbackText host rest : List Char}

theorem formatHostAddress_ofInt (host : List Char) (port : Port) :
    formatHostAddress host (.ofInt (port : ℕ)) = host ++ ':' :: Nat.toDigits 10 port := by
  rw [formatHostAddress, toInt_ofNat port.isLt, integerText, if_neg (by omega)]
  rfl

/-- The arguments of a worker. -/
def workerArguments (callbackText : List Char) (localPort : Option Port) : List (List Char) :=
  (callbackAddressKey ++ callbackText) ::
    (localPort.map fun p : Port => localAddressKey ++ (':' :: Nat.toDigits 10 p)).toList

theorem constructCommandLineArguments_eq :
    constructCommandLineArguments (.resolved address port)
        (localPort.map fun p => .ofInt (p : ℕ)) =
      some (workerArguments (address.getHostAddress ++ ':' :: Nat.toDigits 10 port) localPort) := by
  rw [constructCommandLineArguments, formatSocketAddress, formatHostAddress_ofInt]
  cases localPort with
  | none => rfl
  | some p => simp [workerArguments, formatHostAddress_ofInt]

theorem parseCommandLineArgs_callback :
    parseCommandLineArgs (workerArguments callbackText localPort) callbackAddressKey =
      some callbackText := by
  cases localPort <;>
    simp [parseCommandLineArgs, workerArguments, callbackAddressKey, localAddressKey]

theorem parseCommandLineArgs_local :
    parseCommandLineArgs (workerArguments callbackText localPort) localAddressKey =
      localPort.map fun p : Port => ':' :: Nat.toDigits 10 p := by
  cases localPort <;>
    simp [parseCommandLineArgs, workerArguments, callbackAddressKey, localAddressKey]

theorem ofPort_ofInt (address : InetAddress) (port : Port) :
    Net.InetSocketAddress.ofPort address (.ofInt (port : ℕ)) = some (.resolved address port) :=
  ofPort_eq_some_iff.mpr ⟨port, rfl, toInt_ofNat port.isLt⟩

/-- **The local port** is always handed over. -/
theorem configureLocalAddress_eq {localAddress : InetAddress}
    (h : network.getLocalIPv4Address = some localAddress) :
    configureLocalAddress network (parseCommandLineArgs (workerArguments callbackText localPort)) =
      some (.resolved localAddress (localPort.getD 0)) := by
  simp only [configureLocalAddress, parseCommandLineArgs_local, getLocalIPv4InetSocketAddress, h,
    Option.bind_some]
  cases localPort with
  | none => rfl
  | some p =>
    have hport : extractPortNumber (some ([] ++ ':' :: Nat.toDigits 10 (p : ℕ))) =
        .ofInt (p : ℕ) := by
      rw [extractPortNumber_append List.not_mem_nil Nat.toDigits_ne_nil, parseInt_toDigits p.isLt,
        Option.getD_some]
    rw [List.nil_append] at hport
    simp only [Option.map_some, Option.isSome_some, if_true, hport, Option.getD_some]
    exact ofPort_ofInt localAddress p

/-- What comes before the first colon is looked up, and what comes after it is the port, or the
port is 0 if that is no number. -/
theorem configureLauncherAddress_eq (hhost : host ≠ []) (hcolon : ':' ∉ host) (hrest : rest ≠ []) :
    configureLauncherAddress network
        (parseCommandLineArgs (workerArguments (host ++ ':' :: rest) localPort)) =
      (network.getByName host).bind fun read => Net.InetSocketAddress.ofPort read
        (if (Integer.parseInt rest).getD undefinedPort = undefinedPort then 0
          else (Integer.parseInt rest).getD undefinedPort) := by
  rw [configureLauncherAddress, parseCommandLineArgs_callback, extractInetSocketAddress]
  simp only [extractHostName_append hcolon, extractPortNumber_append hcolon hrest, if_neg hhost]
  split <;> rfl

theorem ofInt_ne_undefinedPort (port : Port) : Int32.ofInt (port : ℕ) ≠ undefinedPort := by
  intro heq
  have htoInt := congrArg Int32.toInt heq
  rw [toInt_ofNat port.isLt, show undefinedPort.toInt = -1 from rfl] at htoInt
  omega

/-- What has a colon in it is no number. -/
theorem parseInt_eq_none (h : ':' ∈ rest) : Integer.parseInt rest = none := by
  rw [Option.eq_none_iff_forall_ne_some]
  intro i hi
  exact absurd (not_isSeparator_of_parseInt hi ':' h) (by decide)

/-- From the text of sixteen bytes the first group is looked up, and there is no port. -/
theorem configureLauncherAddress_inet6 (network : Network) (hostName scope : Option (List Char))
    (bytes : Bytes 16) (port : Port) (localPort : Option Port) :
    ∃ group, (InetAddress.hexGroups bytes.1).head? = some group ∧
      configureLauncherAddress network (parseCommandLineArgs (workerArguments
          ((InetAddress.inet6 hostName bytes scope).getHostAddress ++ ':' :: Nat.toDigits 10 port)
            localPort)) =
        (network.getByName group).bind fun read => some (.resolved read 0) := by
  obtain ⟨n, rest, hgroup, htext⟩ := InetAddress.exists_group bytes.2
  have hcolon : ':' ∉ Nat.toDigits 16 n :=
    InetAddress.notMem_of_not_isSeparator
      (InetAddress.not_isSeparator_of_mem_toDigits (by decide) (by decide)) rfl
  have happend : (InetAddress.inet6 hostName bytes scope).getHostAddress ++
      ':' :: Nat.toDigits 10 (port : ℕ) =
        Nat.toDigits 16 n ++ ':' :: (rest ++ scope.elim [] ('%' :: ·) ++
          ':' :: Nat.toDigits 10 (port : ℕ)) := by
    rw [InetAddress.getHostAddress, htext]
    simp
  refine ⟨_, hgroup, ?_⟩
  rw [happend, configureLauncherAddress_eq Nat.toDigits_ne_nil hcolon (by simp),
    parseInt_eq_none (by simp), Option.getD_none, if_pos rfl]
  rfl

/-- The local port is no obstacle. -/
theorem roundTrips_iff_launcher :
    RoundTrips network address port localPort ↔
      ∃ launcher, configureLauncherAddress network (parseCommandLineArgs
          (workerArguments (address.getHostAddress ++ ':' :: Nat.toDigits 10 port) localPort)) =
        some (.resolved launcher port) ∧ launcher.equals address = true := by
  simp only [RoundTrips, constructCommandLineArguments_eq, Option.some.injEq, exists_eq_left']
  exact and_iff_left fun localAddress h => configureLocalAddress_eq h

theorem roundTrips_inet4 (hnetwork : ParsesLiterals network) (hostName : Option (List Char))
    (bytes : Bytes 4) : RoundTrips network (.inet4 hostName bytes) port localPort := by
  have hne : bytes.1 ≠ [] := List.ne_nil_of_length_pos (by rw [bytes.2]; decide)
  have hcolon : ':' ∉ ['.'].intercalate (InetAddress.octets bytes.1) := fun hmem =>
    absurd (InetAddress.eq_dot_of_isSeparator bytes.1 ':' hmem rfl) (by decide)
  obtain ⟨hostName', hread⟩ := hnetwork hostName bytes
  rw [roundTrips_iff_launcher]
  refine ⟨.inet4 hostName' bytes, ?_, by simp [InetAddress.equals]⟩
  rw [InetAddress.getHostAddress] at hread ⊢
  rw [configureLauncherAddress_eq (InetAddress.intercalate_octets_ne_nil hne) hcolon
    Nat.toDigits_ne_nil, hread, Option.bind_some, parseInt_toDigits port.isLt, Option.getD_some,
    if_neg (ofInt_ne_undefinedPort port)]
  exact ofPort_ofInt _ port

/-- The address that is configured for sixteen bytes is what the first group is the name of. -/
theorem roundTrips_inet6_iff {hostName scope : Option (List Char)} {bytes : Bytes 16} :
    RoundTrips network (.inet6 hostName bytes scope) port localPort ↔
      port = 0 ∧ ∃ group, (InetAddress.hexGroups bytes.1).head? = some group ∧
        ∃ read, network.getByName group = some read ∧
          read.equals (.inet6 hostName bytes scope) = true := by
  obtain ⟨group, hgroup, hconfigure⟩ :=
    configureLauncherAddress_inet6 network hostName scope bytes port localPort
  rw [roundTrips_iff_launcher, hconfigure, hgroup]
  constructor
  · rintro ⟨launcher, hlauncher, hequals⟩
    obtain ⟨read, hread, hresolved⟩ := Option.bind_eq_some_iff.mp hlauncher
    obtain ⟨rfl, rfl⟩ := Net.InetSocketAddress.resolved.inj (Option.some.inj hresolved)
    exact ⟨rfl, _, rfl, read, hread, hequals⟩
  · rintro ⟨rfl, _, hsome, read, hread, hequals⟩
    obtain rfl := Option.some.inj hsome
    exact ⟨read, by rw [hread]; rfl, hequals⟩

/-- **The addresses that are handed over** are those of four bytes, and those of sixteen bytes with
the port 0 whose first group is the name of a host with this address. -/
theorem roundTrips_iff (hnetwork : ParsesLiterals network) (address : InetAddress) (port : Port)
    (localPort : Option Port) :
    RoundTrips network address port localPort ↔
      (∃ hostName bytes, address = .inet4 hostName bytes) ∨
        ∃ hostName bytes scope, address = .inet6 hostName bytes scope ∧ port = 0 ∧
          ∃ group, (InetAddress.hexGroups bytes.1).head? = some group ∧
            ∃ read, network.getByName group = some read ∧ read.equals address = true := by
  rcases address with ⟨hostName, bytes⟩ | ⟨hostName, bytes, scope⟩
  · exact iff_of_true (roundTrips_inet4 hnetwork hostName bytes) (.inl ⟨hostName, bytes, rfl⟩)
  · rw [roundTrips_inet6_iff]
    constructor
    · intro h
      exact .inr ⟨hostName, bytes, scope, rfl, h⟩
    · rintro (⟨_, _, heq⟩ | ⟨_, _, _, heq, h⟩)
      · exact absurd heq (by simp)
      · obtain ⟨rfl, rfl, rfl⟩ := InetAddress.inet6.inj heq
        exact h

/-- A network of hosts without names: only numerals are addresses. -/
def unnamedNetwork : Network where
  getByName name :=
    ((name.splitOn '.').mapM Integer.parseInt).bind fun values =>
      if h : values.length = 4 ∧ values.all (fun v => 0 ≤ v.toInt ∧ v.toInt ≤ 255) = true then
        some (.inet4 none ⟨values.map byteValue, by rw [List.length_map, h.1]⟩)
      else if values = [0] then some (.inet4 none ⟨[0, 0, 0, 0], rfl⟩)
      else none
  getLocalIPv4Address := some (.inet4 none ⟨[192, 168, 0, 2], rfl⟩)

theorem parsesLiterals_unnamedNetwork : ParsesLiterals unnamedNetwork := by
  intro hostName bytes
  have hne : bytes.1 ≠ [] := List.ne_nil_of_length_pos (by rw [bytes.2]; decide)
  have hvalues : (byteValues bytes.1).length = 4 ∧
      (byteValues bytes.1).all (fun v => 0 ≤ v.toInt ∧ v.toInt ≤ 255) = true :=
    ⟨by rw [byteValues, List.length_map, bytes.2],
      List.all_eq_true.mpr fun v hv => decide_eq_true (octet_of_mem_byteValues v hv)⟩
  refine ⟨none, ?_⟩
  simp only [unnamedNetwork, InetAddress.getHostAddress, InetAddress.splitOn_octets hne,
    mapM_eq_some_iff.mpr map_parseInt_octets, Option.bind_some, dif_pos hvalues,
    map_byteValue_byteValues]

theorem roundTrips_unnamedNetwork :
    RoundTrips unnamedNetwork (.inet4 none ⟨[192, 168, 0, 1], rfl⟩) 8080 (some 0) :=
  (roundTrips_iff parsesLiterals_unnamedNetwork _ _ _).mpr (.inl ⟨none, _, rfl⟩)

/-- The local address of sixteen bytes is not handed over. -/
theorem not_roundTrips_unnamedNetwork :
    ¬ RoundTrips unnamedNetwork (.inet6 none ⟨List.replicate 15 0 ++ [1], rfl⟩ none) 8080 none := by
  rw [roundTrips_inet6_iff]
  rintro ⟨hport, -⟩
  exact absurd hport (by decide)

end WorkerMain

end Shabdiz
