import H264Streaming.Bytes.Numerals
import H264Streaming.Bytes.Search
import H264Streaming.H264Dec.Commands

/-! Host and port of a stream address, as rtsp_connect and rtp_connect cut them out and hand them to
h264dec/network.c. The calls of socket and connect succeed. -/

set_option autoImplicit false

namespace H264Streaming.H264Dec

open H264Streaming.Bytes

/-- The host at the front of an address, up to a colon anywhere in it or else up to the first slash. -/
def lookupHost (address : List UInt8) : Option (List UInt8) :=
  ((strchr 58 address).or (strchr 47 address)).map fun sep => between address sep

def unsignedLong (value : Int) : Nat := (value % 18446744073709551616).toNat

/-- The port behind a colon and in front of a slash; without a colon stream_port stays. -/
def lookupPort (streamPort : Nat) (text : List UInt8) : Option Nat :=
  match strchr 58 text with
  | none => some streamPort
  | some sep =>
      let rest := sep.drop 1
      match strchr 47 rest with
      | none => none
      | some sep =>
          let buf := between rest sep
          -- seven octets and a terminator
          if 7 < buf.length then none else some (unsignedLong ((scanLong buf).getD 0))

def protocolPrefix : List UInt8 := ascii "rtsp://"

structure Connection (Address : Type) where
  address : Address
  port : Nat
  deriving DecidableEq

/-- stream_host, stream_port and the connection, none for the result -1. -/
structure Connected (Address : Type) where
  streamHost : List UInt8
  streamPort : Nat
  connection : Option (Connection Address)
  deriving DecidableEq

section
variable {Address : Type} (inetPton : List UInt8 → Option Address)

/-- `inetPton` is inet_pton for AF_INET, none for a text that it does not take. -/
def netConnect (host : List UInt8) (port : Nat) : Option (Connection Address) :=
  -- htons takes a uint16_t
  (inetPton host).map fun address => ⟨address, port % 65536⟩

def netTcpConnect (host : List UInt8) (port : Nat) : Option (Connection Address) := netConnect inetPton host port

def netUdpConnect (host : List UInt8) (port : Nat) : Option (Connection Address) := netConnect inetPton host port

/-- `none` where it exits. -/
def rtspConnect (streamPort : Nat) (stream : List UInt8) : Option (Connected Address) := do
  let address := stream.drop protocolPrefix.length
  let host ← lookupHost address
  -- the colon is looked for from the second octet on
  let port ← lookupPort streamPort (address.drop 1)
  return ⟨host, port, netTcpConnect inetPton host port⟩

def rtpConnect (stream : List UInt8) : Option (Option (Connection Address)) :=
  (lookupHost (stream.drop protocolPrefix.length)).map fun host => netUdpConnect inetPton host 0

end

/-! ### Addresses -/

structure PortDigits where
  digits : List UInt8
  sized : 1 ≤ digits.length ∧ digits.length ≤ 5
  decimal : ∀ digit ∈ digits, isDigit digit

structure Url where
  host : List UInt8
  port : Option PortDigits
  path : List UInt8
  plain : (58 : UInt8) ∉ host ∧ (47 : UInt8) ∉ host

def Url.tail (url : Url) : List UInt8 :=
  match url.port with
  | none => 47 :: url.path
  | some port => 58 :: (port.digits ++ 47 :: url.path)

def Url.text (url : Url) : List UInt8 := protocolPrefix ++ (url.host ++ url.tail)

def Url.portNumber (url : Url) (streamPort : Nat) : Nat :=
  match url.port with
  | none => streamPort
  | some port => digitsValue port.digits

/-- What a text has to hold for a port to be found in it: no colon, with the port set already, or the port
between its first colon and the next slash. -/
def NamesPort (streamPort : Nat) (text : List UInt8) (port : Nat) : Prop :=
  ((58 : UInt8) ∉ text ∧ streamPort = port) ∨
    ∃ front digits rest, text = front ++ 58 :: (digits ++ 47 :: rest) ∧ (58 : UInt8) ∉ front ∧ (47 : UInt8) ∉ digits ∧
      digits.length ≤ 7 ∧ unsignedLong ((scanLong digits).getD 0) = port

/-- Without a port no colon in the path; with a port a host in front of it, or the same port once more. -/
def Url.Separable (url : Url) (streamPort : Nat) : Prop :=
  match url.port with
  | none => (58 : UInt8) ∉ url.path
  | some port =>
      url.host ≠ [] ∨ NamesPort streamPort (port.digits ++ 47 :: url.path) (digitsValue port.digits)

theorem lookupPort_eq_some_iff {streamPort port : Nat} {text : List UInt8} :
    lookupPort streamPort text = some port ↔ NamesPort streamPort text port := by
  unfold lookupPort NamesPort
  cases colon : strchr 58 text with
  | none =>
      have absent := strchr_eq_none_iff.mp colon
      dsimp only
      rw [Option.some.injEq]
      constructor
      · exact fun same => Or.inl ⟨absent, same⟩
      · rintro (⟨-, same⟩ | ⟨front, digits, rest, rfl, -⟩)
        · exact same
        · exact absurd (by simp) absent
  | some sep =>
      obtain ⟨front, more, rfl, absent, rfl⟩ := strchr_eq_some_iff.mp colon
      dsimp only
      rw [List.drop_one, List.tail_cons]
      constructor
      · intro found
        cases slash : strchr 47 more with
        | none =>
            rw [slash] at found
            cases found
        | some stop =>
            obtain ⟨digits, rest, rfl, plain, rfl⟩ := strchr_eq_some_iff.mp slash
            rw [slash] at found
            dsimp only at found
            rw [between_append] at found
            split at found
            · cases found
            · rename_i short
              exact Or.inr ⟨front, digits, rest, rfl, absent, plain, Nat.le_of_not_lt short, Option.some.inj found⟩
      · rintro (⟨none, -⟩ | ⟨other, digits, rest, same, missing, plain, short, value⟩)
        · exact absurd (by simp) none
        · obtain ⟨-, rfl⟩ := append_cons_inj absent missing same
          rw [strchr_append plain, strchr_self]
          dsimp only
          rw [between_append, if_neg (Nat.not_lt.mpr short), value]

/-! ### What is found in an address -/

theorem PortDigits.plain (port : PortDigits) : (58 : UInt8) ∉ port.digits ∧ (47 : UInt8) ∉ port.digits :=
  ⟨fun member => absurd (port.decimal 58 member) (by decide), fun member => absurd (port.decimal 47 member) (by decide)⟩

theorem PortDigits.value (port : PortDigits) :
    unsignedLong ((scanLong port.digits).getD 0) = digitsValue port.digits := by
  obtain ⟨filled, short⟩ := port.sized
  have small := digitsValue_lt port.decimal
  have bound : 10 ^ port.digits.length ≤ 10 ^ 5 := Nat.pow_le_pow_right (by decide) short
  have read : scanLong (port.digits ++ []) = some (clampLong (digitsValue port.digits)) :=
    scanLong_digits (List.ne_nil_of_length_pos filled) port.decimal (fun _ none => nomatch none)
  rw [List.append_nil] at read
  rw [read, Option.getD_some, unsignedLong, clampLong]
  omega

theorem lookupHost_url (url : Url) :
    lookupHost (url.host ++ url.tail) = some url.host ↔ url.port.isSome ∨ (58 : UInt8) ∉ url.path := by
  obtain ⟨noColon, noSlash⟩ := url.plain
  unfold lookupHost Url.tail
  rw [strchr_append noColon]
  cases url.port with
  | some port =>
      rw [strchr_self, Option.some_or, Option.map_some, between_append]
      exact ⟨fun _ => Or.inl rfl, fun _ => rfl⟩
  | none =>
      have ahead : strchr 58 (47 :: url.path) = strchr 58 url.path := rfl
      rw [ahead]
      cases colon : strchr 58 url.path with
      | none =>
          rw [Option.none_or, strchr_append noSlash, strchr_self, Option.map_some, between_append]
          exact ⟨fun _ => Or.inr (strchr_eq_none_iff.mp colon), fun _ => rfl⟩
      | some sep =>
          obtain ⟨front, more, same, -, rfl⟩ := strchr_eq_some_iff.mp colon
          have whole : url.host ++ 47 :: url.path = (url.host ++ 47 :: front) ++ 58 :: more := by
            rw [same]
            simp
          rw [Option.some_or, Option.map_some]
          dsimp only
          rw [whole, between_append]
          constructor
          · intro host
            have lengths := congrArg List.length (Option.some.inj host)
            rw [List.length_append, List.length_cons] at lengths
            omega
          · rintro (given | absent)
            · cases given
            · rw [same] at absent
              exact absurd (by simp) absent

theorem lookups_url_iff (url : Url) (streamPort : Nat) :
    lookupHost (url.host ++ url.tail) = some url.host ∧
      lookupPort streamPort ((url.host ++ url.tail).drop 1) = some (url.portNumber streamPort) ↔ url.Separable streamPort := by
  rw [lookupHost_url, lookupPort_eq_some_iff]
  obtain ⟨host, port, path, noColon, noSlash⟩ := url
  cases port with
  | none =>
      dsimp only [Url.Separable, Url.portNumber, Url.tail]
      constructor
      · rintro ⟨given | absent, -⟩
        · cases given
        · exact absent
      · intro absent
        refine ⟨Or.inr absent, Or.inl ⟨fun member => ?_, rfl⟩⟩
        have among := List.mem_of_mem_drop member
        simp only [List.mem_append, List.mem_cons] at among
        rcases among with inHost | slash | inPath
        · exact noColon inHost
        · cases slash
        · exact absent inPath
  | some port =>
      dsimp only [Url.Separable, Url.portNumber, Url.tail]
      cases host with
      | nil =>
          rw [List.nil_append, List.drop_one, List.tail_cons]
          exact ⟨fun both => Or.inr both.2, fun named => ⟨Or.inl rfl, named.resolve_left (absurd rfl)⟩⟩
      | cons first host =>
          refine ⟨fun _ => Or.inl (List.cons_ne_nil first host), fun _ => ⟨Or.inl rfl, ?_⟩⟩
          have short : port.digits.length ≤ 7 := Nat.le_trans port.sized.2 (by decide)
          have front : (58 : UInt8) ∉ host := fun member => noColon (List.mem_cons_of_mem first member)
          exact Or.inr ⟨host, port.digits, path, rfl, front, port.plain.2, short, port.value⟩

theorem address_url (url : Url) : url.text.drop protocolPrefix.length = url.host ++ url.tail := List.drop_left

/-! ### Connections -/

section
variable {Address : Type} (inetPton : List UInt8 → Option Address)

theorem netConnect_eq_some_iff {host : List UInt8} {port : Nat} {connection : Connection Address} :
    netConnect inetPton host port = some connection ↔
      inetPton host = some connection.address ∧ connection.port = port % 65536 := by
  unfold netConnect
  rw [Option.map_eq_some_iff]
  constructor
  · rintro ⟨address, taken, rfl⟩
    exact ⟨taken, rfl⟩
  · rintro ⟨taken, same⟩
    exact ⟨connection.address, taken, by rw [← same]⟩

theorem rtspConnect_eq_some_iff {url : Url} {streamPort : Nat} {connected : Connected Address} :
    rtspConnect inetPton streamPort url.text = some connected ↔
      lookupHost (url.host ++ url.tail) = some connected.streamHost ∧
        lookupPort streamPort ((url.host ++ url.tail).drop 1) = some connected.streamPort ∧
          connected.connection = netConnect inetPton connected.streamHost connected.streamPort := by
  unfold rtspConnect
  dsimp only
  rw [address_url, Option.bind_eq_bind, Option.bind_eq_some_iff]
  constructor
  · rintro ⟨host, found, rest⟩
    obtain ⟨port, read, same⟩ := Option.bind_eq_some_iff.mp rest
    cases same
    exact ⟨found, read, rfl⟩
  · rintro ⟨found, read, same⟩
    refine ⟨connected.streamHost, found, Option.bind_eq_some_iff.mpr ⟨connected.streamPort, read, ?_⟩⟩
    rw [netTcpConnect, ← same]
    rfl

/-- It connects to the host of an address, and to its port or else to stream_port, exactly when inet_pton takes
the host, the port fits, and the two can be told from the path. -/
theorem connects_iff_separable (url : Url) (streamPort : Nat) :
    (∃ address, inetPton url.host = some address ∧ rtspConnect inetPton streamPort url.text =
        some ⟨url.host, url.portNumber streamPort, some ⟨address, url.portNumber streamPort⟩⟩) ↔
      (inetPton url.host).isSome ∧ url.portNumber streamPort < 65536 ∧ url.Separable streamPort := by
  simp only [rtspConnect_eq_some_iff, ← lookups_url_iff]
  constructor
  · rintro ⟨address, taken, host, port, connection⟩
    obtain ⟨-, fits⟩ := (netConnect_eq_some_iff inetPton).mp connection.symm
    dsimp only at fits
    exact ⟨by rw [taken]; rfl, by omega, host, port⟩
  · rintro ⟨taken, fits, host, port⟩
    obtain ⟨address, same⟩ := Option.isSome_iff_exists.mp taken
    refine ⟨address, same, host, port, ?_⟩
    exact ((netConnect_eq_some_iff inetPton).mpr ⟨same, (Nat.mod_eq_of_lt fits).symm⟩).symm

theorem rtpConnect_url {url : Url} (told : url.port.isSome ∨ (58 : UInt8) ∉ url.path) :
    rtpConnect inetPton url.text = some (netConnect inetPton url.host 0) := by
  rw [rtpConnect, address_url, (lookupHost_url url).mpr told]
  rfl

end

def oneAddress (host : List UInt8) : Option (List UInt8) :=
  if host = ascii "10.0.0.1" then some [10, 0, 0, 1] else none

def colonInPath : Url := ⟨ascii "10.0.0.1", none, ascii "a:5", by decide⟩

def largePort : Url := ⟨ascii "10.0.0.1", some ⟨ascii "99999", by decide, by decide +kernel⟩, ascii "a", by decide⟩

def namedHost : Url := ⟨ascii "camera.local", none, ascii "live", by decide⟩

/-- The host takes in part of the path and the process exits for want of a slash; a port is taken modulo 65536; a
name is no address. -/
theorem colon_in_path_exits :
    lookupHost (colonInPath.text.drop protocolPrefix.length) = some (ascii "10.0.0.1/a") ∧
      rtspConnect oneAddress 554 colonInPath.text = none ∧
      rtspConnect oneAddress 554 largePort.text = some ⟨ascii "10.0.0.1", 99999, some ⟨[10, 0, 0, 1], 34463⟩⟩ ∧
      rtspConnect oneAddress 554 namedHost.text = some ⟨ascii "camera.local", 554, none⟩ := by
  decide +kernel

end H264Streaming.H264Dec
