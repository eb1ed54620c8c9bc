import Hdds.Discovery.ParameterList
import Hdds.Engine.Router

/-! # SPDP participant announcements

`protocol/discovery/spdp`: `build_spdp` writes a participant's announcement as a PL_CDR_LE
parameter list into a caller's buffer, and `parse_spdp` reads one back.

* What `build_spdp` reads from its process (host name, process id, executable path, target, the
  two formatted timestamps and the user name) is the `SpdpEnv` it is given.
* A `SocketAddr` is an IPv4 or IPv6 address with its port. `write_locator` writes every locator as
  kind UDPv4: twelve zero bytes, then the four bytes of an IPv4 address. For an IPv6 address it
  steps over those four bytes, which keep what the buffer held (`Wire.written`).
* Every write of `build_spdp` checks that it fits; the offset only grows, so they all pass exactly
  when the whole announcement fits. On an error the model keeps only the error.
* The handlers of `PID_PROTOCOL_VERSION`, `PID_VENDOR_ID`, `PID_BUILTIN_ENDPOINT_SET`,
  `PID_PROPERTY_LIST`, `PID_ENTITY_NAME` and of unknown PIDs only log. Every handler reads inside
  the value it is given, so it is handed the value's bytes.
-/

namespace Hdds.Discovery
open Wire Hdds.Rtps
set_option autoImplicit false

/-- `SocketAddr`. -/
inductive SocketAddr
  | v4 (ip : ByteArr 4) (port : UInt16)
  | v6 (ip : ByteArr 16) (port : UInt16)
deriving DecidableEq, Repr

/-- `SocketAddr::port`. -/
def SocketAddr.port : SocketAddr → UInt16
  | .v4 _ port => port
  | .v6 _ port => port

/-- `GUID::from_bytes`. -/
def Guid.fromBytes (bytes : ByteArr 16) : Guid :=
  ⟨⟨bytes.bytes.take 12, by simp [bytes.length_eq]⟩, ⟨bytes.bytes.drop 12, by simp [bytes.length_eq]⟩⟩

/-- `SpdpData`. -/
structure SpdpData where
  participantGuid : Guid
  leaseDurationMs : ℕ
  domainId : UInt32
  metatrafficUnicastLocators : List SocketAddr
  defaultUnicastLocators : List SocketAddr
  defaultMulticastLocators : List SocketAddr
  metatrafficMulticastLocators : List SocketAddr
  identityToken : Option (List UInt8)
deriving DecidableEq, Repr

/-- The values of the seven `dds.sys_info` properties `build_spdp` announces. -/
structure SpdpEnv where
  hostname : List UInt8
  processId : List UInt8
  executablePath : List UInt8
  target : List UInt8
  creationTimestamp : List UInt8
  executionTimestamp : List UInt8
  username : List UInt8
deriving DecidableEq, Repr

/-- `str::as_bytes` of an ASCII text. -/
def asciiBytes (s : String) : List UInt8 := s.toList.map fun c => UInt8.ofNat c.toNat

/-! ## Building -/

/-- `write_locator`: the PID header and a `Locator_t` of kind UDPv4 with the port and twelve zero
bytes; then the IPv4 address, while for an IPv6 address the last four bytes are stepped over. -/
def writeLocator (pid : ℕ) (addr : SocketAddr) : List (Option UInt8) :=
  (paramHeader pid 24 ++ toLE 4 1 ++ toLE 4 addr.port.toNat ++ List.replicate 12 0).map some ++
    match addr with
    | .v4 ip _ => ip.bytes.map some
    | .v6 _ _ => List.replicate 4 none

/-- A string as `write_property` writes it: its length with the terminator, its bytes, the
terminator and zero padding up to a multiple of four. -/
def cdrString (s : List UInt8) : List UInt8 :=
  toLE 4 (s.length + 1) ++ s ++ 0 :: List.replicate (align4 (s.length + 1) - (s.length + 1)) 0

/-- `write_property`. -/
def writeProperty (name value : List UInt8) : List UInt8 := cdrString name ++ cdrString value

/-- `calc_prop_size`. -/
def calcPropSize (name value : List UInt8) : ℕ :=
  4 + align4 (name.length + 1) + 4 + align4 (value.length + 1)

/-- The seven properties, in the order they are written. -/
def SpdpEnv.properties (env : SpdpEnv) : List (List UInt8 × List UInt8) :=
  [(asciiBytes "dds.sys_info.hostname", env.hostname),
    (asciiBytes "dds.sys_info.process_id", env.processId),
    (asciiBytes "dds.sys_info.executable_filepath", env.executablePath),
    (asciiBytes "dds.sys_info.target", env.target),
    (asciiBytes "dds.sys_info.creation_timestamp", env.creationTimestamp),
    (asciiBytes "dds.sys_info.execution_timestamp", env.executionTimestamp),
    (asciiBytes "dds.sys_info.username", env.username)]

/-- `total_properties_size`. -/
def SpdpEnv.totalPropertiesSize (env : SpdpEnv) : ℕ :=
  4 + (env.properties.map fun p => calcPropSize p.1 p.2).sum

/-- The value of the `PID_PROPERTY_LIST` parameter: the count, then the seven properties. -/
def propertyListValue (env : SpdpEnv) : List UInt8 :=
  toLE 4 7 ++ env.properties.flatMap fun p => writeProperty p.1 p.2

/-- The `PID_PROPERTY_LIST` parameter; its length field is `total_properties_size as u16`. -/
def propertyListBytes (env : SpdpEnv) : List UInt8 :=
  paramHeader pidPropertyList (env.totalPropertiesSize % 2 ^ 16) ++ propertyListValue env

/-- The value of the `PID_PARTICIPANT_LEASE_DURATION` parameter: whole seconds, clamped to
`u32::MAX`, and the remaining nanoseconds. -/
def leaseDurationValue (leaseDurationMs : ℕ) : List UInt8 :=
  let seconds := if leaseDurationMs / 1000 < 2 ^ 32 then leaseDurationMs / 1000 else 2 ^ 32 - 1
  let nanoseconds := min (leaseDurationMs % 1000 * 1000000) 999999999
  toLE 4 seconds ++ toLE 4 nanoseconds

/-- The `PID_PARTICIPANT_LEASE_DURATION` parameter. -/
def leaseDurationBytes (leaseDurationMs : ℕ) : List UInt8 :=
  paramHeader pidParticipantLeaseDuration 8 ++ leaseDurationValue leaseDurationMs

/-- The parameters `build_spdp` writes before the locators, after the encapsulation header. -/
def spdpHead (d : SpdpData) : List UInt8 :=
  [0x00, 0x03, 0x00, 0x00] ++
    paramHeader pidProtocolVersion 4 ++ [2, 4, 0, 0] ++
    paramHeader pidVendorId 4 ++ [0x01, 0xaa, 0, 0] ++
    paramHeader pidParticipantGuid 16 ++ d.participantGuid.asBytes ++
    paramHeader pidBuiltinEndpointSet 4 ++ toLE 4 builtinEndpointSetDefault

/-- The parameters `build_spdp` writes after the locators, and the sentinel. -/
def spdpTail (env : SpdpEnv) (d : SpdpData) : List UInt8 :=
  propertyListBytes env ++ leaseDurationBytes d.leaseDurationMs ++
    paramHeader pidDomainId 4 ++ toLE 4 d.domainId.toNat ++ paramHeader pidSentinel 0

/-- Everything `build_spdp` writes, in order. -/
def spdpWrites (env : SpdpEnv) (d : SpdpData) : List (Option UInt8) :=
  (spdpHead d).map some ++
    d.defaultUnicastLocators.flatMap (writeLocator pidDefaultUnicastLocator) ++
    d.metatrafficUnicastLocators.flatMap (writeLocator pidMetatrafficUnicastLocator) ++
    (spdpTail env d).map some

/-- `build_spdp` into a buffer holding `buf`: the buffer afterwards and the number of bytes
written. -/
def buildSpdp (env : SpdpEnv) (d : SpdpData) (buf : List UInt8) :
    Except ParseError (List UInt8 × ℕ) :=
  if buf.length < (spdpWrites env d).length then .error .bufferTooSmall
  else .ok (overwrite buf (spdpWrites env d), (spdpWrites env d).length)

/-! ## Parsing -/

/-- `decode_locator_port`: the port in either byte order, big-endian when both readings fit. -/
def decodeLocatorPort (raw : List UInt8) : Option UInt16 :=
  if ofBE raw < 2 ^ 16 then some (UInt16.ofNat (ofBE raw))
  else if ofLE raw < 2 ^ 16 then some (UInt16.ofNat (ofLE raw))
  else none

/-- The locator a `parse_*_locator_pid` handler reads (`length >= 24`): the port at 4 and an
IPv4 address at 20, whatever the kind. -/
def parseLocator (value : List UInt8) : Option SocketAddr :=
  if 24 ≤ value.length then
    match decodeLocatorPort (field value 4 4), ByteArr.ofList? (field value 20 4) with
    | some port, some ip => some (.v4 ip port)
    | _, _ => none
  else none

/-- The state of the loop of `parse_spdp`. -/
structure SpdpScan where
  participantGuid : Option Guid
  leaseDurationMs : ℕ
  spdpData : SpdpData

/-- The handler of each PID in `parse_spdp`. -/
def spdpHandle (isLittleEndian : Bool) (st : SpdpScan) (pid : ℕ) (value : List UInt8) :
    SpdpScan :=
  let data := st.spdpData
  if pid = pidParticipantGuid then
    -- `length >= 16`
    match ByteArr.ofList? (field value 0 16) with
    | some bytes => { st with participantGuid := some (Guid.fromBytes bytes) }
    | none => st
  else if pid = pidDomainId then
    if 4 ≤ value.length then
      { st with spdpData := { data with domainId := UInt32.ofNat (ofLE (field value 0 4)) } }
    else st
  else if pid = pidParticipantLeaseDuration then
    if 8 ≤ value.length then
      { st with leaseDurationMs := ofEndian isLittleEndian (field value 0 4) * 1000 }
    else st
  else if pid = pidMetatrafficUnicastLocator then
    { st with spdpData := { data with
        metatrafficUnicastLocators := data.metatrafficUnicastLocators ++ (parseLocator value).toList } }
  else if pid = pidMetatrafficMulticastLocator then
    { st with spdpData := { data with
        metatrafficMulticastLocators :=
          data.metatrafficMulticastLocators ++ (parseLocator value).toList } }
  else if pid = pidDefaultUnicastLocator then
    { st with spdpData := { data with
        defaultUnicastLocators := data.defaultUnicastLocators ++ (parseLocator value).toList } }
  else if pid = pidDefaultMulticastLocator then
    { st with spdpData := { data with
        defaultMulticastLocators := data.defaultMulticastLocators ++ (parseLocator value).toList } }
  else st

/-- The state `parse_spdp` starts its loop from. -/
def initialScan : SpdpScan :=
  ⟨none, 100000,
    { participantGuid := Guid.fromBytes (ByteArr.zero 16)
      leaseDurationMs := 100000
      domainId := 0
      metatrafficUnicastLocators := []
      defaultUnicastLocators := []
      defaultMulticastLocators := []
      metatrafficMulticastLocators := []
      identityToken := none }⟩

/-- The end of `parse_spdp`: without a `PID_PARTICIPANT_GUID` the announcement is rejected. -/
def SpdpScan.finish (st : SpdpScan) : Except ParseError SpdpData :=
  match st.participantGuid with
  | none => .error .invalidFormat
  | some guid => .ok { st.spdpData with participantGuid := guid, leaseDurationMs := st.leaseDurationMs }

/-- The byte order and the CDR2 flag of each accepted encapsulation. -/
def encapsulationKind (encapsulation : ℕ) : Option (Bool × Bool) :=
  if encapsulation = cdrLe then some (true, false)
  else if encapsulation = cdrBe then some (false, false)
  else if encapsulation = cdr2Le then some (true, true)
  else if encapsulation = cdr2Be then some (false, true)
  else if encapsulation = cdrLeVendor then some (true, false)
  else if encapsulation = cdrBeVendor then some (false, false)
  else none

/-- `parse_spdp`. The parameters start at 4, or at 2 when the two bytes after the encapsulation
are not zero padding. -/
def parseSpdp (buf : List UInt8) : Except ParseError SpdpData :=
  if buf.length < 2 then .error .truncatedData
  else
    match encapsulationKind (ofBE (field buf 0 2)) with
    | none => .error .invalidEncapsulation
    | some (isLittleEndian, isCdr2) =>
      let pidOffset := if field buf 2 2 = [0, 0] then 4 else 2
      let advance := fun length => if isCdr2 then align4 length else length
      match walk (fun st pid value => .ok (spdpHandle isLittleEndian st pid value)) advance buf
          isLittleEndian (buf.length + 1) pidOffset initialScan with
      | .error e => .error e
      | .ok st => st.finish

/-! ## What reaches the wire -/

/-- A locator's 24-byte value as it reaches the wire, `last4` being the four bytes the buffer
holds in its last slot. -/
def locatorValue (addr : SocketAddr) (last4 : ByteArr 4) : List UInt8 :=
  toLE 4 1 ++ toLE 4 addr.port.toNat ++ List.replicate 12 0 ++
    match addr with
    | .v4 ip _ => ip.bytes
    | .v6 _ _ => last4.bytes

/-- The locator `parse_spdp` reads from it: an IPv4 locator comes back, an IPv6 one comes back as
the IPv4 address `last4` with its port. -/
def sentLocator (addr : SocketAddr) (last4 : ByteArr 4) : SocketAddr :=
  match addr with
  | .v4 _ _ => addr
  | .v6 _ port => .v4 last4 port

/-- Only an IPv4 locator is read back as itself. -/
theorem sentLocator_eq_self_iff (addr : SocketAddr) (last4 : ByteArr 4) :
    sentLocator addr last4 = addr ↔ ∃ ip port, addr = .v4 ip port := by
  cases addr with
  | v4 ip port => simp [sentLocator]
  | v6 ip port => simp [sentLocator]

@[simp] theorem length_locatorValue (addr : SocketAddr) (last4 : ByteArr 4) :
    (locatorValue addr last4).length = 24 := by
  cases addr with
  | v4 ip port => simp [locatorValue, ip.length_eq]
  | v6 ip port => simp [locatorValue, last4.length_eq]

/-- One locator reaches the wire as its parameter, the address slot of an IPv6 one holding the
four bytes that were there. -/
theorem written_writeLocator (pid : ℕ) (addr : SocketAddr) (old : List UInt8)
    (h : 28 ≤ old.length) :
    ∃ last4 : ByteArr 4, last4.bytes = field old 24 4 ∧
      written (writeLocator pid addr) old = encodeParam (pid, locatorValue addr last4) := by
  refine ⟨⟨field old 24 4, by simp [field]; omega⟩, rfl, ?_⟩
  have hhead : ((paramHeader pid 24 ++ toLE 4 1 ++ toLE 4 addr.port.toNat ++
      List.replicate 12 0).map some).length = 24 := by simp
  rw [writeLocator.eq_def, written_append _ _ _ (by rw [hhead]; omega),
    written_map_some _ _ (by simp; omega), hhead, encodeParam, length_locatorValue]
  -- the header and the first twenty bytes of the value are written; the address slot differs
  cases addr with
  | v4 ip port =>
    rw [written_map_some _ _ (by simp [ip.length_eq]; omega)]
    simp [locatorValue, SocketAddr.port]
  | v6 ip port =>
    rw [written_replicate_none]
    simp [locatorValue, SocketAddr.port, field]

theorem length_writeLocator (pid : ℕ) (addr : SocketAddr) : (writeLocator pid addr).length = 28 := by
  cases addr <;> simp [writeLocator, ByteArr.length_eq]

theorem length_flatMap_writeLocator (pid : ℕ) (locs : List SocketAddr) :
    (locs.flatMap (writeLocator pid)).length = 28 * locs.length := by
  simp [List.length_flatMap, length_writeLocator, Nat.mul_comm]

/-- The locator parameters of a run of locators, each with the four bytes under its address
slot. -/
def locatorParams (pid : ℕ) (locs : List SocketAddr) (stale : List (ByteArr 4)) :
    List (ℕ × List UInt8) :=
  (locs.zip stale).map fun q => (pid, locatorValue q.1 q.2)

/-- A run of locators reaches the wire as their parameters, with what the buffer held under the
address slots of the IPv6 ones. -/
theorem written_locators (pid : ℕ) (locs : List SocketAddr) (old : List UInt8)
    (h : 28 * locs.length ≤ old.length) :
    ∃ stale : List (ByteArr 4), stale.length = locs.length ∧
      written (locs.flatMap (writeLocator pid)) old = (locatorParams pid locs stale).flatMap encodeParam := by
  induction locs generalizing old with
  | nil => exact ⟨[], rfl, by simp [written, locatorParams]⟩
  | cons addr locs ih =>
    rw [List.length_cons] at h
    obtain ⟨last4, -, hfirst⟩ := written_writeLocator pid addr old (by omega)
    obtain ⟨stale, hlen, hrest⟩ := ih (old.drop 28) (by rw [List.length_drop]; omega)
    refine ⟨last4 :: stale, by simp [hlen], ?_⟩
    rw [List.flatMap_cons, written_append _ _ _ (by rw [length_writeLocator]; omega), hfirst,
      length_writeLocator, hrest]
    simp [locatorParams]

/-! ## The announcement as a parameter list -/

theorem length_asBytes (g : Guid) : g.asBytes.length = 16 := by
  simp [Guid.asBytes, ByteArr.length_eq]

theorem fromBytes_asBytes (g : Guid) : Guid.fromBytes ⟨g.asBytes, length_asBytes g⟩ = g := by
  obtain ⟨⟨pre, hpre⟩, ⟨ent, hent⟩⟩ := g
  simp [Guid.fromBytes, Guid.asBytes, List.take_left' hpre, List.drop_left' hpre]

@[simp] theorem length_cdrString (s : List UInt8) :
    (cdrString s).length = 4 + align4 (s.length + 1) := by
  have := le_align4 (s.length + 1)
  simp [cdrString]
  omega

theorem length_propertyListValue (env : SpdpEnv) :
    (propertyListValue env).length = env.totalPropertiesSize := by
  have hprop : ∀ name value : List UInt8,
      (writeProperty name value).length = calcPropSize name value := by
    intro name value
    simp [writeProperty, calcPropSize]
    omega
  simp [propertyListValue, SpdpEnv.totalPropertiesSize, List.length_flatMap, hprop]
  omega

/-- The parameters before the locators. -/
def spdpHeadParams (d : SpdpData) : List (ℕ × List UInt8) :=
  [(pidProtocolVersion, [2, 4, 0, 0]), (pidVendorId, [0x01, 0xaa, 0, 0]),
    (pidParticipantGuid, d.participantGuid.asBytes),
    (pidBuiltinEndpointSet, toLE 4 builtinEndpointSetDefault)]

/-- The parameters after the locators. -/
def spdpTailParams (env : SpdpEnv) (d : SpdpData) : List (ℕ × List UInt8) :=
  [(pidPropertyList, propertyListValue env),
    (pidParticipantLeaseDuration, leaseDurationValue d.leaseDurationMs),
    (pidDomainId, toLE 4 d.domainId.toNat)]

/-- The parameters of an announcement as they reach the wire. -/
def spdpParams (env : SpdpEnv) (d : SpdpData) (staleDefault staleMetatraffic : List (ByteArr 4)) :
    List (ℕ × List UInt8) :=
  spdpHeadParams d ++ locatorParams pidDefaultUnicastLocator d.defaultUnicastLocators staleDefault ++
    locatorParams pidMetatrafficUnicastLocator d.metatrafficUnicastLocators staleMetatraffic ++
    spdpTailParams env d

theorem spdpHead_eq (d : SpdpData) :
    spdpHead d = [0x00, 0x03, 0x00, 0x00] ++ (spdpHeadParams d).flatMap encodeParam := by
  simp [spdpHead, spdpHeadParams, encodeParam, length_asBytes]

theorem length_spdpHead (d : SpdpData) : (spdpHead d).length = 48 := by
  simp [spdpHead, length_asBytes]

/-- The tail is its parameters when the length of the property list fits its `u16`. -/
theorem spdpTail_eq (env : SpdpEnv) (d : SpdpData) (hprops : env.totalPropertiesSize < 2 ^ 16) :
    spdpTail env d = (spdpTailParams env d).flatMap encodeParam ++ paramHeader pidSentinel 0 := by
  have hvalue : (leaseDurationValue d.leaseDurationMs).length = 8 := by simp [leaseDurationValue]
  rw [spdpTail, propertyListBytes, Nat.mod_eq_of_lt hprops]
  simp [spdpTailParams, leaseDurationBytes, encodeParam, length_propertyListValue, hvalue]

/-- **What `build_spdp` writes.** The encapsulation header, the parameters and the sentinel. -/
theorem written_spdpWrites (env : SpdpEnv) (d : SpdpData) (buf : List UInt8)
    (hprops : env.totalPropertiesSize < 2 ^ 16) (hlen : (spdpWrites env d).length ≤ buf.length) :
    ∃ staleDefault staleMetatraffic : List (ByteArr 4),
      staleDefault.length = d.defaultUnicastLocators.length ∧
      staleMetatraffic.length = d.metatrafficUnicastLocators.length ∧
      written (spdpWrites env d) buf =
        [0x00, 0x03, 0x00, 0x00] ++ (spdpParams env d staleDefault staleMetatraffic).flatMap encodeParam ++
          paramHeader pidSentinel 0 := by
  have hD := length_flatMap_writeLocator pidDefaultUnicastLocator d.defaultUnicastLocators
  have hM := length_flatMap_writeLocator pidMetatrafficUnicastLocator d.metatrafficUnicastLocators
  rw [spdpWrites] at hlen ⊢
  simp only [List.length_append, List.length_map, length_spdpHead, hD, hM] at hlen
  -- the two runs of locators start 48 and `48 + 28 * n` bytes in
  obtain ⟨staleD, hstaleD, hwD⟩ := written_locators pidDefaultUnicastLocator
    d.defaultUnicastLocators (buf.drop 48) (by rw [List.length_drop]; omega)
  obtain ⟨staleM, hstaleM, hwM⟩ := written_locators pidMetatrafficUnicastLocator
    d.metatrafficUnicastLocators (buf.drop (48 + 28 * d.defaultUnicastLocators.length))
    (by rw [List.length_drop]; omega)
  refine ⟨staleD, staleM, hstaleD, hstaleM, ?_⟩
  have hA : ((spdpHead d).map some).length = 48 := by rw [List.length_map, length_spdpHead]
  rw [written_append _ _ _ (by simp only [List.length_append, hA, hD, hM]; omega),
    written_append _ _ _ (by simp only [List.length_append, hA, hD]; omega),
    written_append _ _ _ (by omega), written_map_some _ _ (by rw [length_spdpHead]; omega)]
  simp only [List.length_append, hA, hD, hM]
  rw [written_map_some _ _ (by rw [List.length_drop]; omega), hwD, hwM, spdpHead_eq,
    spdpTail_eq env d hprops]
  simp [spdpParams]

/-! ## Reading the announcement back -/

/-- `decode_locator_port` reads back a port written as a little-endian `u32`: the big-endian
reading fits a `u16` only when the port is zero. -/
theorem decodeLocatorPort_toLE (port : UInt16) :
    decodeLocatorPort (toLE 4 port.toNat) = some port := by
  have hlt := port.toNat_lt
  have hle : ofLE (toLE 4 port.toNat) = port.toNat := ofLE_toLE_of_lt (by omega)
  have hbe : ofBE (toLE 4 port.toNat) =
      port.toNat % 256 * 2 ^ 24 + port.toNat / 256 % 256 * 2 ^ 16 := by
    -- the two high bytes are zero
    have hhigh : port.toNat / 256 / 256 = 0 := by omega
    simp only [ofBE, toLE_succ, toLE_zero, List.reverse_cons, List.reverse_nil, List.nil_append,
      List.cons_append, ofLE_cons, ofLE_nil, UInt8.toNat_ofNat', hhigh, Nat.zero_div, Nat.zero_mod]
    omega
  unfold decodeLocatorPort
  by_cases h0 : port.toNat = 0
  · rw [if_pos (by rw [hbe, h0]; decide), hbe, h0]
    exact congrArg some (UInt16.toNat_inj.mp (by simp [h0]))
  · rw [if_neg (by rw [hbe]; omega), if_pos (by rw [hle]; omega), hle, UInt16.ofNat_toNat]

/-- The four bytes of an address slot, read where the slot is. -/
theorem field_locatorValue_slot (port : UInt16) (slot : ByteArr 4) :
    field (toLE 4 1 ++ toLE 4 port.toNat ++ List.replicate 12 0 ++ slot.bytes) 20 4 = slot.bytes := by
  have hpre : (toLE 4 1 ++ toLE 4 port.toNat ++ List.replicate 12 0).length + 0 = 20 := by simp
  have hslot := field_self slot.bytes
  rw [slot.length_eq] at hslot
  rw [← hpre, field_append_right, hslot]

theorem parseLocator_locatorValue (addr : SocketAddr) (last4 : ByteArr 4) :
    parseLocator (locatorValue addr last4) = some (sentLocator addr last4) := by
  have hport : field (locatorValue addr last4) 4 4 = toLE 4 addr.port.toNat := by
    cases addr <;> simp [-toLE_succ, locatorValue, field]
  have hlen : 24 ≤ (locatorValue addr last4).length := by simp
  rw [parseLocator, if_pos hlen, hport, decodeLocatorPort_toLE]
  -- the address is read from the slot: the IPv4 address, or the bytes the buffer held
  cases addr with
  | v4 ip port =>
    rw [locatorValue, field_locatorValue_slot, ByteArr.ofList?_bytes]
    rfl
  | v6 ip port =>
    rw [locatorValue, field_locatorValue_slot, ByteArr.ofList?_bytes]
    rfl

section Handle

variable (isLittleEndian : Bool) (st : SpdpScan)

/-- The PIDs whose handlers only log leave the state as it is. -/
theorem spdpHandle_of_logged (pid : ℕ) (value : List UInt8)
    (h : pid ∉ [pidParticipantGuid, pidDomainId, pidParticipantLeaseDuration,
      pidMetatrafficUnicastLocator, pidMetatrafficMulticastLocator, pidDefaultUnicastLocator,
      pidDefaultMulticastLocator]) :
    spdpHandle isLittleEndian st pid value = st := by
  simp only [List.mem_cons, List.not_mem_nil, or_false, not_or] at h
  obtain ⟨h1, h2, h3, h4, h5, h6, h7⟩ := h
  simp [spdpHandle, h1, h2, h3, h4, h5, h6, h7]

theorem spdpHandle_guid (g : Guid) :
    spdpHandle isLittleEndian st pidParticipantGuid g.asBytes = { st with participantGuid := some g } := by
  have hfield := field_self g.asBytes
  rw [length_asBytes] at hfield
  have hbytes : ByteArr.ofList? g.asBytes = some ⟨g.asBytes, length_asBytes g⟩ :=
    ByteArr.ofList?_bytes ⟨g.asBytes, length_asBytes g⟩
  simp only [spdpHandle, if_true, hfield, hbytes, fromBytes_asBytes]

theorem spdpHandle_leaseDuration (ms : ℕ) (h : ms < 2 ^ 32 * 1000) :
    spdpHandle true st pidParticipantLeaseDuration (leaseDurationValue ms) =
      { st with leaseDurationMs := ms / 1000 * 1000 } := by
  have hsec : ms / 1000 < 2 ^ 32 := by omega
  -- the seconds are not clamped
  have hfield : field (leaseDurationValue ms) 0 4 = toLE 4 (ms / 1000) := by
    have hself := field_self (toLE 4 (ms / 1000))
    rw [length_toLE] at hself
    simp only [leaseDurationValue, if_pos hsec]
    rw [field_append_left _ _ (by simp), hself]
  have hlen : (leaseDurationValue ms).length = 8 := by simp [leaseDurationValue]
  simp [-toLE_succ, spdpHandle, pidParticipantGuid, pidDomainId, pidParticipantLeaseDuration,
    hfield, hlen, ofLE_toLE_of_lt (show ms / 1000 < 256 ^ 4 by omega)]

theorem spdpHandle_domainId (domainId : UInt32) :
    spdpHandle isLittleEndian st pidDomainId (toLE 4 domainId.toNat) =
      { st with spdpData := { st.spdpData with domainId := domainId } } := by
  have hfield := field_self (toLE 4 domainId.toNat)
  rw [length_toLE] at hfield
  have hvalue : UInt32.ofNat (ofLE (toLE 4 domainId.toNat)) = domainId := by
    rw [ofLE_toLE_of_lt (by have := domainId.toNat_lt; omega), UInt32.ofNat_toNat]
  simp [-toLE_succ, spdpHandle, pidParticipantGuid, pidDomainId, hfield, hvalue]

end Handle

/-- A run of locator parameters, read by a handler that appends what `parseLocator` reads to one
list of the announcement: the list grows by the locators as sent, in order. -/
theorem foldl_spdpHandle_locatorParams (pid : ℕ) (upd : List SocketAddr → SpdpData → SpdpData)
    (hstep : ∀ st value, spdpHandle true st pid value =
      { st with spdpData := upd (parseLocator value).toList st.spdpData })
    (hnil : ∀ data, upd [] data = data)
    (happend : ∀ l l' data, upd l' (upd l data) = upd (l ++ l') data)
    (locs : List SocketAddr) (stale : List (ByteArr 4)) (st : SpdpScan) :
    (locatorParams pid locs stale).foldl (fun st p => spdpHandle true st p.1 p.2) st =
      { st with spdpData := upd (List.zipWith sentLocator locs stale) st.spdpData } := by
  induction locs generalizing stale st with
  | nil => simp [locatorParams, hnil]
  | cons addr locs ih =>
    cases stale with
    | nil => simp [locatorParams, hnil]
    | cons last4 stale =>
      have hcons : locatorParams pid (addr :: locs) (last4 :: stale) =
          (pid, locatorValue addr last4) :: locatorParams pid locs stale := rfl
      rw [hcons, List.foldl_cons, hstep, parseLocator_locatorValue, ih, List.zipWith_cons_cons]
      simp [happend]

/-- Every parameter of an announcement is read back whole. -/
theorem readable_spdpParams (env : SpdpEnv) (d : SpdpData)
    (staleDefault staleMetatraffic : List (ByteArr 4)) (hprops : env.totalPropertiesSize < 2 ^ 16) :
    ∀ p ∈ spdpParams env d staleDefault staleMetatraffic, Readable p := by
  have hlocators : ∀ pid locs stale, pid ≠ pidSentinel → pid < 2 ^ 16 →
      ∀ p ∈ locatorParams pid locs stale, Readable p := by
    intro pid locs stale hpid hlt p hp
    obtain ⟨q, -, rfl⟩ := List.mem_map.mp hp
    exact ⟨hpid, hlt, by simp⟩
  have hvalue : env.totalPropertiesSize < 65536 := hprops
  intro p hp
  simp only [spdpParams, List.mem_append] at hp
  rcases hp with ((hhead | hD) | hM) | htail
  · simp only [spdpHeadParams, List.mem_cons, List.not_mem_nil, or_false] at hhead
    rcases hhead with rfl | rfl | rfl | rfl <;>
      simp [Readable, pidSentinel, pidProtocolVersion, pidVendorId, pidParticipantGuid,
        pidBuiltinEndpointSet, length_asBytes]
  · exact hlocators _ _ _ (by decide) (by decide) p hD
  · exact hlocators _ _ _ (by decide) (by decide) p hM
  · simp only [spdpTailParams, List.mem_cons, List.not_mem_nil, or_false] at htail
    rcases htail with rfl | rfl | rfl <;>
      simp [Readable, pidSentinel, pidPropertyList, pidParticipantLeaseDuration, pidDomainId,
        length_propertyListValue, hvalue, leaseDurationValue]

/-- The scan after the parameters of an announcement: the GUID, the lease in whole seconds, the
domain and the two lists of locators as sent. -/
theorem foldl_spdpHandle_spdpParams (env : SpdpEnv) (d : SpdpData)
    (staleDefault staleMetatraffic : List (ByteArr 4)) (hlease : d.leaseDurationMs < 2 ^ 32 * 1000) :
    (spdpParams env d staleDefault staleMetatraffic).foldl (fun st p => spdpHandle true st p.1 p.2)
        initialScan =
      ⟨some d.participantGuid, d.leaseDurationMs / 1000 * 1000,
        { initialScan.spdpData with
          domainId := d.domainId
          defaultUnicastLocators := List.zipWith sentLocator d.defaultUnicastLocators staleDefault
          metatrafficUnicastLocators :=
            List.zipWith sentLocator d.metatrafficUnicastLocators staleMetatraffic }⟩ := by
  have hdefault := foldl_spdpHandle_locatorParams pidDefaultUnicastLocator
    (fun l data => { data with defaultUnicastLocators := data.defaultUnicastLocators ++ l })
    (fun st value => by simp [spdpHandle, pidParticipantGuid, pidDomainId,
      pidParticipantLeaseDuration, pidMetatrafficUnicastLocator, pidMetatrafficMulticastLocator,
      pidDefaultUnicastLocator])
    (fun data => by simp) (fun l l' data => by simp)
  have hmetatraffic := foldl_spdpHandle_locatorParams pidMetatrafficUnicastLocator
    (fun l data => { data with metatrafficUnicastLocators := data.metatrafficUnicastLocators ++ l })
    (fun st value => by simp [spdpHandle, pidParticipantGuid, pidDomainId,
      pidParticipantLeaseDuration, pidMetatrafficUnicastLocator])
    (fun data => by simp) (fun l l' data => by simp)
  simp only [spdpParams, List.foldl_append, spdpHeadParams, spdpTailParams, List.foldl_cons,
    List.foldl_nil]
  rw [spdpHandle_of_logged true _ pidProtocolVersion _ (by decide),
    spdpHandle_of_logged true _ pidVendorId _ (by decide), spdpHandle_guid,
    spdpHandle_of_logged true _ pidBuiltinEndpointSet _ (by decide), hdefault, hmetatraffic,
    spdpHandle_of_logged true _ pidPropertyList _ (by decide), spdpHandle_leaseDuration _ _ hlease,
    spdpHandle_domainId]
  rfl

/-- `parse_spdp` of a PL_CDR_LE list of readable parameters is the end of the scan over them. -/
theorem parseSpdp_params (ps : List (ℕ × List UInt8)) (hps : ∀ p ∈ ps, Readable p) :
    parseSpdp ([0x00, 0x03, 0x00, 0x00] ++ ps.flatMap encodeParam ++ paramHeader pidSentinel 0) =
      (ps.foldl (fun st p => spdpHandle true st p.1 p.2) initialScan).finish := by
  set buf := [0x00, 0x03, 0x00, 0x00] ++ ps.flatMap encodeParam ++ paramHeader pidSentinel 0
  have hencap : field buf 0 2 = [0x00, 0x03] := by simp [buf, field]
  have hpad : field buf 2 2 = [0x00, 0x00] := by simp [buf, field]
  have hkind : encapsulationKind (ofBE [0x00, 0x03]) = some (true, false) := by decide
  have hfuel : ps.length < buf.length + 1 := by
    have := length_le_length_flatMap_encodeParam ps
    simp only [buf, List.length_append]
    omega
  have hwalk := walk_params (fun st pid value => .ok (spdpHandle true st pid value))
    (fun length => if false = true then align4 length else length) ps hps (fun p _ => by simp)
    [0x00, 0x03, 0x00, 0x00] [] (buf.length + 1) hfuel initialScan
  rw [List.append_nil] at hwalk
  have hfold : ps.foldlM (fun st p => (Except.ok (spdpHandle true st p.1 p.2) :
      Except ParseError SpdpScan)) initialScan =
      .ok (ps.foldl (fun st p => spdpHandle true st p.1 p.2) initialScan) :=
    List.foldlM_pure
  rw [parseSpdp, if_neg (by simp [buf]), hencap, hkind]
  simp only [hpad, if_true]
  rw [show (4 : ℕ) = [(0x00 : UInt8), 0x03, 0x00, 0x00].length from rfl, hwalk, hfold]

/-- **The SPDP round trip.** Whatever the buffer held, what `build_spdp` writes parses back to the
announcement's GUID and domain, its lease in whole seconds, and its unicast locators in order,
except that an IPv6 locator comes back as the IPv4 address made of the four bytes the buffer
held under its address slot. The multicast lists and the identity token are not sent. -/
theorem spdp_round_trip_turns_ipv6_into_stale_ipv4 (env : SpdpEnv) (d : SpdpData) (buf : List UInt8)
    (hlease : d.leaseDurationMs < 2 ^ 32 * 1000) (hprops : env.totalPropertiesSize < 2 ^ 16)
    (after : List UInt8) (n : ℕ) (hbuild : buildSpdp env d buf = .ok (after, n)) :
    ∃ staleDefault staleMetatraffic : List (ByteArr 4),
      staleDefault.length = d.defaultUnicastLocators.length ∧
      staleMetatraffic.length = d.metatrafficUnicastLocators.length ∧
      parseSpdp (after.take n) = .ok
        { participantGuid := d.participantGuid
          leaseDurationMs := d.leaseDurationMs / 1000 * 1000
          domainId := d.domainId
          metatrafficUnicastLocators :=
            List.zipWith sentLocator d.metatrafficUnicastLocators staleMetatraffic
          defaultUnicastLocators := List.zipWith sentLocator d.defaultUnicastLocators staleDefault
          defaultMulticastLocators := []
          metatrafficMulticastLocators := []
          identityToken := none } := by
  unfold buildSpdp at hbuild
  split at hbuild
  · cases hbuild
  · next hfits =>
    cases hbuild
    obtain ⟨staleD, staleM, hD, hM, hwritten⟩ := written_spdpWrites env d buf hprops (by omega)
    refine ⟨staleD, staleM, hD, hM, ?_⟩
    rw [take_overwrite _ _ (by omega), hwritten, parseSpdp_params _ (readable_spdpParams env d _ _ hprops),
      foldl_spdpHandle_spdpParams env d staleD staleM hlease]
    rfl

set_option maxRecDepth 10000 in
/-- `[::]:7411` built into a buffer filled with `0xAB` is read back as `171.171.171.171:7411`. -/
theorem spdp_round_trip_ipv6_on_filled_buffer :
    let env : SpdpEnv := ⟨[], [], [], [], [], [], []⟩
    let d : SpdpData :=
      { participantGuid := Guid.fromBytes (ByteArr.zero 16)
        leaseDurationMs := 120500
        domainId := 0
        metatrafficUnicastLocators := []
        defaultUnicastLocators := [.v6 (ByteArr.zero 16) 7411]
        defaultMulticastLocators := []
        metatrafficMulticastLocators := []
        identityToken := none }
    let buf := List.replicate 600 (0xAB : UInt8)
    let after := overwrite buf (spdpWrites env d)
    let n := (spdpWrites env d).length
    d.leaseDurationMs < 2 ^ 32 * 1000 ∧ env.totalPropertiesSize < 2 ^ 16 ∧
      buildSpdp env d buf = .ok (after, n) ∧
      (∃ staleDefault staleMetatraffic : List (ByteArr 4),
        staleDefault.length = d.defaultUnicastLocators.length ∧
        staleMetatraffic.length = d.metatrafficUnicastLocators.length ∧
        parseSpdp (after.take n) = .ok
          { participantGuid := d.participantGuid
            leaseDurationMs := d.leaseDurationMs / 1000 * 1000
            domainId := d.domainId
            metatrafficUnicastLocators :=
              List.zipWith sentLocator d.metatrafficUnicastLocators staleMetatraffic
            defaultUnicastLocators := List.zipWith sentLocator d.defaultUnicastLocators staleDefault
            defaultMulticastLocators := []
            metatrafficMulticastLocators := []
            identityToken := none }) ∧
      (parseSpdp (after.take n)).toOption.map SpdpData.defaultUnicastLocators =
        some [.v4 ⟨List.replicate 4 0xAB, rfl⟩ 7411] := by
  intro env d buf after n
  have hlease : d.leaseDurationMs < 2 ^ 32 * 1000 := by decide
  have hprops : env.totalPropertiesSize < 2 ^ 16 := by decide
  have hbuild : buildSpdp env d buf = .ok (after, n) := by
    rw [buildSpdp, if_neg (by decide)]
  exact ⟨hlease, hprops, hbuild,
    spdp_round_trip_turns_ipv6_into_stale_ipv4 env d buf hlease hprops after n hbuild, by decide⟩

end Hdds.Discovery
