import UsbEthernet.Proofs.AddressText
import UsbEthernet.Proofs.Usb.Announcement
import UsbEthernet.Proofs.Usb.Reading
import UsbEthernet.Proofs.Usb.Receiving
import UsbEthernet.Usb.Control
import UsbEthernet.Usb.Halves

/-! What a host learns of the device from its descriptors, behind whatever functions and strings,
and how the running device keeps to it. -/
namespace UsbEthernet

/-- An Ethernet function as a host finds it among the settings that it has read. -/
structure Binding (found : List ReadSetting) where
  communication : ReadSetting
  idle : ReadSetting
  data : ReadSetting
  outEndpoint : Endpoint
  inEndpoint : Endpoint
  /-- The index of the string with the host's address. -/
  address : UInt8
  communication_only : found.filter (·.setting.code = ⟨0x02, 0x06, 0x00⟩) = [communication]
  data_only : found.filter (·.setting.code.base = 0x0a) = [idle, data]
  follow : [communication, idle, data] <:+ found
  communication_number : found.filter (·.interface = communication.interface) = [communication]
  data_number : found.filter (·.interface = data.interface) = [idle, data]
  union : ∃ control subordinate : UInt8,
    communication.setting.functional.filter (·.head? = some 0x06) =
      [[0x06, control, subordinate]] ∧
    control.toNat = communication.interface ∧ subordinate.toNat = data.interface
  ethernet : ∃ rest, communication.setting.functional.filter (·.head? = some 0x0f) =
    [0x0f :: address :: rest]
  idle_number : idle.number = 0
  idle_endpoints : idle.count = 0 ∧ idle.setting.endpoints = []
  number : data.number = 1
  endpoints : data.count = 2 ∧ data.setting.endpoints = [outEndpoint, inEndpoint]
  out_bulk : outEndpoint.type = .bulk ∧ outEndpoint.address.toNat < 128
  in_bulk : inEndpoint.type = .bulk ∧ 128 ≤ inEndpoint.address.toNat

namespace Gadget

/-- The numbers of the function's last string and last interface are octets. -/
structure Admitted (g : Gadget) : Prop where
  strings : g.dataString < 256
  interfaces : g.dataInterface < 256

def otherSetting (number : Nat) : ReadSetting where
  interface := number
  number := 0
  count := 0
  setting := { code := ⟨0xff, 0, 0⟩ }

def communicationSetting (g : Gadget) : ReadSetting where
  interface := g.communicationInterface
  number := 0
  count := 1
  setting := {
    code := networkCode
    text := g.communicationString
    functional := [headerFunctional, g.unionFunctional, g.ethernetFunctional]
    endpoints := [notifyEndpoint] }

def idleSetting (g : Gadget) : ReadSetting where
  interface := g.dataInterface
  number := 0
  count := 0
  setting := { code := dataCode, text := g.dataString }

def dataSetting (g : Gadget) : ReadSetting where
  interface := g.dataInterface
  number := 1
  count := 2
  setting := { code := dataCode, text := g.dataString, endpoints := [g.outEndpoint, g.inEndpoint] }

theorem others_interfaces (ns : List Nat) :
    (ns.map other).flatMap Function.interfaces =
      ns.map fun n => ⟨n, [{ code := ⟨0xff, 0, 0⟩ }]⟩ := by
  induction ns with
  | nil => rfl
  | cons n ns ih => exact congrArg (_ :: ·) ih

theorem others_length (ns : List Nat) :
    ((ns.map other).flatMap Function.toBytes).length = 17 * ns.length := by
  induction ns with
  | nil => rfl
  | cons n ns ih =>
    rw [List.map_cons, List.flatMap_cons, List.length_append, ih, List.length_cons, Nat.mul_succ,
      Nat.add_comm]
    rfl

theorem interfaces_eq (g : Gadget) :
    g.configuration.interfaces =
      g.others.map (fun n => ⟨n, [{ code := ⟨0xff, 0, 0⟩ }]⟩) ++ [g.communication, g.data] := by
  rw [Configuration.interfaces, configuration, List.flatMap_append, others_interfaces]
  rfl

theorem found_eq (g : Gadget) :
    g.configuration.found =
      g.others.map otherSetting ++ [g.communicationSetting, g.idleSetting, g.dataSetting] := by
  rw [Configuration.found, interfaces_eq, List.flatMap_append, List.flatMap_map,
    List.map_eq_flatMap]
  rfl

theorem length_toBytes (g : Gadget) : g.configuration.toBytes.length = 88 + 17 * g.interfaces := by
  rw [Configuration.length_toBytes, configuration, List.flatMap_append, List.length_append,
    others_length, length_others]
  have own : ([g.ethernet].flatMap Function.toBytes).length = 79 := rfl
  omega

theorem communication_fits {g : Gadget} (admitted : g.Admitted) : g.communication.Fits := by
  constructor
  · exact Nat.lt_of_succ_lt admitted.interfaces
  · change 1 ≤ 256
    decide
  · rw [communication, List.forall_mem_singleton]
    constructor
    · exact Nat.lt_of_succ_lt admitted.strings
    · simp [headerFunctional, unionFunctional, ethernetFunctional, Bytes.littleEndian]
    · change 1 < 256
      decide
    · simp [notifyEndpoint]

theorem data_fits {g : Gadget} (admitted : g.Admitted) : g.data.Fits := by
  have packet : g.config.maxPacket < 65536 :=
    Nat.lt_of_le_of_lt g.config.fits_buffer (by decide)
  constructor
  · exact admitted.interfaces
  · change 2 ≤ 256
    decide
  · rw [data, List.forall_mem_cons, List.forall_mem_singleton]
    constructor
    · exact ⟨admitted.strings, by simp, by simp, by simp⟩
    · exact ⟨admitted.strings, by simp, by simp, by simp [outEndpoint, inEndpoint, packet]⟩

theorem fits {g : Gadget} (admitted : g.Admitted) : g.configuration.Fits := by
  have interfaces : g.interfaces + 1 < 256 := admitted.interfaces
  constructor
  · rw [length_toBytes]
    omega
  · rw [interfaces_eq, List.forall_mem_append, List.forall_mem_map, List.forall_mem_cons,
      List.forall_mem_singleton]
    refine ⟨?_, communication_fits admitted, data_fits admitted⟩
    intro n mem
    constructor
    · exact Nat.lt_trans (lt_of_mem_others mem) (Nat.lt_of_succ_lt interfaces)
    · change 1 ≤ 256
      decide
    · rw [List.forall_mem_singleton]
      constructor <;> simp

/-- Whatever a host looks for that the other functions do not have, it finds in this one. -/
theorem found_filter (g : Gadget) {p : ReadSetting → Bool}
    (others : ∀ n ∈ g.others, p (otherSetting n) = false) :
    g.configuration.found.filter p =
      [g.communicationSetting, g.idleSetting, g.dataSetting].filter p := by
  have none : (g.others.map otherSetting).filter p = [] := by
    rw [List.filter_eq_nil_iff, List.forall_mem_map]
    intro n mem
    simp [others n mem]
  rw [found_eq, List.filter_append, none, List.nil_append]

/-- The other functions have none of the numbers of this one's interfaces. -/
theorem found_interface (g : Gadget) {number : Nat} (own : g.communicationInterface ≤ number) :
    g.configuration.found.filter (·.interface = number) =
      [g.communicationSetting, g.idleSetting, g.dataSetting].filter (·.interface = number) := by
  apply found_filter
  intro n mem
  exact decide_eq_false (Nat.ne_of_lt (Nat.lt_of_lt_of_le (lt_of_mem_others mem) own))

def binding {g : Gadget} (admitted : g.Admitted) : Binding g.configuration.found where
  communication := g.communicationSetting
  idle := g.idleSetting
  data := g.dataSetting
  outEndpoint := g.outEndpoint
  inEndpoint := g.inEndpoint
  address := UInt8.ofNat g.macString
  communication_only := g.found_filter fun _ _ => rfl
  data_only := g.found_filter fun _ _ => rfl
  follow := by
    rw [found_eq]
    exact List.suffix_append ..
  communication_number := by
    have own : g.communicationInterface ≤ g.communicationSetting.interface := Nat.le_refl _
    rw [g.found_interface own]
    simp [communicationSetting, idleSetting, dataSetting, communicationInterface, dataInterface,
      nextInterface]
  data_number := by
    have own : g.communicationInterface ≤ g.dataSetting.interface := Nat.le_succ _
    rw [g.found_interface own]
    simp [communicationSetting, idleSetting, dataSetting, communicationInterface, dataInterface,
      nextInterface]
  union := by
    have interfaces := admitted.interfaces
    rw [← subordinateInterface_eq] at interfaces
    refine ⟨_, _, rfl, UInt8.toNat_ofNat_of_lt ?_, UInt8.toNat_ofNat_of_lt interfaces⟩
    exact Nat.lt_of_succ_lt interfaces
  ethernet := ⟨_, rfl⟩
  idle_number := rfl
  idle_endpoints := ⟨rfl, rfl⟩
  number := rfl
  endpoints := ⟨rfl, rfl⟩
  out_bulk := ⟨rfl, by simp [outEndpoint]⟩
  in_bulk := ⟨rfl, by simp [inEndpoint]⟩

end Gadget

namespace Controller

/-- The answer to a request for a descriptor. -/
def fetch (c : Controller) (kind index language length : Nat) : Option Bytes :=
  match c.read ⟨0x80, getDescriptor, 256 * kind + index, language⟩ length with
  | [.data answer] => some answer
  | _ => none

/-- The text with an index. The request allows for the longest descriptor. -/
def fetchString (c : Controller) (language : Nat) (index : Nat) : Option String :=
  (c.fetch 3 index language 255).bind readString?

theorem write_gadget (c : Controller) (s : Setup) (data : Bytes) :
    (c.write s data).1.gadget = c.gadget := by
  have selected (number setting : Nat) : (c.select number setting).1.gadget = c.gadget := by
    unfold select
    split
    · rfl
    · split <;> rfl
  unfold write
  split
  · rfl
  · split
    · split
      · rfl
      · split <;> rfl
    · split
      · exact selected _ _
      · rfl
    · split <;> rfl
    · rfl

theorem run_gadget (c : Controller) (requests : List Transfer) :
    (c.run requests).1.gadget = c.gadget := by
  induction requests generalizing c with
  | nil => rfl
  | cons request requests ih =>
    cases request with
    | read => exact ih c
    | write s data => exact (ih (c.write s data).1).trans (c.write_gadget s data)

/-- A host gets as much of a descriptor as it asks for. -/
theorem fetch_eq {c : Controller} {kind index : Nat} {bytes : Bytes} (small : index < 256)
    (there : c.gadget.descriptor? kind index = some bytes) (nonempty : bytes ≠ [])
    (language : Nat) {length : Nat} (positive : 0 < length) :
    c.fetch kind index language length = some (bytes.take length) := by
  have kind_eq : (256 * kind + index) / 256 = kind := by omega
  have index_eq : (256 * kind + index) % 256 = index := by omega
  have asked : c.answer? ⟨0x80, getDescriptor, 256 * kind + index, language⟩ = some bytes := by
    simp [answer?, Setup.type, Setup.recipient, kind_eq, index_eq, there]
  have some_octets : (bytes.take length).isEmpty = false := by
    cases bytes with
    | nil => exact absurd rfl nonempty
    | cons =>
      cases length with
      | zero => cases positive
      | succ => rfl
  simp [fetch, read, asked, some_octets]

theorem fetchString_eq {c : Controller} {index : Nat} {text : String} (positive : 0 < index)
    (small : index < 256) (there : c.gadget.string? index = some text)
    (short : text.toList.length ≤ 126) (basic : ∀ ch ∈ text.toList, ch.toNat < 65536)
    (language : Nat) : c.fetchString language index = some text := by
  have served : c.gadget.descriptor? 3 index = some (stringDescriptor text) := by
    simp [Gadget.descriptor?, Nat.ne_of_gt positive, there]
  have whole : (stringDescriptor text).take 255 = stringDescriptor text := by
    apply List.take_of_length_le
    simp only [stringDescriptor, descriptor, List.length_cons, length_flatMap_littleEndian]
    omega
  rw [fetchString, fetch_eq small served (List.cons_ne_nil _ _) language (by decide), whole]
  exact readString?_stringDescriptor short basic

/-- Setting the packet filter is taken for the communication interface alone. -/
theorem write_packetFilter (c : Controller) (value index : Nat) {payload : Bytes}
    (short : payload.length ≤ maxData) :
    (c.write ⟨0x21, setPacketFilter, value, index⟩ payload).2 =
      if index = c.gadget.communicationInterface then [.accept] else [.reject] := by
  have taken : ¬maxData < payload.length := Nat.not_lt.mpr short
  by_cases named : index = c.gadget.communicationInterface
  · simp [write, Setup.type, Setup.recipient, taken, named]
  · simp [write, Setup.type, Setup.recipient, taken, named]

end Controller

namespace Device

theorem run_notice (d : Device) (actions : List DeviceAction) :
    (d.run actions).1.uplink.notice = d.uplink.notice := by
  induction actions generalizing d with
  | nil => rfl
  | cons action actions ih => exact (ih _).trans (d.turn_notice action)

/-- However it is run, a device cuts frames and tells their ends by the packet size of its
configuration, and announces the connection on its communication interface. -/
theorem run_ofGadget {g : Gadget} {mtu : Nat} {inbound outbound : Channel Packet} {nic : Nic}
    (built : Nic.build g.config mtu inbound outbound = .ok nic) (actions : List DeviceAction) :
    let d := ((ofGadget g nic).run actions).1
    d.uplink.maxPacket = g.config.maxPacket ∧
      d.uplink.notice = .notified (connectionNotice g.communicationInterface true) ∧
      ∀ transfer, (d.downlink.inbound.reassembler.receive transfer).1.phase = .idle ↔
        transfer.length ≠ g.config.maxPacket := by
  intro d
  obtain ⟨-, rfl⟩ := Nic.eq_of_build built
  let first := ofGadget g
    ⟨{ reassembler := { maxPacket := g.config.maxPacket }, channel := inbound },
      { hostMac := g.config.hostMac, deviceMac := g.config.deviceMac, mtu, channel := outbound }⟩
  have begun : first.uplink.Written [] := rfl
  have start : first.downlink.inbound.reassembler.IsWithin g.config.maxPacket :=
    ⟨0, [], by simp, rfl⟩
  obtain ⟨_, _, serves, -⟩ := first.run_serves actions begun
  have within := Inbound.isWithin_serve g.config.holds_header start
    (inboundCalls first.downlink.refuse (first.history actions))
  rw [first.run_inbound actions] at within
  refine ⟨serves.maxPacket, first.run_notice actions, ?_⟩
  exact within.receive_idle_iff g.config.holds_header

end Device

theorem Halves.run_keeps (h : Halves) (calls : List HalfCall) :
    (h.run calls).1.maxPacket = h.maxPacket ∧ (h.run calls).1.interface = h.interface := by
  induction calls generalizing h with
  | nil => exact ⟨rfl, rfl⟩
  | cons call calls ih =>
    have kept : (h.call call).1.maxPacket = h.maxPacket ∧
        (h.call call).1.interface = h.interface := by
      cases call with
      | host | send | notify | waitUplink | waitDownlink => exact ⟨rfl, rfl⟩
      | receive =>
        simp only [Halves.call]
        split
        · exact ⟨rfl, rfl⟩
        · exact ⟨rfl, rfl⟩
    exact ⟨(ih _).1.trans kept.1, (ih _).2.trans kept.2⟩

namespace Gadget

theorem string?_eq (g : Gadget) :
    g.string? g.macString = some g.config.hostMac.hex ∧
      g.string? g.communicationString = some "CDC Ethernet Control Model (ECM)" ∧
      g.string? g.dataString = some "CDC Data" := by
  have own (given : Nat) :
      nextString given ≠ 1 ∧ nextString given ≠ 2 ∧ nextString given ≠ 3 := by
    unfold nextString firstString
    omega
  have same (m n : Nat) : nextString m = nextString n ↔ m = n := Nat.add_left_cancel_iff
  simp [string?, communicationString, dataString, macString, own, same, address_eq]

variable {g : Gadget} {c : Controller}

/-- The strings of the function are served, whatever the language. -/
theorem fetchString_own (gadget : c.gadget = g) (admitted : g.Admitted) {given : Nat}
    {text : String} (own : given ≤ g.strings + 2)
    (named : g.string? (nextString given) = some text) (short : text.toList.length ≤ 126)
    (basic : ∀ ch ∈ text.toList, ch.toNat < 65536) (language : Nat) :
    c.fetchString language (nextString given) = some text := by
  have small : nextString given < 256 :=
    Nat.lt_of_le_of_lt (Nat.add_le_add_left own _) admitted.strings
  have there : c.gadget.string? (nextString given) = some text := by
    rwa [gadget]
  exact Controller.fetchString_eq (Nat.lt_add_right _ (by decide)) small there short basic language

theorem fetchString_address (gadget : c.gadget = g) (admitted : g.Admitted) (language : Nat) :
    ∃ digits, c.fetchString language g.macString = some digits ∧ digits.length = 12 ∧
      Hex.bytes? digits.toList = some g.config.hostMac.toBytes := by
  have written : g.config.hostMac.hex.toList = Hex.chars g.config.hostMac.toBytes :=
    String.toList_ofList
  have length : g.config.hostMac.hex.toList.length = 12 := by
    rw [written, Hex.length_chars]
    rfl
  refine ⟨g.config.hostMac.hex, ?_, length, ?_⟩
  · apply fetchString_own gadget admitted (Nat.le_add_right _ _) g.string?_eq.1
    · rw [length]
      decide
    · rw [written]
      intro ch mem
      exact Nat.lt_trans (Hex.chars_lt _ ch mem) (by decide)
  · rw [written]
    exact Hex.bytes?_chars _

/-- Whatever has been asked of the device before, a host that reads its configuration comes to the
end of it with the last descriptor and finds the Ethernet function. The strings named there are
the ones of the function. The device takes class requests for the interface found, announces the
connection on it, and cuts frames into transfers of the size of its endpoints, as it expects of
the host. -/
theorem enumerates {g : Gadget} (admitted : g.Admitted) (requests : List Controller.Transfer)
    (language : Nat) :
    let c := ((Controller.start g).run requests).1
    let bytes := g.configuration.toBytes
    (∀ length, 0 < length → c.fetch 2 0 language length = some (bytes.take length)) ∧
    ∃ ds, walk? bytes = some ds ∧ totalLength? ds = some bytes.length ∧
    ∃ b : Binding (readSettings ds),
      b.outEndpoint.maxPacket = g.config.maxPacket ∧
      b.inEndpoint.maxPacket = g.config.maxPacket ∧
      (∃ digits, c.fetchString language b.address.toNat = some digits ∧ digits.length = 12 ∧
        Hex.bytes? digits.toList = some g.config.hostMac.toBytes) ∧
      c.fetchString language b.communication.setting.text =
        some "CDC Ethernet Control Model (ECM)" ∧
      c.fetchString language b.idle.setting.text = some "CDC Data" ∧
      c.fetchString language b.data.setting.text = some "CDC Data" ∧
      (∀ value index payload, payload.length ≤ Controller.maxData →
        (c.write ⟨0x21, Controller.setPacketFilter, value, index⟩ payload).2 =
          if index = b.communication.interface then [.accept] else [.reject]) ∧
      (∀ calls,
        let h := ((Halves.ofGadget g).run calls).1
        h.maxPacket = b.inEndpoint.maxPacket ∧ h.interface = b.communication.interface) ∧
      ∀ mtu inbound outbound nic, Nic.build g.config mtu inbound outbound = .ok nic →
        ∀ actions,
          let d := ((Device.ofGadget g nic).run actions).1
          d.uplink.maxPacket = b.inEndpoint.maxPacket ∧
          d.uplink.notice = .notified (connectionNotice b.communication.interface true) ∧
          ∀ transfer, (d.downlink.inbound.reassembler.receive transfer).1.phase = .idle ↔
            transfer.length ≠ b.outEndpoint.maxPacket := by
  intro c bytes
  have gadget : c.gadget = g := Controller.run_gadget _ requests
  obtain ⟨ds, walked, total, read⟩ := Configuration.readSettings_walk (fits admitted)
  have data : c.fetchString language g.dataString = some "CDC Data" :=
    fetchString_own gadget admitted (Nat.le_refl _) g.string?_eq.2.2 (by decide) (by simp) language
  have index : (UInt8.ofNat g.macString).toNat = g.macString :=
    UInt8.toNat_ofNat_of_lt (Nat.lt_of_succ_lt (Nat.lt_of_succ_lt admitted.strings))
  refine ⟨?_, ds, walked, total, ?_⟩
  · intro length positive
    apply Controller.fetch_eq (by decide) _ (List.cons_ne_nil _ _) language positive
    rw [gadget]
    rfl
  rw [read]
  refine ⟨binding admitted, rfl, rfl, ?_, ?_, data, data, ?_, ?_, ?_⟩
  · change ∃ digits, c.fetchString language (UInt8.ofNat g.macString).toNat = some digits ∧ _
    rw [index]
    exact fetchString_address gadget admitted language
  · exact fetchString_own gadget admitted (Nat.le_succ _) g.string?_eq.2.1 (by decide) (by simp)
      language
  · intro value index payload short
    rw [c.write_packetFilter value index short, gadget]
    rfl
  · intro calls
    exact (Halves.ofGadget g).run_keeps calls
  · intro mtu inbound outbound nic built actions
    exact Device.run_ofGadget built actions

/-- Behind as many functions and strings as their numbers allow. -/
theorem enumerates_last :
    let config : Config := ⟨⟨0x1a, 0x55, 0x89, 0xa2, 0x69, 0x41⟩,
      ⟨0x1a, 0x55, 0x89, 0xa2, 0x69, 0x42⟩, 64, by decide, by decide⟩
    let g : Gadget := ⟨config, 249, 254⟩
    g.Admitted ∧
      ∃ ds, walk? g.configuration.toBytes = some ds ∧ totalLength? ds = some 4406 ∧
      ∃ b : Binding (readSettings ds), b.inEndpoint.maxPacket = 64 ∧
        (Controller.start g).fetchString 0x0409 b.data.setting.text = some "CDC Data" := by
  intro config g
  have admitted : g.Admitted := ⟨by decide, by decide⟩
  obtain ⟨-, ds, walked, total, b, -, size, -, -, -, text, -⟩ := enumerates admitted [] 0x0409
  rw [g.length_toBytes] at total
  exact ⟨admitted, ds, walked, total, b, size, text⟩

end Gadget
end UsbEthernet
