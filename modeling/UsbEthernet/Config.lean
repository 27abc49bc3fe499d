import UsbEthernet.MacAddr

/-! The parameters of one interface. The packet size is bounded so that a full packet holds a
header and fits the receive buffer. -/
namespace UsbEthernet

structure Config where
  hostMac : MacAddr
  deviceMac : MacAddr
  maxPacket : Nat
  holds_header : headerLength ≤ maxPacket
  fits_buffer : maxPacket ≤ maxUsbPacket
deriving DecidableEq

namespace Config

def make (hostMac deviceMac : MacAddr) (maxPacket : Nat) : Except Error Config :=
  if h : headerLength ≤ maxPacket ∧ maxPacket ≤ maxUsbPacket then
    .ok ⟨hostMac, deviceMac, maxPacket, h.1, h.2⟩
  else .error .badArgument

def ofTexts (hostMac deviceMac : String) (maxPacket : Nat) : Except Error Config := do
  make (← MacAddr.parse hostMac) (← MacAddr.parse deviceMac) maxPacket

end Config

/-- What an operator writes down for one interface. -/
structure Settings where
  host : String := "1a:55:89:a2:69:41"
  device : String := "1a:55:89:a2:69:42"
  maxPacket : Nat := 512
  mtu : Nat := maxPayload
deriving DecidableEq

def Settings.config (s : Settings) : Except Error Config :=
  Config.ofTexts s.host s.device s.maxPacket

end UsbEthernet
