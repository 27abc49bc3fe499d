import UsbEthernet.Hex

/-! What a host sees of the endpoints, each written as one word and its data. -/
namespace UsbEthernet

/-- What becomes of a bulk transfer or a notification to the host. -/
inductive InEvent where
  | off
  | failed
  | data (transfer : Bytes)
  | notifyOff
  | notifyFailed
  | notified (notice : Bytes)
deriving DecidableEq

namespace InEvent

def succeeded : InEvent → Bool
  | data _ | notified _ => true
  | off | failed | notifyOff | notifyFailed => false

def text : InEvent → String
  | off => "in_off"
  | failed => "in_fail"
  | data transfer => "in " ++ Hex.text transfer
  | notifyOff => "notify_off"
  | notifyFailed => "notify_fail"
  | notified notice => "notify " ++ Hex.text notice

end InEvent

/-- What becomes of a read of a bulk transfer from the host. -/
inductive OutEvent where
  | off
  | failed
  | overflow
  | data (transfer : Bytes)
deriving DecidableEq

def OutEvent.text : OutEvent → String
  | off => "out_off"
  | failed => "out_fail"
  | overflow => "out_overflow"
  | data transfer => "out " ++ toString transfer.length

inductive Event where
  | toHost (e : InEvent)
  | fromHost (e : OutEvent)
deriving DecidableEq

def Event.text : Event → String
  | toHost e => e.text
  | fromHost e => e.text

end UsbEthernet
