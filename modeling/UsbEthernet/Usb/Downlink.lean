import UsbEthernet.Inbound
import UsbEthernet.Usb.Loop
import UsbEthernet.Usb.Bus

/-! The loop that carries transfers from the host. It reads while a host is attached; a failed
read drops the open frame and waits for the next attach. -/
namespace UsbEthernet

structure Downlink where
  reading : Bool := false
  pipe : OutPipe := []
  /-- Good transfers still to be refused, which the interface does not see. -/
  refuse : Nat := 0
  inbound : Inbound
deriving DecidableEq

namespace Downlink

def handle (d : Downlink) : OutEvent → Downlink
  | .data transfer =>
    if d.refuse = 0 then { d with inbound := d.inbound.receive transfer }
    else { d with refuse := d.refuse - 1 }
  | .off | .failed | .overflow => { d with reading := false, inbound := d.inbound.abort }

def step (attached : Bool) (d : Downlink) : Option (Downlink × List OutEvent) :=
  if d.reading then
    match d.pipe.read attached with
    | none => none
    | some (pipe, event) => some ({ d with pipe }.handle event, [event])
  else if attached then some ({ d with reading := true }, [])
  else none

/-- Twice the transfers to come, and one more unless it reads just while a host is attached. -/
def measure (attached : Bool) (d : Downlink) : Nat :=
  2 * d.pipe.length + if d.reading = attached then 0 else 1

theorem pipe_handle (d : Downlink) (event : OutEvent) : (d.handle event).pipe = d.pipe := by
  cases event with
  | data transfer =>
    simp only [handle]
    split <;> rfl
  | off | failed | overflow => rfl

theorem step_descends {attached : Bool} {d e : Downlink} {events : List OutEvent}
    (h : d.step attached = some (e, events)) : e.measure attached < d.measure attached := by
  unfold step at h
  split at h
  · rename_i reading
    split at h
    · cases h
    · rename_i pipe event read
      cases h
      cases attached with
      | false =>
        cases read
        simp [measure, handle, reading]
      | true =>
        have shorter := OutPipe.length_read read
        simp only [measure, pipe_handle, reading, ↓reduceIte]
        split <;> omega
  · rename_i waiting
    split at h
    · rename_i there
      cases h
      simp [measure, there, waiting]
    · cases h

def loop (attached : Bool) : Loop Downlink OutEvent Nat where
  step := step attached
  measure := measure attached
  descends := step_descends

end Downlink
end UsbEthernet
