import UsbEthernet.Packet

/-! Putting frames back together from transfers. Only a transfer of exactly the maximum packet
size leaves its frame open; any other length ends it. -/
namespace UsbEthernet

inductive Phase where
  /-- No frame is open. -/
  | idle
  /-- Full transfers are buffered and more are expected. -/
  | active
  /-- The open frame is too long; its transfers are dropped up to its end. -/
  | discard
deriving DecidableEq

structure RxStats where
  frames : Counter := 0
  runts : Counter := 0
  oversize : Counter := 0
  aborted : Counter := 0
deriving DecidableEq

structure Reassembler where
  maxPacket : Nat
  phase : Phase := .idle
  buffer : Bytes := []
  stats : RxStats := {}
deriving DecidableEq

namespace Reassembler

/-- Whether a transfer is the last of its frame. -/
def ends (r : Reassembler) (transfer : Bytes) : Bool :=
  transfer.length != r.maxPacket

/-- Adds a transfer to the open frame and gives the frame that it completes. -/
def extend (r : Reassembler) (transfer : Bytes) : Reassembler × Option Bytes :=
  let frame := r.buffer ++ transfer
  if maxFrame < frame.length then
    ({ r with
        phase := if r.ends transfer then .idle else .discard
        buffer := []
        stats.oversize := r.stats.oversize + 1 }, none)
  else if r.ends transfer then
    ({ r with phase := .idle, buffer := [] }, some frame)
  else
    ({ r with phase := .active, buffer := frame }, none)

/-- Takes a transfer and gives the frame that it completes. A frame cannot begin with less than
a header; an empty transfer between frames is usual and not counted. -/
def collect (r : Reassembler) (transfer : Bytes) : Reassembler × Option Bytes :=
  match r.phase with
  | .idle =>
    if headerLength ≤ transfer.length then r.extend transfer
    else if transfer.isEmpty then (r, none)
    else ({ r with stats.runts := r.stats.runts + 1 }, none)
  | .active => r.extend transfer
  | .discard => (if r.ends transfer then { r with phase := .idle } else r, none)

/-- Takes a transfer and gives the packet whose frame it completes. -/
def receive (r : Reassembler) (transfer : Bytes) : Reassembler × Option Packet :=
  match r.collect transfer with
  | (r, none) => (r, none)
  | (r, some frame) =>
    match Header.parse frame with
    | .ok (header, payload) =>
      ({ r with stats.frames := r.stats.frames + 1 }, some ⟨header, payload⟩)
    | .error _ => (r, none)

/-- Drops the open frame after a failed transfer or a detach. -/
def abort (r : Reassembler) : Reassembler :=
  { r with
    phase := .idle
    buffer := []
    stats.aborted := if r.phase = .idle then r.stats.aborted else r.stats.aborted + 1 }

end Reassembler
end UsbEthernet
