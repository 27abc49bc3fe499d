import UsbEthernet.Limits
import UsbEthernet.Usb.Event

/-! The bus as a scripted host serves it: whether it is attached, when it fails or holds up
transfers from the device, and which transfers it has queued for it. -/
namespace UsbEthernet

/-- The endpoints to the host. Without a number there is no such limit or failure. -/
structure InPipe where
  /-- Bulk transfers that the host still takes. -/
  budget : Option Nat := none
  /-- Bulk transfers up to one that fails. -/
  failIn : Option Nat := none
  /-- Notifications that are still to fail. -/
  failNotify : Nat := 0
deriving DecidableEq

namespace InPipe

/-- Writes a bulk transfer; without an answer it has to wait. A failure comes before a wait. -/
def write (p : InPipe) (attached : Bool) (transfer : Bytes) : Option (InPipe × InEvent) :=
  if !attached then some (p, .off)
  else if p.failIn = some 0 then some ({ p with failIn := none }, .failed)
  else if p.budget = some 0 then none
  else
    some ({ p with budget := p.budget.map (· - 1), failIn := p.failIn.map (· - 1) },
      .data transfer)

/-- How a run of writes ends. -/
inductive Outcome where
  | done
  | failed
  | pending
deriving DecidableEq

/-- Writes the transfers in order, up to the first that fails or has to wait. -/
def writeAll (p : InPipe) (attached : Bool) : List Bytes → InPipe × Outcome × List InEvent
  | [] => (p, .done, [])
  | transfer :: rest =>
    match p.write attached transfer with
    | none => (p, .pending, [])
    | some (p, event) =>
      if event.succeeded then
        match p.writeAll attached rest with
        | (p, outcome, events) => (p, outcome, event :: events)
      else (p, .failed, [event])

/-- Writes a notification, which never has to wait. -/
def notify (p : InPipe) (attached : Bool) (notice : Bytes) : InPipe × InEvent :=
  if !attached then (p, .notifyOff)
  else if p.failNotify = 0 then (p, .notified notice)
  else ({ p with failNotify := p.failNotify - 1 }, .notifyFailed)

/-- A failed write uses up a failure, unless it fails because no host is there. -/
theorem write_failures {p q : InPipe} {attached : Bool} {transfer : Bytes} {event : InEvent}
    (h : p.write attached transfer = some (q, event)) :
    q.failNotify = p.failNotify ∧
      if event.succeeded then q.failIn.isSome = p.failIn.isSome
      else attached = false ∧ q.failIn = p.failIn ∨ p.failIn = some 0 ∧ q.failIn = none := by
  unfold write at h
  split at h
  · cases h
    simp_all [InEvent.succeeded]
  · split at h
    · cases h
      simp_all [InEvent.succeeded]
    · split at h
      · cases h
      · cases h
        simp [InEvent.succeeded]

theorem notify_attached (p : InPipe) (notice : Bytes) :
    p.notify true notice = (p, .notified notice) ∨
      ∃ n, p.failNotify = n + 1 ∧
        p.notify true notice = ({ p with failNotify := n }, .notifyFailed) := by
  obtain ⟨budget, failIn, failNotify⟩ := p
  cases failNotify with
  | zero => exact .inl rfl
  | succ n => exact .inr ⟨n, rfl, rfl⟩

end InPipe

/-- A bulk transfer that the host has queued. -/
inductive OutTransfer where
  | data (transfer : Bytes)
  | failed
deriving DecidableEq

/-- The transfers from the host, the oldest first. -/
abbrev OutPipe := List OutTransfer

/-- Reads the oldest transfer into a buffer of the largest packet size; without an answer there
is none yet. -/
def OutPipe.read (p : OutPipe) (attached : Bool) : Option (OutPipe × OutEvent) :=
  if !attached then some (p, .off)
  else match p with
    | [] => none
    | .failed :: rest => some (rest, .failed)
    | .data transfer :: rest =>
      some (rest, if transfer.length ≤ maxUsbPacket then .data transfer else .overflow)

theorem OutPipe.length_read {p q : OutPipe} {event : OutEvent}
    (h : p.read true = some (q, event)) : q.length < p.length := by
  cases p with
  | nil => cases h
  | cons transfer rest => cases transfer <;> cases h <;> simp

structure Bus where
  attached : Bool := false
  inPipe : InPipe := {}
  outPipe : OutPipe := []
deriving DecidableEq

inductive HostAction where
  | attach
  | detach
  | out (transfers : List Bytes)
  | outFailed
  | budget (limit : Option Nat)
  | failIn (after : Option Nat)
  | failNotify (count : Nat)
deriving DecidableEq

/-- A detach loses the transfers that were not read yet. -/
def HostAction.act (b : Bus) : HostAction → Bus
  | attach => { b with attached := true }
  | detach => { b with attached := false, outPipe := [] }
  | out transfers => { b with outPipe := b.outPipe ++ transfers.map .data }
  | outFailed => { b with outPipe := b.outPipe ++ [.failed] }
  | budget limit => { b with inPipe.budget := limit }
  | failIn after => { b with inPipe.failIn := after }
  | failNotify count => { b with inPipe.failNotify := count }

end UsbEthernet
