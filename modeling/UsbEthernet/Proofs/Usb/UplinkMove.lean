import UsbEthernet.Proofs.Usb.Polling

/-! The steps of the loop to the host, each with everything it needs and does, and the states in
which the loop waits. What a run of the loop keeps is read off these. -/
namespace UsbEthernet

namespace Uplink

/-- The packets that wait for the host. -/
def items (u : Uplink) : List Packet :=
  u.outbound.channel.items

def frame (u : Uplink) (p : Packet) : Bytes :=
  u.outbound.frame p

inductive Move (attached : Bool) : Uplink → Uplink → List InEvent → Prop where
  | announce : u.phase = .silent → attached = true → u.pipe.failNotify = 0 →
      Move attached u { u with phase := .ready } [.notified (connectionNotice u.interface true)]
  | unheard : u.phase = .silent → attached = true → u.pipe.failNotify = n + 1 →
      Move attached u { u with pipe.failNotify := n } [.notifyFailed]
  | start {u : Uplink} {p : Packet} {queue : List Packet} : u.phase = .ready →
      u.items = p :: queue → (u.frame p).length ≤ u.room →
      Move attached u { u with phase := .writing (transfers (u.frame p) u.maxPacket) } []
  | drop {u : Uplink} {p : Packet} {queue : List Packet} : u.phase = .ready →
      u.items = p :: queue → u.room < (u.frame p).length →
      Move attached u
        { u with
          outbound.channel := u.outbound.channel.rest
          outbound.stats.oversize := u.outbound.stats.oversize + 1 } []
  | finish {u : Uplink} {p : Packet} {queue : List Packet} : u.phase = .writing [] →
      u.items = p :: queue →
      Move attached u
        { u with
          phase := .ready
          outbound.channel := u.outbound.channel.rest
          outbound.stats.frames := u.outbound.stats.frames + 1 } []
  | write {u : Uplink} {transfer : Bytes} {rest : List Bytes} :
      u.phase = .writing (transfer :: rest) → attached = true → u.pipe.failIn ≠ some 0 →
      u.pipe.budget ≠ some 0 →
      Move attached u
        { u with
          phase := .writing rest
          pipe.budget := u.pipe.budget.map (· - 1)
          pipe.failIn := u.pipe.failIn.map (· - 1) } [.data transfer]
  | off {u : Uplink} {transfer : Bytes} {rest : List Bytes} :
      u.phase = .writing (transfer :: rest) → attached = false →
      Move attached u { u with phase := .silent } [.off]
  | fail {u : Uplink} {transfer : Bytes} {rest : List Bytes} :
      u.phase = .writing (transfer :: rest) → attached = true → u.pipe.failIn = some 0 →
      Move attached u { u with phase := .silent, pipe.failIn := none } [.failed]

/-- Where the loop waits: for a host, for a packet, or within a frame for the host to take more. -/
inductive Waits (attached : Bool) (u : Uplink) : Prop where
  | host : u.phase = .silent → attached = false → Waits attached u
  | packet : u.phase = .ready → u.items = [] → Waits attached u
  | astray : u.phase = .writing [] → u.items = [] → Waits attached u
  | budget : u.phase = .writing (transfer :: rest) → attached = true → u.pipe.failIn ≠ some 0 →
      u.pipe.budget = some 0 → Waits attached u

variable {attached : Bool} {u v : Uplink} {events : List InEvent}

theorem transmit_nil (h : u.items = []) : u.outbound.transmit u.room = (u.outbound, .ok none) :=
  Outbound.transmit_nil u.room h

theorem transmit_cons {p : Packet} {queue : List Packet} (h : u.items = p :: queue) :
    u.outbound.transmit u.room =
      if (u.frame p).length ≤ u.room then (u.outbound, .ok (some (u.frame p)))
      else ({ u.outbound with
        channel := u.outbound.channel.rest
        stats.oversize := u.outbound.stats.oversize + 1 }, .error .noSpace) :=
  Outbound.transmit_cons u.room h

theorem Move.step (h : Move attached u v events) : u.step attached = some (v, events) := by
  cases h with
  | announce silent there heard =>
    simp [Uplink.step, silent, there, InPipe.notify, heard, proceed, InEvent.succeeded]
  | unheard silent there failing =>
    simp [Uplink.step, silent, there, InPipe.notify, failing, proceed, InEvent.succeeded]
  | start ready queued fits => simp [Uplink.step, ready, transmit_cons queued, fits]
  | drop ready queued long =>
    simp [Uplink.step, ready, transmit_cons queued, Nat.not_le.mpr long]
  | finish done queued =>
    simp [Uplink.step, done, Outbound.transmitDone?, Channel.pop?_cons queued]
  | write writing there sound room =>
    simp [Uplink.step, writing, there, InPipe.write, sound, room, proceed, InEvent.succeeded]
  | off writing away => simp [Uplink.step, writing, away, InPipe.write, proceed, InEvent.succeeded]
  | fail writing there broken =>
    simp [Uplink.step, writing, there, InPipe.write, broken, proceed, InEvent.succeeded]

theorem Waits.step (h : u.Waits attached) : u.step attached = none := by
  cases h with
  | host silent away => simp [Uplink.step, silent, away]
  | packet ready empty => simp [Uplink.step, ready, transmit_nil empty]
  | astray done empty => simp [Uplink.step, done, Outbound.transmitDone?, Channel.pop?_nil empty]
  | budget writing there sound full =>
    simp [Uplink.step, writing, there, InPipe.write, sound, full]

theorem waits_or_move (attached : Bool) (u : Uplink) :
    u.Waits attached ∨ ∃ v events, Move attached u v events := by
  cases phase : u.phase with
  | silent =>
    cases attached with
    | false => exact .inl (.host phase rfl)
    | true =>
      cases failing : u.pipe.failNotify with
      | zero => exact .inr ⟨_, _, .announce phase rfl failing⟩
      | succ n => exact .inr ⟨_, _, .unheard phase rfl failing⟩
  | ready =>
    cases queued : u.items with
    | nil => exact .inl (.packet phase queued)
    | cons p queue =>
      by_cases fits : (u.frame p).length ≤ u.room
      · exact .inr ⟨_, _, .start phase queued fits⟩
      · exact .inr ⟨_, _, .drop phase queued (Nat.not_le.mp fits)⟩
  | writing rest =>
    cases rest with
    | nil =>
      cases queued : u.items with
      | nil => exact .inl (.astray phase queued)
      | cons p queue => exact .inr ⟨_, _, .finish phase queued⟩
    | cons transfer rest =>
      cases attached with
      | false => exact .inr ⟨_, _, .off phase rfl⟩
      | true =>
        by_cases broken : u.pipe.failIn = some 0
        · exact .inr ⟨_, _, .fail phase rfl broken⟩
        · by_cases full : u.pipe.budget = some 0
          · exact .inl (.budget phase rfl broken full)
          · exact .inr ⟨_, _, .write phase rfl broken full⟩

theorem step_eq_some_iff : u.step attached = some (v, events) ↔ Move attached u v events := by
  constructor
  · intro stepped
    rcases waits_or_move attached u with waits | ⟨w, others, move⟩
    · rw [waits.step] at stepped
      cases stepped
    · rw [move.step] at stepped
      cases stepped
      exact move
  · exact Move.step

theorem step_eq_none_iff : u.step attached = none ↔ u.Waits attached := by
  constructor
  · intro stuck
    rcases waits_or_move attached u with waits | ⟨v, events, move⟩
    · exact waits
    · rw [move.step] at stuck
      cases stuck
  · exact Waits.step

/-- What every move keeps is kept by a run. -/
theorem runs_keep {P : Uplink → Prop}
    (keep : ∀ {u v events}, Move attached u v events → P u → P v)
    (h : (loop attached).Runs u events v) (start : P u) : P v := by
  induction h with
  | wait => exact start
  | next stepped _ ih => exact ih (keep (step_eq_some_iff.mp stepped) start)

end Uplink

namespace Device

theorem turn_uplink_waits (d : Device) (action : DeviceAction) :
    (d.turn action).1.uplink.Waits (d.turn action).1.attached := by
  rw [turn_attached]
  exact Uplink.step_eq_none_iff.mp (d.turn_uplink action).waits

/-- Between turns the loop to the host waits. -/
theorem run_uplink_waits (d : Device) (actions : List DeviceAction)
    (waits : d.uplink.Waits d.attached) :
    (d.run actions).1.uplink.Waits (d.run actions).1.attached := by
  induction actions generalizing d with
  | nil => exact waits
  | cons action actions ih => exact ih _ (d.turn_uplink_waits action)

end Device
end UsbEthernet
