import UsbEthernet.Proofs.Usb.Receiving
import UsbEthernet.Proofs.Usb.Sending

/-! What a poll leaves behind. Both loops come to wait after finitely many steps: the loop from the
host for more transfers or, with no frame open, for a host; the loop to the host for a packet or
for a host, unless the host takes no more of the frame that is being written. Nothing but an action
gets a device out of such a state. -/
namespace UsbEthernet

section
variable {σ ε μ : Type} [WellFoundedRelation μ]

/-- A number of steps of the loop, with the events of all of them. -/
inductive Loop.Steps (loop : Loop σ ε μ) : Nat → σ → List ε → σ → Prop where
  | zero : Steps loop 0 s [] s
  | next : loop.step s = some (t, events) → Steps loop n t rest u →
      Steps loop (n + 1) s (events ++ rest) u

theorem Loop.Runs.steps {loop : Loop σ ε μ} {s t : σ} {events : List ε}
    (h : loop.Runs s events t) : ∃ n, loop.Steps n s events t := by
  induction h with
  | wait => exact ⟨0, .zero⟩
  | next stepped _ ih =>
    obtain ⟨n, steps⟩ := ih
    exact ⟨n + 1, .next stepped steps⟩

/-- A poll takes finitely many steps to a state in which the loop waits. -/
theorem Loop.poll_steps (loop : Loop σ ε μ) (s : σ) :
    (∃ n, loop.Steps n s (loop.poll s).2 (loop.poll s).1) ∧ loop.step (loop.poll s).1 = none :=
  ⟨(loop.runs_poll s).steps, (loop.runs_poll s).waits⟩

end

namespace Uplink
variable {u : Uplink} {written : List Bytes}

/-- No packet is left once the connection is announced. -/
def Drained (u : Uplink) : Prop :=
  u.phase = .ready ∧ u.items = []

/-- Within a frame the host takes no more, and nothing else holds up the next transfer. -/
def HeldUp (u : Uplink) : Prop :=
  ∃ transfer rest, u.phase = .writing (transfer :: rest) ∧ u.pipe.budget = some 0 ∧
    ∀ budget, budget ≠ some 0 →
      ∃ v, Uplink.step true { u with pipe.budget := budget } = some (v, [.data transfer])

theorem Waits.attached (waits : u.Waits true) (begun : u.Written written) :
    u.Drained ∨ u.HeldUp := by
  cases waits with
  | host _ away => cases away
  | packet ready empty => exact .inl ⟨ready, empty⟩
  | astray done empty => exact absurd empty (begun.items_ne_nil done)
  | budget writing there sound full =>
    refine .inr ⟨_, _, writing, full, ?_⟩
    intro budget more
    exact ⟨_, (Move.write (u := { u with pipe.budget := budget }) writing there sound more).step⟩

theorem Waits.detached (waits : u.Waits false) (begun : u.Written written) :
    u.phase = .silent ∨ u.Drained := by
  cases waits with
  | host silent => exact .inl silent
  | packet ready empty => exact .inr ⟨ready, empty⟩
  | astray done empty => exact absurd empty (begun.items_ne_nil done)
  | budget _ there => cases there

end Uplink

/-- No part of a frame is held. -/
def Reassembler.IsClear (r : Reassembler) : Prop :=
  r.phase = .idle ∧ r.buffer = []

namespace Downlink
variable {attached : Bool} {d e : Downlink} {events : List OutEvent}

/-- The loop waits for a host with no frame open. -/
def AwaitsClear (d : Downlink) : Prop :=
  d.reading = false → d.inbound.reassembler.IsClear

theorem handle_clear (d : Downlink) (reading : d.reading = true) (event : OutEvent) :
    (d.handle event).AwaitsClear := by
  cases event with
  | data transfer =>
    intro idle
    simp only [handle] at idle
    split at idle <;> exact absurd (reading.symm.trans idle) (by decide)
  | off | failed | overflow => exact fun _ => ⟨rfl, rfl⟩

theorem Move.clear (h : Move attached d e events) : e.AwaitsClear := by
  cases h with
  | off reading | read reading =>
    apply handle_clear
    exact reading
  | start => exact fun idle => absurd idle (by simp)

theorem runs_clear (h : (loop attached).Runs d events e) (clear : d.AwaitsClear) :
    e.AwaitsClear := by
  induction h with
  | wait => exact clear
  | next stepped _ ih => exact ih (move_of_step stepped).clear

end Downlink

namespace Device

/-- The states that actions and polls lead to, in whatever order. -/
inductive Reaches (d : Device) : Device → Prop where
  | refl : Reaches d d
  | act {e : Device} (action : DeviceAction) : Reaches d e → Reaches d (e.act action).1
  | poll {e : Device} : Reaches d e → Reaches d e.poll.1

theorem Reaches.run {d e : Device} (h : d.Reaches e) (actions : List DeviceAction) :
    d.Reaches (e.run actions).1 := by
  induction actions generalizing e with
  | nil => exact h
  | cons action actions ih => exact ih (.poll (.act action h))

/-- What holds at every point of a run, before and after polls: of an open attempt the rest of its
frame is to come, and where the loop from the host waits for one, no frame is open. -/
structure Coherent (d : Device) : Prop where
  written : ∃ written, d.uplink.Written written
  clear : d.downlink.AwaitsClear

theorem act_clear (d : Device) (action : DeviceAction) (clear : d.downlink.AwaitsClear) :
    (d.act action).1.downlink.AwaitsClear := by
  rw [act_downlink]
  intro idle
  have before := clear idle
  cases action with
  | reset => exact ⟨rfl, rfl⟩
  | pop =>
    rw [show (d.downlink.inbound.serve _).1 = d.downlink.inbound.pop.1 from rfl,
      Inbound.reassembler_pop]
    exact before
  | host action => cases action <;> exact before
  | send | limit | refuse => exact before

theorem Coherent.act {d : Device} (coherent : d.Coherent) (action : DeviceAction) :
    (d.act action).1.Coherent := by
  obtain ⟨⟨written, begun⟩, clear⟩ := coherent
  exact ⟨⟨written, (d.act_serves action begun).1.open_attempt⟩, d.act_clear action clear⟩

theorem Coherent.poll {d : Device} (coherent : d.Coherent) : d.poll.1.Coherent := by
  obtain ⟨⟨written, begun⟩, clear⟩ := coherent
  obtain ⟨_, unfinished, serves, _⟩ := Uplink.runs_serve (Loop.runs_poll _ d.uplink) begun
  exact ⟨⟨unfinished, serves.open_attempt⟩, Downlink.runs_clear (Loop.runs_poll _ d.downlink) clear⟩

theorem Coherent.reaches {d e : Device} (coherent : d.Coherent) (h : d.Reaches e) :
    e.Coherent := by
  induction h with
  | refl => exact coherent
  | act action _ ih => exact ih.act action
  | poll _ ih => exact ih.poll

/-- A poll at a point where both loops wait does nothing. -/
theorem poll_waits {d : Device} (uplink : d.uplink.Waits d.attached)
    (downlink : (Downlink.loop d.attached).step d.downlink = none) : d.poll = (d, []) := by
  have sent : (Uplink.loop d.attached).poll d.uplink = (d.uplink, []) :=
    Loop.poll_wait uplink.step
  simp only [poll, sent, Loop.poll_wait downlink, List.map_nil, List.append_nil]

/-- A poll of a new device at any point of a run takes finitely many steps, those of the loop to
the host and then those of the loop from it. With a host it leaves nothing of the host's queue
unread, and a packet only where the host takes no more transfers and nothing else is in the way;
without one it leaves no frame open and no frame begun. Another poll does nothing. -/
theorem poll_comes_to_rest {settings : Settings}
    {strings interfaces inboundRoom outboundRoom : Nat} {d e : Device}
    (created : create settings strings interfaces inboundRoom outboundRoom = .ok d)
    (reached : d.Reaches e) :
    let next := e.poll.1
    (∃ m n sent received,
      (Uplink.loop e.attached).Steps m e.uplink sent next.uplink ∧
      next.uplink.step e.attached = none ∧
      (Downlink.loop e.attached).Steps n e.downlink received next.downlink ∧
      next.downlink.step e.attached = none ∧
      e.poll.2 = sent.map .toHost ++ received.map .fromHost) ∧
    next.attached = e.attached ∧
    (next.attached = true →
      next.downlink.pipe = [] ∧ next.downlink.reading = true ∧
        (next.uplink.Drained ∨ next.uplink.HeldUp)) ∧
    (next.attached = false →
      next.downlink.reading = false ∧ next.downlink.inbound.reassembler.IsClear ∧
        (next.uplink.phase = .silent ∨ next.uplink.Drained)) ∧
    (next.attached = true → next.uplink.items ≠ [] → next.uplink.HeldUp) ∧
    next.poll = (next, []) := by
  intro next
  obtain ⟨config, _, _, _, rfl⟩ := create_initial created
  have fresh : (initial config settings.mtu interfaces inboundRoom outboundRoom).Coherent :=
    ⟨⟨[], rfl⟩, fun _ => ⟨rfl, rfl⟩⟩
  obtain ⟨⟨written, begun⟩, clear⟩ := (fresh.reaches reached).poll
  obtain ⟨⟨m, sending⟩, sent⟩ := (Uplink.loop e.attached).poll_steps e.uplink
  obtain ⟨⟨n, receiving⟩, received⟩ := (Downlink.loop e.attached).poll_steps e.downlink
  have uplink : next.uplink.Waits next.attached := Uplink.step_eq_none_iff.mp sent
  have downlink : next.downlink.Waits next.attached := Downlink.waits_of_step received
  have with_host (there : next.attached = true) : next.uplink.Drained ∨ next.uplink.HeldUp := by
    rw [there] at uplink
    exact uplink.attached begun
  refine ⟨⟨m, n, _, _, sending, sent, receiving, received, rfl⟩, rfl, ?_, ?_, ?_, ?_⟩
  · intro there
    exact ⟨downlink.2 there, downlink.1.trans there, with_host there⟩
  · intro away
    have idle := downlink.1.trans away
    rw [away] at uplink
    exact ⟨idle, clear idle, uplink.detached begun⟩
  · intro there packets
    rcases with_host there with ⟨-, empty⟩ | held
    · exact absurd empty packets
    · exact held
  · exact poll_waits uplink received

/-- A host that takes one transfer leaves the device within the frame, and there it stays. -/
theorem poll_comes_to_rest_held_up :
    let config : Config := ⟨⟨0x1a, 0x55, 0x89, 0xa2, 0x69, 0x41⟩,
      ⟨0x1a, 0x55, 0x89, 0xa2, 0x69, 0x42⟩, 14, by decide, by decide⟩
    let d := initial config 1500 0 1 1
    let e := ((d.run [.send .ipv4 [[1], [2]], .host (.budget (some 1))]).1.act (.host .attach)).1
    let next := e.poll.1
    create { maxPacket := 14 } 0 0 1 1 = .ok d ∧ d.Reaches e ∧
      next.uplink.HeldUp ∧ next.poll = (next, []) := by
  intro config d e next
  have created : create { maxPacket := 14 } 0 0 1 1 = .ok d := rfl
  have reached : d.Reaches e := .act _ (Reaches.refl.run _)
  have there : next.attached = true := by cbv
  have queued : next.uplink.items = [⟨.ofProto .ipv4, [1, 2]⟩] := by cbv
  obtain ⟨-, -, -, -, held, rest⟩ := poll_comes_to_rest created reached
  have waiting : next.uplink.items ≠ [] := by
    rw [queued]
    exact List.cons_ne_nil _ _
  exact ⟨created, reached, held there waiting, rest⟩

end Device
end UsbEthernet
