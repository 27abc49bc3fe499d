import UsbEthernet.Proofs.Usb.Polling

/-! The two directions of a device share the attachment and nothing else. An action that is made
for one of them is followed by a poll of both loops, yet the poll leaves a loop that waits alone;
so whatever is done for one direction, the other shows the same as without it. -/
namespace UsbEthernet

section
variable {σ ε μ : Type} [WellFoundedRelation μ] {loop : Loop σ ε μ} {s t : σ} {events : List ε}

theorem Loop.Runs.poll_eq (h : loop.Runs s events t) : loop.poll s = (t, events) := by
  induction h with
  | wait waits => exact poll_wait waits
  | next stepped _ ih => rw [poll_next stepped, ih]

end

namespace DeviceAction

/-- Made for the direction to the host alone. -/
def isTransmit : DeviceAction → Bool
  | send .. | limit _ | host (.budget _) | host (.failIn _) | host (.failNotify _) => true
  | pop | refuse _ | reset | host (.out _) | host .outFailed | host .attach | host .detach => false

/-- Made for the direction from the host alone. -/
def isReceive : DeviceAction → Bool
  | pop | refuse _ | reset | host (.out _) | host .outFailed => true
  | send .. | limit _ | host (.budget _) | host (.failIn _) | host (.failNotify _)
  | host .attach | host .detach => false

theorem leaves_of_isTransmit {action : DeviceAction} (attached : Bool)
    (transmits : action.isTransmit = true) : action.leaves attached = attached := by
  cases action with
  | host action =>
    cases action with
    | attach | detach => cases transmits
    | out | outFailed | budget | failIn | failNotify => rfl
  | send | pop | limit | refuse | reset => rfl

theorem leaves_of_isReceive {action : DeviceAction} (attached : Bool)
    (receives : action.isReceive = true) : action.leaves attached = attached := by
  cases action with
  | host action =>
    cases action with
    | attach | detach => cases receives
    | out | outFailed | budget | failIn | failNotify => rfl
  | send | pop | limit | refuse | reset => rfl

end DeviceAction

namespace Device
variable {d e : Device} {action : DeviceAction}

theorem act_uplink_eq (own : action.isReceive = false) (same : d.uplink = e.uplink) :
    (d.act action).1.uplink = (e.act action).1.uplink ∧ (d.act action).2 = (e.act action).2 := by
  obtain ⟨_, uplink, _⟩ := d
  obtain ⟨_, _, _⟩ := e
  cases same
  cases action with
  | host action => cases action <;> exact ⟨rfl, rfl⟩
  | send | limit => exact ⟨rfl, rfl⟩
  | pop | refuse | reset => cases own

theorem act_downlink_eq (own : action.isTransmit = false) (same : d.downlink = e.downlink) :
    (d.act action).1.downlink = (e.act action).1.downlink ∧ (d.act action).2 = (e.act action).2 := by
  obtain ⟨_, _, downlink⟩ := d
  obtain ⟨_, _, _⟩ := e
  cases same
  cases action with
  | host action => cases action <;> exact ⟨rfl, rfl⟩
  | pop | refuse | reset => exact ⟨rfl, rfl⟩
  | send | limit => cases own

theorem act_uplink_of_isReceive (receives : action.isReceive = true) :
    (d.act action).1.uplink = d.uplink := by
  cases action with
  | host action =>
    cases action with
    | out | outFailed => rfl
    | attach | detach | budget | failIn | failNotify => cases receives
  | pop | refuse | reset => rfl
  | send | limit => cases receives

theorem act_downlink_of_isTransmit (transmits : action.isTransmit = true) :
    (d.act action).1.downlink = d.downlink := by
  cases action with
  | host action =>
    cases action with
    | budget | failIn | failNotify => rfl
    | attach | detach | out | outFailed => cases transmits
  | send | limit => rfl
  | pop | refuse | reset => cases transmits

/-- One of the directions of a device: the part of the device that carries it, with the loop on
this part, and what can be seen of it. Nothing else of the device has an influence on the part. -/
structure Direction (σ ε μ ν : Type) [WellFoundedRelation μ] where
  /-- The action is made for the other direction alone. -/
  isForeign : DeviceAction → Bool
  part : Device → σ
  loop : Bool → Loop σ ε μ
  events : Turn → List ε
  counters : Observation → ν
  act_eq : ∀ {d e : Device} {action : DeviceAction}, isForeign action = false →
    part d = part e →
    part (d.act action).1 = part (e.act action).1 ∧ (d.act action).2 = (e.act action).2
  act_foreign : ∀ {d : Device} {action : DeviceAction}, isForeign action = true →
    part (d.act action).1 = part d
  leaves_foreign : ∀ {action : DeviceAction} (attached : Bool), isForeign action = true →
    action.leaves attached = attached
  runs : ∀ (d : Device) (action : DeviceAction), (loop (action.leaves d.attached)).Runs
    (part (d.act action).1) (events (d.turn action).2) (part (d.turn action).1)
  counters_eq : ∀ {d e : Device}, part d = part e →
    counters d.nic.observe = counters e.nic.observe

namespace Direction

/-- The direction to the host: the writes, and what is counted of the packets for it. -/
def toHost : Direction Uplink InEvent Uplink.Measure (TxStats × Counter) where
  isForeign := DeviceAction.isReceive
  part := Device.uplink
  loop := Uplink.loop
  events := Turn.sent
  counters o := (o.tx, o.outDropped)
  act_eq := act_uplink_eq
  act_foreign := act_uplink_of_isReceive
  leaves_foreign := DeviceAction.leaves_of_isReceive
  runs := turn_uplink
  counters_eq same := congrArg (fun u : Uplink => (u.outbound.stats, u.outbound.dropped)) same

/-- The direction from the host: the reads, and what is counted of the packets from it. -/
def fromHost : Direction Downlink OutEvent Nat (RxStats × Counter × Nat) where
  isForeign := DeviceAction.isTransmit
  part := Device.downlink
  loop := Downlink.loop
  events := Turn.received
  counters o := (o.rx, o.inDropped, o.inLength)
  act_eq := act_downlink_eq
  act_foreign := act_downlink_of_isTransmit
  leaves_foreign := DeviceAction.leaves_of_isTransmit
  runs := turn_downlink
  counters_eq same := congrArg (fun d : Downlink =>
    (d.inbound.reassembler.stats, d.inbound.dropped, d.inbound.channel.items.length)) same

/-- What a turn shows of a direction. -/
structure View (ε ν : Type) where
  reply : StackReply
  events : List ε
  counters : ν

variable {σ ε μ ν : Type} [WellFoundedRelation μ]

def view (dir : Direction σ ε μ ν) (t : Turn) : View ε ν :=
  ⟨t.reply, dir.events t, dir.counters t.state⟩

/-- What is seen in the turns that are not made for the other direction. -/
def views (dir : Direction σ ε μ ν) (d : Device) (actions : List DeviceAction) : List (View ε ν) :=
  ((d.history actions).filter fun entry => !dir.isForeign entry.1).map fun entry =>
    dir.view entry.2

/-- The events of all turns. -/
def log (dir : Direction σ ε μ ν) (d : Device) (actions : List DeviceAction) : List ε :=
  (d.history actions).flatMap fun entry => dir.events entry.2

theorem views_cons (dir : Direction σ ε μ ν) (d : Device) (action : DeviceAction)
    (actions : List DeviceAction) :
    dir.views d (action :: actions) =
      (if dir.isForeign action then [] else [dir.view (d.turn action).2]) ++
        dir.views (d.turn action).1 actions := by
  cases foreign : dir.isForeign action <;> simp [views, history_cons, foreign]

theorem log_cons (dir : Direction σ ε μ ν) (d : Device) (action : DeviceAction)
    (actions : List DeviceAction) :
    dir.log d (action :: actions) =
      dir.events (d.turn action).2 ++ dir.log (d.turn action).1 actions := by
  rw [log, history_cons, List.flatMap_cons, log]

/-- The loop of the direction cannot go on. -/
def Waits (dir : Direction σ ε μ ν) (d : Device) : Prop :=
  (dir.loop d.attached).step (dir.part d) = none

variable {dir : Direction σ ε μ ν}

theorem turn_waits (d : Device) (action : DeviceAction) : dir.Waits (d.turn action).1 := by
  rw [Waits, turn_attached]
  exact (dir.runs d action).waits

/-- A turn that is made for the direction depends on nothing but its part and the attachment. -/
theorem turn_own (own : dir.isForeign action = false) (attached : d.attached = e.attached)
    (same : dir.part d = dir.part e) :
    dir.part (d.turn action).1 = dir.part (e.turn action).1 ∧
      dir.view (d.turn action).2 = dir.view (e.turn action).2 := by
  obtain ⟨acted, reply⟩ := dir.act_eq own same
  have polled := (dir.runs d action).poll_eq
  rw [acted, attached, (dir.runs e action).poll_eq] at polled
  obtain ⟨part, events⟩ := Prod.mk.inj polled
  constructor
  · exact part.symm
  · have counters : dir.counters (e.turn action).2.state = dir.counters (d.turn action).2.state :=
      dir.counters_eq part
    rw [view, view, turn_reply, turn_reply, reply, events, counters]

/-- The poll after an action for the other direction finds the loop as it has waited. -/
theorem turn_foreign (foreign : dir.isForeign action = true) (waits : dir.Waits d) :
    dir.part (d.turn action).1 = dir.part d ∧ dir.events (d.turn action).2 = [] := by
  have polled := (dir.runs d action).poll_eq
  rw [dir.act_foreign foreign, dir.leaves_foreign _ foreign, Loop.poll_wait waits] at polled
  obtain ⟨part, events⟩ := Prod.mk.inj polled
  exact ⟨part.symm, events.symm⟩

/-- The run shows what it shows without the actions for the other direction. The two runs are of
different lengths; what they have in common between their turns is the part and the attachment. -/
theorem run_filter (waits : dir.Waits d) (attached : d.attached = e.attached)
    (same : dir.part d = dir.part e) (actions : List DeviceAction) :
    dir.views d actions = dir.views e (actions.filter (!dir.isForeign ·)) ∧
      dir.log d actions = dir.log e (actions.filter (!dir.isForeign ·)) := by
  induction actions generalizing d e with
  | nil => exact ⟨rfl, rfl⟩
  | cons action actions ih =>
    have next := dir.turn_waits d action
    cases foreign : dir.isForeign action with
    | true =>
      obtain ⟨part, events⟩ := turn_foreign foreign waits
      have left : (d.turn action).1.attached = e.attached := by
        rw [turn_attached, dir.leaves_foreign _ foreign, attached]
      obtain ⟨views, log⟩ := ih next left (part.trans same)
      rw [views_cons, log_cons, List.filter_cons, foreign, events]
      exact ⟨views, log⟩
    | false =>
      obtain ⟨part, view⟩ := turn_own foreign attached same
      have left : (d.turn action).1.attached = (e.turn action).1.attached := by
        rw [turn_attached, turn_attached, attached]
      obtain ⟨views, log⟩ := ih next left part
      have events : dir.events (d.turn action).2 = dir.events (e.turn action).2 :=
        congrArg View.events view
      have kept : (action :: actions).filter (!dir.isForeign ·) =
          action :: actions.filter (!dir.isForeign ·) :=
        List.filter_cons_of_pos (by rw [foreign]; rfl)
      rw [kept, views_cons, views_cons, log_cons, log_cons, view, events, views, log]
      exact ⟨rfl, rfl⟩

theorem eq_of_filter_eq (waits : dir.Waits d) {actions others : List DeviceAction}
    (same : actions.filter (!dir.isForeign ·) = others.filter (!dir.isForeign ·)) :
    dir.views d actions = dir.views d others ∧ dir.log d actions = dir.log d others := by
  obtain ⟨views, log⟩ := run_filter waits rfl rfl actions
  obtain ⟨others_views, others_log⟩ := run_filter waits rfl rfl others
  constructor
  · rw [views, same, others_views]
  · rw [log, same, others_log]

end Direction

/-- Two runs of a new device that differ in actions made for the direction to the host show the
same of the other one: the same reads over the whole run, and after each action that both have the
same answer to the stack, reads, counters and number of packets that wait. Likewise two runs that
differ in actions made for the direction from the host show the same writes, answers and counters
of the direction to it. -/
theorem run_separates {settings : Settings} {strings interfaces inboundRoom outboundRoom : Nat}
    {d : Device}
    (created : create settings strings interfaces inboundRoom outboundRoom = .ok d)
    (actions others : List DeviceAction) :
    (actions.filter (!·.isTransmit) = others.filter (!·.isTransmit) →
      Direction.fromHost.views d actions = Direction.fromHost.views d others ∧
      Direction.fromHost.log d actions = Direction.fromHost.log d others) ∧
    (actions.filter (!·.isReceive) = others.filter (!·.isReceive) →
      Direction.toHost.views d actions = Direction.toHost.views d others ∧
      Direction.toHost.log d actions = Direction.toHost.log d others) := by
  obtain ⟨config, -, -, -, rfl⟩ := create_initial created
  let first := initial config settings.mtu interfaces inboundRoom outboundRoom
  constructor
  · intro same
    have waits : Direction.fromHost.Waits first := rfl
    exact Direction.eq_of_filter_eq waits same
  · intro same
    have waits : Direction.toHost.Waits first := rfl
    exact Direction.eq_of_filter_eq waits same

/-- A host that takes no transfers, with a packet waiting for it, still gets its own packet to the
stack; and a device that is sent transfers still writes up to the same point. -/
theorem run_separates_stalled :
    let config : Config := ⟨⟨0x1a, 0x55, 0x89, 0xa2, 0x69, 0x41⟩,
      ⟨0x1a, 0x55, 0x89, 0xa2, 0x69, 0x42⟩, 14, by decide, by decide⟩
    let d := initial config 1500 0 1 1
    let frame := List.replicate 13 (0 : UInt8)
    let actions : List DeviceAction := [.host .attach, .host (.budget (some 0)),
      .host (.out [frame ++ [1], [2]]), .send .ipv4 [[3]], .pop]
    let receiving : List DeviceAction := [.host .attach, .host (.out [frame ++ [1], [2]]), .pop]
    let sending : List DeviceAction := [.host .attach, .host (.budget (some 0)), .send .ipv4 [[3]]]
    create { maxPacket := 14 } 0 0 1 1 = .ok d ∧
      actions.filter (!·.isTransmit) = receiving.filter (!·.isTransmit) ∧
      actions.filter (!·.isReceive) = sending.filter (!·.isReceive) ∧
      Direction.fromHost.log d actions = [.data (frame ++ [1]), .data [2]] ∧
      Direction.toHost.log d actions = [.notified (connectionNotice 0 true)] := by
  intro config d frame actions receiving sending
  have created : create { maxPacket := 14 } 0 0 1 1 = .ok d := rfl
  have reads : actions.filter (!·.isTransmit) = receiving.filter (!·.isTransmit) := by decide
  have writes : actions.filter (!·.isReceive) = sending.filter (!·.isReceive) := by decide
  refine ⟨created, reads, writes, ?_, ?_⟩
  · rw [((run_separates created actions receiving).1 reads).2]
    cbv
  · rw [((run_separates created actions sending).2 writes).2]
    cbv

end Device
end UsbEthernet
