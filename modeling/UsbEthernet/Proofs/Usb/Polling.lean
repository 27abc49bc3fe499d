import Mathlib
import UsbEthernet.Usb.Device

/-! Runs of a polled loop as a relation, whose induction principle is what the two loops of a
device are reasoned about with, and the turns of a device taken apart into those runs. -/
namespace UsbEthernet

section
variable {σ ε μ : Type} [WellFoundedRelation μ]

/-- The loop goes from one state to another, in which it has to wait. -/
inductive Loop.Runs (loop : Loop σ ε μ) : σ → List ε → σ → Prop where
  | wait : loop.step s = none → Runs loop s [] s
  | next : loop.step s = some (t, events) → Runs loop t rest u → Runs loop s (events ++ rest) u

namespace Loop
variable {loop : Loop σ ε μ} {s t : σ} {events : List ε}

theorem poll_wait (h : loop.step s = none) : loop.poll s = (s, []) := by
  rw [poll]
  split
  · rfl
  · rename_i stepped
    rw [h] at stepped
    cases stepped

theorem poll_next (h : loop.step s = some (t, events)) :
    loop.poll s = ((loop.poll t).1, events ++ (loop.poll t).2) := by
  rw [poll]
  split
  · rename_i stepped
    rw [h] at stepped
    cases stepped
  · rename_i stepped
    rw [h] at stepped
    cases stepped
    rfl

theorem runs_poll (loop : Loop σ ε μ) (s : σ) : loop.Runs s (loop.poll s).2 (loop.poll s).1 := by
  cases h : loop.step s with
  | none =>
    rw [poll_wait h]
    exact .wait h
  | some stepped =>
    rw [poll_next h]
    exact .next h (runs_poll loop stepped.1)
termination_by loop.measure s
decreasing_by exact loop.descends h

theorem Runs.waits (h : loop.Runs s events t) : loop.step t = none := by
  induction h with
  | wait waits => exact waits
  | next _ _ ih => exact ih

end Loop
end

theorem Settings.maxPacket_of_config {settings : Settings} {config : Config}
    (h : settings.config = .ok config) : config.maxPacket = settings.maxPacket := by
  unfold Settings.config Config.ofTexts at h
  cases host : MacAddr.parse settings.host with
  | error e => simp [host, bind, Except.bind] at h
  | ok hostMac =>
    cases device : MacAddr.parse settings.device with
    | error e => simp [host, device, bind, Except.bind] at h
    | ok deviceMac =>
      simp only [host, device, bind, Except.bind, Config.make] at h
      split at h
      · cases h
        rfl
      · cases h

/-- Whether a host is attached after the action. -/
def DeviceAction.leaves (attached : Bool) : DeviceAction → Bool
  | .host .attach => true
  | .host .detach => false
  | _ => attached

/-- How often the actions detach a device that is attached. -/
def detachments : Bool → List DeviceAction → Nat
  | _, [] => 0
  | attached, action :: rest =>
    (attached && !action.leaves attached).toNat + detachments (action.leaves attached) rest

/-- How often the actions attach a device that is detached. -/
def attachments : Bool → List DeviceAction → Nat
  | _, [] => 0
  | attached, action :: rest =>
    (!attached && action.leaves attached).toNat + attachments (action.leaves attached) rest

def Event.toHost? : Event → Option InEvent
  | toHost e => some e
  | fromHost _ => none

def Event.fromHost? : Event → Option OutEvent
  | toHost _ => none
  | fromHost e => some e

namespace Device

/-- What became of the transfers and notifications to the host. -/
def Turn.sent (t : Turn) : List InEvent :=
  t.events.filterMap Event.toHost?

/-- What became of the reads. -/
def Turn.received (t : Turn) : List OutEvent :=
  t.events.filterMap Event.fromHost?

/-- The actions of a run, each with the turn it leads to. -/
def history (d : Device) (actions : List DeviceAction) : List (DeviceAction × Turn) :=
  actions.zip (d.run actions).2

theorem history_cons (d : Device) (action : DeviceAction) (actions : List DeviceAction) :
    d.history (action :: actions) =
      (action, (d.turn action).2) :: (d.turn action).1.history actions := rfl

theorem run_cons (d : Device) (action : DeviceAction) (actions : List DeviceAction) :
    (d.run (action :: actions)).1 = ((d.turn action).1.run actions).1 := rfl

/-- A device as it is made: detached, with empty queues, and with nothing counted or pending. -/
def initial (config : Config) (mtu interface inboundRoom outboundRoom : Nat) : Device where
  uplink := {
    maxPacket := config.maxPacket
    interface
    outbound := {
      hostMac := config.hostMac
      deviceMac := config.deviceMac
      mtu
      channel := { capacity := outboundRoom } } }
  downlink := {
    inbound := {
      reassembler := { maxPacket := config.maxPacket }
      channel := { capacity := inboundRoom } } }

theorem create_initial {settings : Settings} {strings interfaces inboundRoom outboundRoom : Nat}
    {d : Device} (created : create settings strings interfaces inboundRoom outboundRoom = .ok d) :
    ∃ config, settings.config = .ok config ∧ 0 < inboundRoom ∧ 0 < outboundRoom ∧
      d = initial config settings.mtu interfaces inboundRoom outboundRoom := by
  unfold create Gadget.ofSettings at created
  cases valid : settings.config with
  | error e => simp [valid] at created
  | ok config =>
    simp only [valid, Nic.create, Nic.ofSettings, Nic.build] at created
    by_cases rooms : 0 < inboundRoom ∧ 0 < outboundRoom
    · by_cases mtu : 0 < settings.mtu ∧ settings.mtu ≤ maxPayload
      · simp only [if_pos rooms, if_pos mtu] at created
        cases created
        exact ⟨config, rfl, rooms.1, rooms.2, rfl⟩
      · simp [if_pos rooms, if_neg mtu] at created
    · simp [if_neg rooms] at created

theorem act_attached (d : Device) (action : DeviceAction) :
    (d.act action).1.attached = action.leaves d.attached := by
  cases action with
  | host action => cases action <;> rfl
  | send | pop | limit | refuse | reset => rfl

theorem turn_attached (d : Device) (action : DeviceAction) :
    (d.turn action).1.attached = action.leaves d.attached :=
  d.act_attached action

theorem run_attached (d : Device) (actions : List DeviceAction) :
    (d.run actions).1.attached = actions.foldl DeviceAction.leaves d.attached := by
  induction actions generalizing d with
  | nil => rfl
  | cons action actions ih => rw [run_cons, ih, turn_attached, List.foldl_cons]

theorem turn_reply (d : Device) (action : DeviceAction) :
    (d.turn action).2.reply = (d.act action).2 := rfl

private theorem toHost_events (sent : List InEvent) (received : List OutEvent) :
    (sent.map Event.toHost ++ received.map Event.fromHost).filterMap Event.toHost? = sent := by
  simp [List.filterMap_append, List.filterMap_map, Function.comp_def, Event.toHost?]

private theorem fromHost_events (sent : List InEvent) (received : List OutEvent) :
    (sent.map Event.toHost ++ received.map Event.fromHost).filterMap Event.fromHost? =
      received := by
  simp [List.filterMap_append, List.filterMap_map, Function.comp_def, Event.fromHost?]

theorem turn_uplink (d : Device) (action : DeviceAction) :
    (Uplink.loop (action.leaves d.attached)).Runs (d.act action).1.uplink (d.turn action).2.sent
      (d.turn action).1.uplink := by
  rw [← act_attached, show (d.turn action).2.sent = _ from toHost_events _ _]
  exact Loop.runs_poll _ _

theorem turn_downlink (d : Device) (action : DeviceAction) :
    (Downlink.loop (action.leaves d.attached)).Runs (d.act action).1.downlink
      (d.turn action).2.received (d.turn action).1.downlink := by
  rw [← act_attached, show (d.turn action).2.received = _ from fromHost_events _ _]
  exact Loop.runs_poll _ _

end Device
end UsbEthernet
