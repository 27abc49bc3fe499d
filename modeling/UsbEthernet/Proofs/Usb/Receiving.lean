import UsbEthernet.Proofs.Reassembly
import UsbEthernet.Proofs.Usb.Polling

/-! The direction from the host over whole runs of a device. The host's queue is read from the
front and loses what is left only to a detach; and the stack sees what the segments of the good
transfers deliver, where every failed read and every reset is an abort. -/
namespace UsbEthernet

/-- What becomes of a queued transfer when it is read. -/
def OutTransfer.event : OutTransfer → OutEvent
  | data octets => if octets.length ≤ maxUsbPacket then .data octets else .overflow
  | failed => .failed

theorem OutTransfer.event_ne_off (transfer : OutTransfer) : transfer.event ≠ .off := by
  cases transfer with
  | data octets =>
    simp only [event]
    split <;> simp
  | failed => simp [event]

namespace OutEvent

/-- The refusals that are left after a read; only a good transfer uses one up. -/
def refusalsAfter (refusals : Nat) : OutEvent → Nat
  | data _ => refusals - 1
  | off | failed | overflow => refusals

/-- What a read is to the interface, which does not see a refused transfer. -/
def arrival? (refusals : Nat) : OutEvent → Option Arrival
  | data octets => if refusals = 0 then some (.transfer octets) else none
  | off | failed | overflow => some (.failed .rxFailure)

/-- What the reads of a turn are to the interface. -/
def arrivals (refusals : Nat) : List OutEvent → List Arrival
  | [] => []
  | event :: rest =>
    (event.arrival? refusals).toList ++ arrivals (event.refusalsAfter refusals) rest

end OutEvent

namespace Downlink

/-- The steps of the loop, each with what it needs. -/
inductive Move (attached : Bool) : Downlink → Downlink → List OutEvent → Prop where
  | off : d.reading = true → attached = false → Move attached d (d.handle .off) [.off]
  | read : d.reading = true → attached = true → d.pipe = transfer :: rest →
      Move attached d ({ d with pipe := rest }.handle transfer.event) [transfer.event]
  | start : d.reading = false → attached = true → Move attached d { d with reading := true } []

variable {attached : Bool} {d e : Downlink} {events : List OutEvent}

theorem move_of_step (h : d.step attached = some (e, events)) : Move attached d e events := by
  unfold step at h
  split at h
  · rename_i reading
    cases attached with
    | false =>
      cases h
      exact .off reading rfl
    | true =>
      cases queue : d.pipe with
      | nil => simp [queue, OutPipe.read] at h
      | cons transfer rest =>
        have read : OutPipe.read (transfer :: rest) true = some (rest, transfer.event) := by
          cases transfer <;> rfl
        rw [queue, read] at h
        cases h
        exact .read reading rfl queue
  · rename_i idle
    split at h
    · rename_i there
      cases h
      exact .start (by simpa using idle) there
    · cases h

/-- Where the loop waits, it reads just while a host is attached, and then nothing is queued. -/
def Waits (attached : Bool) (d : Downlink) : Prop :=
  d.reading = attached ∧ (attached = true → d.pipe = [])

theorem waits_of_step (h : d.step attached = none) : d.Waits attached := by
  unfold step at h
  split at h
  · rename_i reading
    cases attached with
    | false => cases h
    | true =>
      refine ⟨reading, ?_⟩
      intro _
      cases queue : d.pipe with
      | nil => rfl
      | cons transfer rest => cases transfer <;> simp [queue, OutPipe.read] at h
  · rename_i idle
    split at h
    · cases h
    · rename_i away
      simp only [Bool.not_eq_true] at idle away
      exact ⟨idle.trans away.symm, fun there => absurd (away.symm.trans there) (by decide)⟩

theorem handle_inbound (d : Downlink) (event : OutEvent) :
    (d.handle event).inbound = (event.arrival? d.refuse).toList.foldl Inbound.arrive d.inbound := by
  cases event with
  | data octets => by_cases h : d.refuse = 0 <;> simp [handle, OutEvent.arrival?, h, Inbound.arrive]
  | off | failed | overflow => rfl

theorem handle_refuse (d : Downlink) (event : OutEvent) :
    (d.handle event).refuse = event.refusalsAfter d.refuse := by
  cases event with
  | data octets => by_cases h : d.refuse = 0 <;> simp [handle, OutEvent.refusalsAfter, h]
  | off | failed | overflow => rfl

/-- Whatever the loop does, the interface is shown what the reads of the run are to it. -/
theorem runs_inbound (h : (loop attached).Runs d events e) :
    e.inbound = (OutEvent.arrivals d.refuse events).foldl Inbound.arrive d.inbound ∧
      e.refuse = events.foldl OutEvent.refusalsAfter d.refuse := by
  induction h with
  | wait => exact ⟨rfl, rfl⟩
  | next stepped _ ih =>
    obtain ⟨inbound, refuse⟩ := ih
    cases move_of_step stepped with
    | off reading away =>
      simp only [inbound, refuse, List.singleton_append, OutEvent.arrivals, List.foldl_cons,
        List.foldl_append, handle_inbound, handle_refuse, and_self]
    | read reading there queue =>
      simp only [inbound, refuse, List.singleton_append, OutEvent.arrivals, List.foldl_cons,
        List.foldl_append, handle_inbound, handle_refuse, and_self]
    | start idle there => exact ⟨inbound, refuse⟩

/-- While a host is attached everything in its queue is read, in the order of the queue. -/
theorem runs_attached (h : (loop true).Runs d events e) :
    events = d.pipe.map OutTransfer.event := by
  induction h with
  | wait waits => rw [(waits_of_step waits).2 rfl, List.map_nil]
  | next stepped _ ih =>
    cases move_of_step stepped with
    | off _ away => cases away
    | read _ _ queue => rw [ih, queue, pipe_handle, List.map_cons, List.singleton_append]
    | start _ _ => exact ih

/-- Without a host the only read is the one that fails for it. -/
theorem runs_detached (h : (loop false).Runs d events e) :
    events = (if d.reading then [.off] else []) ∧ e.pipe = d.pipe := by
  induction h with
  | wait waits => simp [(waits_of_step waits).1]
  | next stepped _ ih =>
    cases move_of_step stepped with
    | off reading _ =>
      obtain ⟨rest, pipe⟩ := ih
      exact ⟨by rw [rest]; simp [reading, handle], pipe⟩
    | read _ there _ => cases there
    | start _ there => cases there

end Downlink

namespace DeviceAction

/-- What the action adds to the queue of the host. -/
def queued : DeviceAction → List OutTransfer
  | .host (.out transfers) => transfers.map .data
  | .host .outFailed => [.failed]
  | _ => []

/-- The refusals that are left after the action. -/
def refusals (left : Nat) : DeviceAction → Nat
  | refuse count => count
  | _ => left

/-- The action as a call on the direction from the host. -/
def inboundCalls : DeviceAction → List InboundCall
  | reset => [.arrival .reset]
  | pop => [.pop]
  | _ => []

end DeviceAction

namespace Device

/-- The reads of a turn that found a transfer. -/
def Turn.reads (t : Turn) : List OutEvent :=
  t.received.filter (· != .off)

/-- The failed reads of a turn for want of a host. -/
def Turn.offs (t : Turn) : Nat :=
  t.received.count .off

/-- How the queue of the host goes through the turns: a detach empties it unread, and otherwise
what it holds and what the action adds is read from the front. -/
inductive Reads : List OutTransfer → List (DeviceAction × Turn) → List OutTransfer → Prop where
  | done : Reads waiting [] waiting
  | lost {t : Turn} : t.reads = [] → Reads [] rest left →
      Reads waiting ((.host .detach, t) :: rest) left
  | read {t : Turn} : action ≠ .host .detach → waiting ++ action.queued = taken ++ kept →
      t.reads = taken.map OutTransfer.event → Reads kept rest left →
      Reads waiting ((action, t) :: rest) left

/-- The run as calls on the direction from the host: what each action and each read is to it. -/
def inboundCalls : Nat → List (DeviceAction × Turn) → List InboundCall
  | _, [] => []
  | refusals, (action, turn) :: rest =>
    action.inboundCalls ++
      (OutEvent.arrivals (action.refusals refusals) turn.received).map .arrival ++
      inboundCalls (turn.received.foldl OutEvent.refusalsAfter (action.refusals refusals)) rest

/-- What the stack got when it asked for packets. -/
def answers : List (DeviceAction × Turn) → List (Option Packet)
  | [] => []
  | (action, turn) :: rest =>
    match action, turn.reply with
    | .pop, .packet packet => packet :: answers rest
    | _, _ => answers rest

theorem act_downlink (d : Device) (action : DeviceAction) :
    (d.act action).1.downlink =
      { d.downlink with
        pipe := if action = .host .detach then [] else d.downlink.pipe ++ action.queued
        refuse := action.refusals d.downlink.refuse
        inbound := (d.downlink.inbound.serve action.inboundCalls).1 } := by
  cases action with
  | host action =>
    cases action <;> simp [act, withBus, bus, HostAction.act, DeviceAction.queued,
      DeviceAction.refusals, DeviceAction.inboundCalls, Inbound.serve]
  | send | pop | limit | refuse | reset =>
    simp [act, DeviceAction.queued, DeviceAction.refusals, DeviceAction.inboundCalls,
      Inbound.serve, Inbound.arrive]

theorem answers_cons (d : Device) (action : DeviceAction) (rest : List (DeviceAction × Turn)) :
    answers ((action, (d.turn action).2) :: rest) =
      (d.downlink.inbound.serve action.inboundCalls).2 ++ answers rest := by
  cases action with
  | host action => cases action <;> rfl
  | send proto pieces =>
    rw [answers]
    · rfl
    · simp
  | pop | limit | refuse | reset => rfl

/-- Between turns the loop from the host waits. -/
theorem turn_waits (d : Device) (action : DeviceAction) :
    (d.turn action).1.downlink.Waits (d.turn action).1.attached := by
  rw [turn_attached]
  exact Downlink.waits_of_step (d.turn_downlink action).waits

theorem turn_inbound (d : Device) (action : DeviceAction) :
    let reads := OutEvent.arrivals (action.refusals d.downlink.refuse) (d.turn action).2.received
    (d.turn action).1.downlink.inbound =
        reads.foldl Inbound.arrive (d.downlink.inbound.serve action.inboundCalls).1 ∧
      (d.turn action).1.downlink.refuse =
        (d.turn action).2.received.foldl OutEvent.refusalsAfter
          (action.refusals d.downlink.refuse) := by
  have spec := Downlink.runs_inbound (d.turn_downlink action)
  rw [act_downlink] at spec
  exact spec

/-- A turn reads from the front of what is queued, and fails for want of a host exactly when it
follows a detach of an attached device. -/
theorem turn_reads (d : Device) (action : DeviceAction) (waits : d.downlink.Waits d.attached) :
    (∃ taken, (if action = .host .detach then [] else d.downlink.pipe ++ action.queued) =
        taken ++ (d.turn action).1.downlink.pipe ∧
      (d.turn action).2.reads = taken.map OutTransfer.event) ∧
    (d.turn action).2.offs = (d.attached && !action.leaves d.attached).toNat := by
  have run := d.turn_downlink action
  have after := d.turn_waits action
  rw [turn_attached] at after
  have queue : (d.act action).1.downlink.pipe =
      if action = .host .detach then [] else d.downlink.pipe ++ action.queued := by
    rw [act_downlink]
  have reading : (d.act action).1.downlink.reading = d.attached := by
    rw [act_downlink]
    exact waits.1
  rw [← queue]
  cases there : action.leaves d.attached with
  | true =>
    rw [there] at run after
    refine ⟨⟨(d.act action).1.downlink.pipe, ?_, ?_⟩, ?_⟩
    · rw [after.2 rfl, List.append_nil]
    · rw [Turn.reads, Downlink.runs_attached run, List.filter_eq_self]
      simp [OutTransfer.event_ne_off]
    · rw [Turn.offs, Downlink.runs_attached run,
        List.count_eq_zero.mpr (by simp [OutTransfer.event_ne_off])]
      simp
  | false =>
    rw [there] at run
    obtain ⟨received, kept⟩ := Downlink.runs_detached run
    rw [reading] at received
    refine ⟨⟨[], kept.symm, ?_⟩, ?_⟩
    · rw [Turn.reads, received]
      cases d.attached <;> rfl
    · rw [Turn.offs, received]
      cases d.attached <;> rfl

theorem run_reads (d : Device) (actions : List DeviceAction)
    (waits : d.downlink.Waits d.attached) :
    Reads d.downlink.pipe (d.history actions) (d.run actions).1.downlink.pipe ∧
      ((d.history actions).map fun entry => entry.2.offs).sum =
        detachments d.attached actions ∧
      (d.run actions).1.downlink.Waits (d.run actions).1.attached := by
  induction actions generalizing d with
  | nil => exact ⟨.done, rfl, waits⟩
  | cons action actions ih =>
    obtain ⟨⟨taken, queue, reads⟩, offs⟩ := d.turn_reads action waits
    obtain ⟨rest, restOffs, final⟩ := ih _ (d.turn_waits action)
    rw [history_cons, run_cons]
    refine ⟨?_, ?_, final⟩
    · by_cases detach : action = .host .detach
      · rw [if_pos detach] at queue
        obtain ⟨rfl, empty⟩ := List.append_eq_nil_iff.mp queue.symm
        rw [empty] at rest
        subst detach
        exact .lost reads rest
      · rw [if_neg detach] at queue
        exact .read detach queue reads rest
    · rw [List.map_cons, List.sum_cons, restOffs, offs, detachments, turn_attached]

theorem run_inbound (d : Device) (actions : List DeviceAction) :
    d.downlink.inbound.serve (inboundCalls d.downlink.refuse (d.history actions)) =
      ((d.run actions).1.downlink.inbound, answers (d.history actions)) := by
  induction actions generalizing d with
  | nil => rfl
  | cons action actions ih =>
    obtain ⟨inbound, refuse⟩ := d.turn_inbound action
    have rest := ih (d.turn action).1
    rw [history_cons, run_cons, inboundCalls, answers_cons]
    rw [inbound, refuse] at rest
    rw [List.append_assoc, Inbound.serve_append, Inbound.serve_append, Inbound.serve_map_arrival,
      rest]
    rfl

/-- Over any run of a new device: what the host queues is read in order, lost only to a detach,
and read at once while it is attached; each detach of an attached device fails one read; and the
counters, the queue and the answers that the stack gets are those of the segments that the reads
and resets make up. So a packet is made of successive good transfers without an abort between
them; a refused transfer is left out and aborts nothing. -/
theorem run_receives {settings : Settings}
    {strings interfaces inboundRoom outboundRoom : Nat} {d : Device}
    (created : create settings strings interfaces inboundRoom outboundRoom = .ok d)
    (actions : List DeviceAction) :
    let history := d.history actions
    let last := (d.run actions).1
    let calls := inboundCalls 0 history
    Reads [] history last.downlink.pipe ∧
    (last.attached = true → last.downlink.pipe = []) ∧
    (history.map fun entry => entry.2.offs).sum = detachments false actions ∧
    (∃ segments rest, Cut settings.maxPacket (InboundCall.arrivals calls) segments rest ∧
      last.nic.observe.rx = (segments.map fun s => s.verdict.counts).sum + openCounts rest) ∧
    (⟨inboundRoom, [], 0⟩ : Backlog).serve (InboundCall.exchanges settings.maxPacket [] calls) =
      (⟨inboundRoom, last.downlink.inbound.channel.items, last.nic.observe.inDropped⟩,
        answers history) ∧
    ∀ p, some p ∈ answers history ∨ p ∈ last.downlink.inbound.channel.items →
      ∃ (before : List Arrival) (octets : List Bytes) (after : List Arrival),
        InboundCall.arrivals calls = before ++ octets.map .transfer ++ after ∧
        p = .ofFrame octets.flatten := by
  intro history last calls
  obtain ⟨config, valid, _, _, rfl⟩ := create_initial created
  let first := initial config settings.mtu interfaces inboundRoom outboundRoom
  have size : config.maxPacket = settings.maxPacket := Settings.maxPacket_of_config valid
  obtain ⟨reads, offs, final⟩ := run_reads first actions ⟨rfl, fun there => by cases there⟩
  have run : first.downlink.inbound.serve calls = (last.downlink.inbound, answers history) :=
    run_inbound first actions
  have idle : first.downlink.inbound.reassembler = .within config.maxPacket 0 [] := rfl
  obtain ⟨counted, queued⟩ := Inbound.serve_spec config.holds_header (by simp) calls idle
  rw [run, RxStats.zero_add, size] at counted
  rw [run, size] at queued
  have parts : Cut settings.maxPacket (InboundCall.arrivals calls) _ _ := cut_spec [] _ (by simp)
  have room : last.downlink.inbound.channel.capacity = inboundRoom :=
    (congrArg (fun answer => answer.1.room) queued).trans (Backlog.room_serve _ _)
  refine ⟨reads, final.2, offs, ⟨_, _, parts, congrArg Reassembler.stats counted⟩, ?_, ?_⟩
  · refine queued.symm.trans ?_
    simp only [Inbound.backlog, room]
    rfl
  intro p h
  have source := Backlog.serve_mem first.downlink.inbound.backlog
    (InboundCall.exchanges settings.maxPacket [] calls) p (by rwa [← queued])
  rcases source with waiting | offered
  · cases waiting
  · obtain ⟨s, mem, delivered⟩ := InboundCall.offer_mem_exchanges _ _ offered
    exact parts.packet_octets mem delivered

/-- A host that replugs fails one read, and nothing of its queue is left unread. -/
theorem run_receives_replugged :
    let config : Config := ⟨⟨0x1a, 0x55, 0x89, 0xa2, 0x69, 0x41⟩,
      ⟨0x1a, 0x55, 0x89, 0xa2, 0x69, 0x42⟩, 512, by decide, by decide⟩
    let d := initial config 1500 0 2 1
    let actions : List DeviceAction := [.host (.out [[7]]), .host .attach, .refuse 1,
      .host (.out [List.replicate 20 0, List.replicate 20 1]), .host .detach, .host .attach,
      .host .outFailed, .pop]
    create {} 0 0 2 1 = .ok d ∧
      ((d.history actions).map fun entry => entry.2.offs).sum = 1 ∧
      Reads [] (d.history actions) [] := by
  intro config d actions
  have created : create {} 0 0 2 1 = .ok d := rfl
  obtain ⟨reads, read, offs, _⟩ := run_receives created actions
  have there : (d.run actions).1.attached = true := by
    rw [run_attached]
    rfl
  rw [read there] at reads
  exact ⟨created, offs, reads⟩

end Device
end UsbEthernet
