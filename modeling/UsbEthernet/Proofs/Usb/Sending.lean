import UsbEthernet.Proofs.Usb.UplinkMove

/-! The direction to the host over whole runs of a device. The bulk transfers fall into attempts
at the packets that the stack has queued, in their order: a packet is consumed by the attempt that
writes all of its frame, an attempt that fails is followed by another at the same packet, and only
a packet that is too long for the room is given up. -/
namespace UsbEthernet

/-- What comes of a packet at the head of the queue. -/
inductive Attempt where
  | complete (p : Packet)
  /-- The transfers written before the one that failed. -/
  | failed (p : Packet) (written : List Bytes) (cause : InEvent)
  /-- The packet is given up without a transfer. -/
  | oversize (p : Packet)
deriving DecidableEq

namespace Attempt

def isComplete : Attempt → Bool
  | complete _ => true
  | failed .. | oversize _ => false

def isOversize : Attempt → Bool
  | oversize _ => true
  | failed .. | complete _ => false

/-- The packet that the attempt takes off the queue. -/
def consumed? : Attempt → Option Packet
  | complete p | oversize p => some p
  | failed .. => none

/-- The bulk events of the attempt, where `wire` gives the transfers of a packet's frame. -/
def events (wire : Packet → List Bytes) : Attempt → List InEvent
  | complete p => (wire p).map .data
  | failed _ written cause => written.map .data ++ [cause]
  | oversize _ => []

/-- A failed attempt stops short of a transfer, and a packet is given up only for want of room. -/
def Valid (frame : Packet → Bytes) (maxPacket room : Nat) : Attempt → Prop
  | complete _ => True
  | failed p written cause =>
    (cause = .off ∨ cause = .failed) ∧
      ∃ transfer rest, transfers (frame p) maxPacket = written ++ transfer :: rest
  | oversize p => room < (frame p).length

end Attempt

/-- The attempts take the packets in their order, and what is left of them waits. A failed attempt
leaves its packet, so the next one is at the same packet. -/
inductive Served : List Packet → List Attempt → List Packet → Prop where
  | nil : Served queue [] queue
  | complete : Served queue attempts left → Served (p :: queue) (.complete p :: attempts) left
  | failed : Served (p :: queue) attempts left →
      Served (p :: queue) (.failed p written cause :: attempts) left
  | oversize : Served queue attempts left → Served (p :: queue) (.oversize p :: attempts) left

namespace Served

theorem trans (first : Served queue attempts middle) (second : Served middle others left) :
    Served queue (attempts ++ others) left := by
  induction first with
  | nil => exact second
  | complete _ ih => exact .complete (ih second)
  | failed _ ih => exact .failed (ih second)
  | oversize _ ih => exact .oversize (ih second)

/-- Packets that are queued later do not change what comes of the ones before them. -/
theorem append (served : Served queue attempts left) (later : List Packet) :
    Served (queue ++ later) attempts (left ++ later) := by
  induction served with
  | nil => exact .nil
  | complete _ ih => exact .complete ih
  | failed _ ih => exact .failed ih
  | oversize _ ih => exact .oversize ih

theorem consumed (served : Served queue attempts left) :
    queue = attempts.filterMap Attempt.consumed? ++ left := by
  induction served with
  | nil => rfl
  | complete _ ih | oversize _ ih => exact congrArg (_ :: ·) ih
  | failed _ ih => exact ih

end Served

def InEvent.isBulk : InEvent → Bool
  | off | failed | data _ => true
  | notifyOff | notifyFailed | notified _ => false

namespace Uplink

/-- The room given to a frame under a bound of its own. -/
def roomOf : Option Nat → Nat
  | none => maxFrame
  | some bound => min bound maxFrame

theorem room_eq (u : Uplink) : u.room = roomOf u.limit := by
  cases h : u.limit <;> simp only [room, roomOf, h]

def wire (u : Uplink) (p : Packet) : List Bytes :=
  transfers (u.frame p) u.maxPacket

/-- The transfers already written of the open attempt: within a frame they are what comes before
the ones that are left, and the frame is that of the oldest packet. -/
def Written (u : Uplink) (written : List Bytes) : Prop :=
  match u.phase with
  | .silent | .ready => written = []
  | .writing rest => ∃ p queue, u.items = p :: queue ∧ u.wire p = written ++ rest

theorem Written.queued {u : Uplink} {written rest : List Bytes} (begun : u.Written written)
    (writing : u.phase = .writing rest) :
    ∃ p queue, u.items = p :: queue ∧ u.wire p = written ++ rest := by
  simpa only [Written, writing] using begun

theorem Written.items_ne_nil {u : Uplink} {written rest : List Bytes} (begun : u.Written written)
    (writing : u.phase = .writing rest) : u.items ≠ [] := by
  obtain ⟨p, queue, queued, _⟩ := begun.queued writing
  rw [queued]
  exact List.cons_ne_nil p queue

/-- Where the loop waits, an open attempt is at the oldest packet and stops short of a transfer. -/
theorem Written.waits {attached : Bool} {u : Uplink} {written : List Bytes}
    (begun : u.Written written) (waits : u.Waits attached) :
    written = [] ∨ ∃ p queue transfer rest,
      u.items = p :: queue ∧ u.wire p = written ++ transfer :: rest := by
  cases waits with
  | host silent => exact .inl (by simpa only [Written, silent] using begun)
  | packet ready => exact .inl (by simpa only [Written, ready] using begun)
  | astray done empty => exact absurd empty (begun.items_ne_nil done)
  | budget writing =>
    obtain ⟨p, queue, queued, wire⟩ := begun.queued writing
    exact .inr ⟨p, queue, _, _, queued, wire⟩

/-- From one state to another the bulk events make up these attempts, between what was and what is
written of an open one, and the attempts serve the packets queued before and meanwhile. -/
structure Serves (u : Uplink) (written : List Bytes) (accepted : List Packet)
    (bulk : List InEvent) (attempts : List Attempt) (v : Uplink) (unfinished : List Bytes) :
    Prop where
  open_attempt : v.Written unfinished
  maxPacket : v.maxPacket = u.maxPacket
  frame : v.frame = u.frame
  bulk : written.map .data ++ bulk =
    attempts.flatMap (Attempt.events u.wire) ++ unfinished.map .data
  served : Served (u.items ++ accepted) attempts v.items
  frames : v.outbound.stats.frames =
    u.outbound.stats.frames + UInt32.ofNat (attempts.countP Attempt.isComplete)
  oversize : v.outbound.stats.oversize =
    u.outbound.stats.oversize + UInt32.ofNat (attempts.countP Attempt.isOversize)

namespace Serves
variable {u v w : Uplink} {first middle last : List Bytes} {some more : List Packet}
  {events others : List InEvent} {attempts later : List Attempt}

theorem wire (h : u.Serves first some events attempts v last) : v.wire = u.wire := by
  funext p
  simp only [Uplink.wire, h.frame, h.maxPacket]

/-- Outside the loop packets may be queued behind the others, and nothing is written. -/
theorem grow (begun : u.Written first) (phase : v.phase = u.phase)
    (maxPacket : v.maxPacket = u.maxPacket) (frame : v.frame = u.frame)
    (items : v.items = u.items ++ more) (stats : v.outbound.stats = u.outbound.stats) :
    u.Serves first more [] [] v first := by
  refine ⟨?_, maxPacket, frame, by simp, items ▸ .nil, by simp [stats], by simp [stats]⟩
  unfold Written at begun ⊢
  rw [phase]
  cases same : u.phase with
  | silent | ready => simpa only [same] using begun
  | writing rest =>
    simp only [same] at begun
    obtain ⟨p, queue, queued, written⟩ := begun
    refine ⟨p, queue ++ more, by rw [items, queued, List.cons_append], ?_⟩
    simpa only [Uplink.wire, frame, maxPacket] using written

theorem refl (h : u.Written first) : u.Serves first [] [] [] u first :=
  .grow h rfl rfl rfl (List.append_nil _).symm rfl

theorem trans (a : u.Serves first some events attempts v middle)
    (b : v.Serves middle more others later w last) :
    u.Serves first (some ++ more) (events ++ others) (attempts ++ later) w last := by
  refine ⟨b.open_attempt, b.maxPacket.trans a.maxPacket, b.frame.trans a.frame, ?_, ?_, ?_, ?_⟩
  · have rest := b.bulk
    rw [a.wire] at rest
    rw [← List.append_assoc, a.bulk, List.append_assoc, rest, List.flatMap_append,
      List.append_assoc]
  · rw [← List.append_assoc]
    exact (a.served.append more).trans b.served
  · rw [b.frames, a.frames, List.countP_append, Counter.add_add]
  · rw [b.oversize, a.oversize, List.countP_append, Counter.add_add]

end Serves

/-- A single move is part of an attempt, or ends one. -/
theorem Move.serves {attached : Bool} {u v : Uplink} {events : List InEvent}
    {written : List Bytes} (h : Move attached u v events) (begun : u.Written written) :
    ∃ attempts unfinished,
      u.Serves written [] (events.filter InEvent.isBulk) attempts v unfinished ∧
      ∀ a ∈ attempts, a.Valid u.frame u.maxPacket u.room := by
  have kept (c : Counter) : c = c + UInt32.ofNat 0 := (UInt32.add_zero c).symm
  cases h with
  | announce silent | unheard silent =>
    simp only [Written, silent] at begun
    subst begun
    refine ⟨[], [], ⟨?_, rfl, rfl, by simp [InEvent.isBulk], ?_, kept _, kept _⟩, by simp⟩
    · simp [Written, silent]
    · rw [List.append_nil]
      exact .nil
  | start ready queued =>
    simp only [Written, ready] at begun
    subst begun
    refine ⟨[], [], ⟨⟨_, _, queued, rfl⟩, rfl, rfl, by simp, ?_, kept _, kept _⟩, by simp⟩
    rw [List.append_nil]
    exact .nil
  | @drop _ p queue ready queued long =>
    simp only [Written, ready] at begun
    subst begun
    have left : u.outbound.channel.rest.items = queue := congrArg List.tail queued
    refine ⟨[.oversize p], [], ⟨?_, rfl, rfl, by simp [Attempt.events], ?_, kept _, rfl⟩, ?_⟩
    · simp only [Written, ready]
    · rw [List.append_nil, queued, items, left]
      exact .oversize .nil
    · simpa [Attempt.Valid] using long
  | @finish _ p queue done queued =>
    obtain ⟨_, _, same, wire⟩ := begun.queued done
    cases queued.symm.trans same
    rw [List.append_nil] at wire
    have left : u.outbound.channel.rest.items = queue := congrArg List.tail queued
    refine ⟨[.complete p], [],
      ⟨rfl, rfl, rfl, by simp [Attempt.events, wire], ?_, rfl, kept _⟩, ?_⟩
    · rw [List.append_nil, queued, items, left]
      exact .complete .nil
    · simp [Attempt.Valid]
  | @write _ transfer rest writing =>
    obtain ⟨p, queue, queued, wire⟩ := begun.queued writing
    refine ⟨[], written ++ [transfer],
      ⟨⟨p, queue, queued, wire.trans (by simp)⟩, rfl, rfl, by simp [InEvent.isBulk], ?_, kept _,
        kept _⟩, by simp⟩
    rw [List.append_nil]
    exact .nil
  | @off _ transfer rest writing | @fail _ transfer rest writing =>
    obtain ⟨p, queue, queued, wire⟩ := begun.queued writing
    refine ⟨[.failed p written _], [],
      ⟨rfl, rfl, rfl, by simp [Attempt.events]; rfl, ?_, kept _, kept _⟩, ?_⟩
    · rw [List.append_nil, queued]
      apply Served.failed
      rw [← queued]
      exact .nil
    · simp only [List.mem_singleton, forall_eq, Attempt.Valid, true_or, or_true, true_and]
      exact ⟨transfer, rest, wire⟩

theorem Move.limit_eq {attached : Bool} {u v : Uplink} {events : List InEvent}
    (h : Move attached u v events) : v.limit = u.limit := by
  cases h <;> rfl

theorem runs_serve {attached : Bool} {u v : Uplink} {events : List InEvent}
    {written : List Bytes} (h : (loop attached).Runs u events v) (begun : u.Written written) :
    ∃ attempts unfinished,
      u.Serves written [] (events.filter InEvent.isBulk) attempts v unfinished ∧
      ∀ a ∈ attempts, a.Valid u.frame u.maxPacket u.room := by
  -- The induction is along the run, so what is written of the open attempt varies with it.
  induction h generalizing written with
  | wait => exact ⟨[], written, .refl begun, by simp⟩
  | next stepped _ ih =>
    have move := step_eq_some_iff.mp stepped
    obtain ⟨attempts, middle, first, valid⟩ := move.serves begun
    obtain ⟨others, unfinished, last, later⟩ := ih first.open_attempt
    have room := congrArg roomOf move.limit_eq
    rw [← room_eq, ← room_eq] at room
    refine ⟨attempts ++ others, unfinished, ?_, ?_⟩
    · rw [List.filter_append]
      exact first.trans last
    · intro a mem
      rcases List.mem_append.mp mem with mem | mem
      · exact valid a mem
      · have holds := later a mem
        rwa [first.frame, first.maxPacket, room] at holds

end Uplink

/-- A packet is queued whole behind the others, or is refused and leaves the queue alone. -/
theorem Outbound.send_cases (o : Outbound) (proto : EtherType) (pieces : List Bytes) :
    (∃ dropped, o.send proto pieces = ({ o with dropped }, .error .noSpace)) ∨
    ∃ channel, o.send proto pieces = ({ o with channel }, .ok ()) ∧
      channel.items = o.channel.items ++ [⟨.ofProto proto, pieces.flatten⟩] ∧
      pieces.flatten.length ≤ maxPayload := by
  unfold send
  split
  · cases full : o.channel.isFull with
    | true => exact .inl ⟨_, rfl⟩
    | false =>
      rcases store_cases proto pieces full with stored | ⟨fits, stored⟩
      · exact .inl ⟨o.dropped, stored⟩
      · exact .inr ⟨_, stored, rfl, of_decide_eq_true fits⟩
  · exact .inl ⟨o.dropped, rfl⟩

/-- The bound on the room for frames that is set after the action. -/
def DeviceAction.limits (bound : Option Nat) : DeviceAction → Option Nat
  | limit room => room
  | _ => bound

namespace Device

/-- The packet that the stack has queued with an action, if it was taken. -/
def acceptedIn : DeviceAction → StackReply → List Packet
  | .send proto pieces, .done => [⟨.ofProto proto, pieces.flatten⟩]
  | _, _ => []

/-- The packets that the stack has queued, in their order. -/
def accepted (history : List (DeviceAction × Turn)) : List Packet :=
  history.flatMap fun entry => acceptedIn entry.1 entry.2.reply

/-- The bulk writes that succeeded or failed. -/
def bulk (history : List (DeviceAction × Turn)) : List InEvent :=
  history.flatMap fun entry => entry.2.sent.filter InEvent.isBulk

/-- How the packets go through the turns, from a bound on the room, the packets that wait and what
is written of an open attempt: each turn adds the packet of its action, goes on with the open
attempt, and ends attempts that are valid for the room of that turn. -/
inductive Sends (frame : Packet → Bytes) (maxPacket : Nat) :
    Option Nat → List Packet → List Bytes → List (DeviceAction × Turn) → List Attempt →
      List Packet → List Bytes → Prop where
  | done : Sends frame maxPacket bound waiting written [] [] waiting written
  | turn {t : Turn} : Served (waiting ++ acceptedIn action t.reply) attempts kept →
      written.map .data ++ t.sent.filter InEvent.isBulk =
        attempts.flatMap (Attempt.events fun p => transfers (frame p) maxPacket) ++
          middle.map .data →
      (∀ a ∈ attempts, a.Valid frame maxPacket (Uplink.roomOf (action.limits bound))) →
      Sends frame maxPacket (action.limits bound) kept middle rest later left unfinished →
      Sends frame maxPacket bound waiting written ((action, t) :: rest) (attempts ++ later) left
        unfinished

/-- An action sets how the host takes and fails writes and how much room there is, and may queue a
packet; it leaves the loop to the host where it is. -/
theorem act_uplink (d : Device) (action : DeviceAction) :
    ∃ pipe channel dropped,
      (d.act action).1.uplink =
        { d.uplink with
          pipe
          limit := action.limits d.uplink.limit
          outbound := { d.uplink.outbound with channel, dropped } } ∧
      channel.items = d.uplink.items ++ acceptedIn action (d.act action).2 := by
  have same := (List.append_nil d.uplink.items).symm
  cases action with
  | host action => cases action <;> exact ⟨_, _, _, rfl, same⟩
  | pop | limit | refuse | reset => exact ⟨_, _, _, rfl, same⟩
  | send proto pieces =>
    rcases d.uplink.outbound.send_cases proto pieces with
      ⟨dropped, refused⟩ | ⟨channel, taken, queued, -⟩
    · rw [act, refused]
      exact ⟨_, _, _, rfl, same⟩
    · rw [act, taken]
      exact ⟨_, _, _, rfl, queued⟩

/-- What an action leaves open of an attempt, and what it queues. -/
theorem act_serves (d : Device) (action : DeviceAction) {written : List Bytes}
    (begun : d.uplink.Written written) :
    d.uplink.Serves written (acceptedIn action (d.act action).2) [] []
      (d.act action).1.uplink written ∧
    (d.act action).1.uplink.limit = action.limits d.uplink.limit := by
  obtain ⟨pipe, channel, dropped, acted, queued⟩ := d.act_uplink action
  rw [acted]
  exact ⟨.grow begun rfl rfl rfl queued rfl, rfl⟩

theorem turn_serves (d : Device) (action : DeviceAction) {written : List Bytes}
    (begun : d.uplink.Written written) :
    (∃ attempts unfinished,
      d.uplink.Serves written (acceptedIn action (d.turn action).2.reply)
        ((d.turn action).2.sent.filter InEvent.isBulk) attempts (d.turn action).1.uplink
        unfinished ∧
      ∀ a ∈ attempts, a.Valid d.uplink.frame d.uplink.maxPacket
        (Uplink.roomOf (action.limits d.uplink.limit))) ∧
    (d.turn action).1.uplink.limit = action.limits d.uplink.limit := by
  obtain ⟨acted, limit⟩ := d.act_serves action begun
  have runs := d.turn_uplink action
  obtain ⟨attempts, unfinished, polled, valid⟩ := Uplink.runs_serve runs acted.open_attempt
  refine ⟨⟨attempts, unfinished, ?_, ?_⟩, ?_⟩
  · simpa only [turn_reply, List.append_nil, List.nil_append] using acted.trans polled
  · intro a mem
    have holds := valid a mem
    rwa [acted.frame, acted.maxPacket, Uplink.room_eq, limit] at holds
  · exact Uplink.runs_keep (P := (·.limit = action.limits d.uplink.limit))
      (fun move kept => move.limit_eq.trans kept) runs limit

theorem run_serves (d : Device) (actions : List DeviceAction) {written : List Bytes}
    (begun : d.uplink.Written written) :
    ∃ (attempts : List Attempt) (unfinished : List Bytes),
      d.uplink.Serves written (accepted (d.history actions)) (bulk (d.history actions)) attempts
        (d.run actions).1.uplink unfinished ∧
      Sends d.uplink.frame d.uplink.maxPacket d.uplink.limit d.uplink.items written
        (d.history actions) attempts (d.run actions).1.uplink.items unfinished := by
  induction actions generalizing d written with
  | nil => exact ⟨[], written, .refl begun, .done⟩
  | cons action actions ih =>
    obtain ⟨⟨attempts, middle, first, valid⟩, limit⟩ := d.turn_serves action begun
    obtain ⟨others, unfinished, rest, later⟩ := ih (d.turn action).1 first.open_attempt
    rw [limit, first.frame, first.maxPacket] at later
    exact ⟨attempts ++ others, unfinished, first.trans rest,
      .turn first.served first.bulk valid later⟩

/-- Over any run of a new device: the packets that the stack has queued are those consumed and
those that wait; the bulk events are those of attempts at these packets in their order, where a
failed attempt is followed by one at the same packet; turn by turn they are valid for the room of
the turn; and between turns an open attempt at the oldest packet stops short of a transfer. -/
theorem run_sends {settings : Settings} {config : Config}
    {strings interfaces inboundRoom outboundRoom : Nat} {d : Device}
    (valid : settings.config = .ok config)
    (created : create settings strings interfaces inboundRoom outboundRoom = .ok d)
    (actions : List DeviceAction) :
    let history := d.history actions
    let last := (d.run actions).1
    let frame := fun p : Packet => config.hostMac.toBytes ++ config.deviceMac.toBytes ++
      p.header.proto.toBytes ++ p.payload
    let wire := fun p => transfers (frame p) settings.maxPacket
    ∃ (attempts : List Attempt) (unfinished : List Bytes),
      accepted history = attempts.filterMap Attempt.consumed? ++ last.uplink.items ∧
      Served (accepted history) attempts last.uplink.items ∧
      bulk history = attempts.flatMap (Attempt.events wire) ++ unfinished.map .data ∧
      Sends frame settings.maxPacket none [] [] history attempts last.uplink.items unfinished ∧
      (unfinished = [] ∨ ∃ p queue transfer rest, last.uplink.items = p :: queue ∧
        wire p = unfinished ++ transfer :: rest) ∧
      last.nic.observe.tx.frames = UInt32.ofNat (attempts.countP Attempt.isComplete) ∧
      last.nic.observe.tx.oversize = UInt32.ofNat (attempts.countP Attempt.isOversize) := by
  intro history last frame wire
  obtain ⟨_, same, _, _, rfl⟩ := create_initial created
  cases valid.symm.trans same
  let first := initial config settings.mtu interfaces inboundRoom outboundRoom
  have size : config.maxPacket = settings.maxPacket := Settings.maxPacket_of_config valid
  have lines : first.uplink.wire = wire := by
    funext p
    exact congrArg (transfers (frame p)) size
  have begun : first.uplink.Written [] := rfl
  obtain ⟨attempts, unfinished, serves, sends⟩ := run_serves first actions begun
  have served : Served (accepted history) attempts last.uplink.items := serves.served
  refine ⟨attempts, unfinished, served.consumed, served, ?_, ?_, ?_, ?_, ?_⟩
  · rw [← lines]
    exact serves.bulk
  · rw [← size]
    exact sends
  · have waits := first.run_uplink_waits actions (.host rfl rfl)
    have open_attempt := serves.open_attempt.waits waits
    rwa [serves.wire, lines] at open_attempt
  · exact serves.frames.trans (UInt32.zero_add _)
  · exact serves.oversize.trans (UInt32.zero_add _)

/-- A frame whose second transfer fails is written again whole, and its packet consumed once. -/
theorem run_sends_again :
    let config : Config := ⟨⟨0x1a, 0x55, 0x89, 0xa2, 0x69, 0x41⟩,
      ⟨0x1a, 0x55, 0x89, 0xa2, 0x69, 0x42⟩, 14, by decide, by decide⟩
    let d := initial config 1500 0 1 1
    let actions : List DeviceAction := [.host .attach, .host (.failIn (some 1)),
      .send .ipv4 [[1], [2]]]
    ({ maxPacket := 14 } : Settings).config = .ok config ∧
      create { maxPacket := 14 } 0 0 1 1 = .ok d ∧
      accepted (d.history actions) = [⟨.ofProto .ipv4, [1, 2]⟩] ∧
      ∃ attempts, Served (accepted (d.history actions)) attempts [] ∧
        attempts.filterMap Attempt.consumed? = [⟨.ofProto .ipv4, [1, 2]⟩] ∧
        UInt32.ofNat (attempts.countP Attempt.isComplete) = 1 := by
  intro config d actions
  have valid : ({ maxPacket := 14 } : Settings).config = .ok config := rfl
  have created : create { maxPacket := 14 } 0 0 1 1 = .ok d := rfl
  have queued : accepted (d.history actions) = [⟨.ofProto .ipv4, [1, 2]⟩] := by cbv
  have left : (d.run actions).1.uplink.items = [] := by cbv
  have sent : (d.run actions).1.nic.observe.tx.frames = 1 := by cbv
  obtain ⟨attempts, _, consumed, served, _, _, _, frames, _⟩ := run_sends valid created actions
  rw [left] at served consumed
  rw [List.append_nil, queued] at consumed
  exact ⟨valid, created, queued, attempts, served, consumed.symm, frames.symm.trans sent⟩

end Device
end UsbEthernet
