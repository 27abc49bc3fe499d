import UsbEthernet.Proofs.Dispatch
import UsbEthernet.Proofs.Flow

/-! The queue from the host in every reachable state. Each frame that the reassembler dispatches is
offered to it, and one that finds it full is dropped alone; what waits leaves it from the front, by
the stack's hand only. Whether there is room makes no difference to the reassembler. -/
namespace UsbEthernet
open Session (up)

/-- What acts come to at the queue: a packet is offered when its frame is complete. -/
def Reassembler.exchanges (r : Reassembler) : List Act → List Exchange
  | [] => []
  | .arrive a :: acts => (r.arrive a).2.toList.map .offer ++ (r.arrive a).1.exchanges acts
  | .take :: acts => .pop :: r.exchanges acts
  | .accept _ :: acts | .refuse :: acts | .sent :: acts | .tooLong :: acts
  | .awaitRoom :: acts | .awaitFrame :: acts | .awaitPacket :: acts => r.exchanges acts

namespace Inbound

/-- Since `i`, every frame counted is in the queue, has been dropped or was taken. -/
def Counts (i : Inbound) (taken : Nat) (j : Inbound) : Prop :=
  j.reassembler.stats.frames + i.dropped + UInt32.ofNat i.channel.items.length =
    i.reassembler.stats.frames + j.dropped + UInt32.ofNat (j.channel.items.length + taken)

theorem Counts.trans {i j k : Inbound} {taken others : Nat} (first : i.Counts taken j)
    (second : j.Counts others k) : i.Counts (taken + others) k := by
  unfold Counts at *
  simp only [UInt32.ofNat_add] at *
  grind

theorem arrive_counts (i : Inbound) (a : Arrival) : i.Counts 0 (i.arrive a) := by
  obtain ⟨reassembler, queue⟩ := i.arrive_spec a
  have counted := (i.reassembler.arrive_spec a).1
  rw [Backlog.foldl_offer] at queue
  have items := congrArg (List.length ∘ Backlog.items) queue
  have dropped := congrArg Backlog.dropped queue
  simp only [Function.comp, backlog, List.length_append, List.length_take] at items dropped
  rw [← reassembler] at counted
  -- Of the packets that are completed some are queued and the others dropped.
  generalize i.channel.capacity - i.channel.items.length = room at items dropped
  generalize (i.reassembler.arrive a).2.toList.length = completed at items dropped counted
  have shared : completed = min room completed + (completed - room) := by omega
  have counts := congrArg UInt32.ofNat shared
  rw [UInt32.ofNat_add] at counts
  rw [Counts, items, dropped, counted, counts, Nat.add_zero, UInt32.ofNat_add]
  grind

end Inbound

namespace Nic
variable {nic last : Nic} {acts : List Act}

/-- The queue after acts is that of a backlog after what they come to. -/
theorem Performs.exchanged (performed : nic.Performs acts last) :
    last.inbound.backlog =
      (nic.inbound.backlog.serve (nic.inbound.reassembler.exchanges acts)).1 := by
  induction performed with
  | nil => rfl
  | @cons nic act acts last allowed _ ih =>
    rw [ih]
    cases act with
    | arrive a =>
      obtain ⟨reassembler, queue⟩ := nic.inbound.arrive_spec a
      rw [Reassembler.exchanges, Backlog.serve_offers, ← reassembler, ← queue]
      rfl
    | take => rfl
    | accept | refuse | sent | tooLong | awaitRoom | awaitFrame | awaitPacket => rfl

theorem Performs.begun (performed : nic.Performs acts last)
    (begun : nic.inbound.reassembler.Begun) : last.inbound.reassembler.Begun := by
  induction performed with
  | nil => exact begun
  | @cons nic act acts last allowed _ ih =>
    apply ih
    cases act with
    | arrive a =>
      have arrived := begun.arrive a
      rwa [← (nic.inbound.arrive_spec a).1] at arrived
    | take | accept | refuse | sent | tooLong | awaitRoom | awaitFrame | awaitPacket => exact begun

theorem Performs.counts (performed : nic.Performs acts last) :
    nic.inbound.Counts (Act.taken acts) last.inbound := by
  induction performed with
  | nil => exact rfl
  | @cons nic act acts last allowed _ ih =>
    have taken := Act.taken_append [act] acts
    rw [List.singleton_append] at taken
    rw [taken]
    refine .trans ?_ ih
    cases act with
    | arrive a => exact nic.inbound.arrive_counts a
    | take =>
      have positive := List.length_pos_iff.mpr allowed
      have left : nic.inbound.channel.rest.items.length + 1 = nic.inbound.channel.items.length := by
        rw [Channel.rest, List.length_tail]
        omega
      simp only [Inbound.Counts, perform, Inbound.perform, ← left, Act.taken,
        List.count_singleton_self]
    | accept | refuse | sent | tooLong | awaitRoom | awaitFrame | awaitPacket => exact rfl

/-- What becomes of a transfer where this many packets may wait. It is taken in any case, with the
same outcome for the reassembler whatever the queue. A frame that it completes is queued behind
the others if there is room for it, and otherwise it alone is dropped and counted. -/
def Receives (room : Nat) (nic : Nic) (transfer : Bytes) : Prop :=
  let next := ((UsbCall.receive transfer).run nic).1
  let waiting := nic.inbound.channel.items
  (∀ channel,
    let other := (UsbCall.receive transfer).run { nic with inbound.channel := channel }
    other.2 = .done ∧ other.1.inbound.reassembler = next.inbound.reassembler) ∧
  next.outbound = nic.outbound ∧
  match (nic.inbound.reassembler.collect transfer).2 with
  | none =>
    next.inbound.channel.items = waiting ∧
      next.observe.inDropped = nic.observe.inDropped ∧
      next.observe.rx.frames = nic.observe.rx.frames
  | some frame =>
    next.observe.rx.frames = nic.observe.rx.frames + 1 ∧
      if waiting.length < room then
        next.inbound.channel.items = waiting ++ [.ofFrame frame] ∧
          next.observe.inDropped = nic.observe.inDropped
      else
        next.inbound.channel.items = waiting ∧
          next.observe.inDropped = nic.observe.inDropped + 1

theorem receives (begun : nic.inbound.reassembler.Begun) (transfer : Bytes) :
    nic.Receives nic.inbound.channel.capacity transfer := by
  have counted := (nic.inbound.reassembler.receive_spec transfer).1
  have dispatched := (begun.receive transfer).2
  obtain ⟨reassembler, queue⟩ := nic.inbound.arrive_spec (.transfer transfer)
  rw [Reassembler.arrive] at reassembler queue
  rw [← reassembler] at counted
  refine ⟨?_, rfl, ?_⟩
  · intro channel
    have other := (Inbound.arrive_spec { nic.inbound with channel } (.transfer transfer)).1
    exact ⟨rfl, other.trans reassembler.symm⟩
  · cases framed : (nic.inbound.reassembler.collect transfer).2 with
    | none =>
      rw [dispatched, framed] at counted queue
      exact ⟨congrArg Backlog.items queue, congrArg Backlog.dropped queue,
        counted.trans (UInt32.add_zero _)⟩
    | some frame =>
      rw [dispatched, framed] at counted queue
      refine ⟨counted, ?_⟩
      simp only [Option.map_some, Option.toList_some, List.foldl_cons, List.foldl_nil,
        Backlog.offer, Inbound.backlog] at queue
      split
      · rename_i room
        rw [if_pos room] at queue
        exact ⟨congrArg Backlog.items queue, congrArg Backlog.dropped queue⟩
      · rename_i full
        rw [if_neg full] at queue
        exact ⟨congrArg Backlog.items queue, congrArg Backlog.dropped queue⟩

end Nic

namespace Session

def exchangesOf : Session → Operation → List Exchange
  | up nic, op => nic.inbound.reassembler.exchanges ((up nic).actsOf op)
  | down .., _ => []

/-- What a run comes to at the queue from the host. -/
def exchanges (session : Session) : List Operation → List Exchange
  | [] => []
  | op :: ops => session.exchangesOf op ++ (session.step op).1.exchanges ops

theorem exchangesOf_nil {session : Session} {op : Operation} (none : session.actsOf op = []) :
    session.exchangesOf op = [] := by
  cases session with
  | down => rfl
  | up nic => rw [exchangesOf, none, Reassembler.exchanges]

theorem run_exchanged (session : Session) (ops : List Operation) :
    (session.run ops).1.inboundChannel.items =
      (Backlog.serve ⟨session.inboundChannel.capacity, session.inboundChannel.items, 0⟩
        (session.exchanges ops)).1.items := by
  induction ops generalizing session with
  | nil => rfl
  | cons op ops ih =>
    rw [run_cons, exchanges, ih]
    rcases session.step_cases op with ⟨nic, next, rfl, stepped, performed⟩ | ⟨none, same, -⟩
    · rw [stepped, Backlog.items_serve _ _ 0 next.inbound.dropped,
        Backlog.items_serve _ _ 0 nic.inbound.dropped, Backlog.serve_append]
      exact congrArg (Backlog.items ∘ Prod.fst ∘ (Backlog.serve · _)) performed.exchanged
    · rw [same, exchangesOf_nil none, List.nil_append]

/-- In every reachable state the queue from the host is a backlog of the frames that were
dispatched and has never more in it than there is room for. What waits leaves it from the front
only, and only when the stack consumes it; each transfer is received whether or not there is room;
and since the last build the frames that were counted and not dropped have been consumed or wait
behind what waited then. -/
theorem run_delivers_dispatched {settings : Settings} {inboundRoom outboundRoom : Nat} {nic : Nic}
    (created : Nic.create settings inboundRoom outboundRoom = .ok nic) (ops : List Operation) :
    let session := ((up nic).run ops).1
    let waiting := session.inboundChannel.items
    waiting = (Backlog.serve ⟨inboundRoom, [], 0⟩ ((up nic).exchanges ops)).1.items ∧
    waiting.length ≤ inboundRoom ∧
    (∀ later, ∃ added, session.inboundChannel.Flows added (Act.taken (session.acts later))
      (session.run later).1.inboundChannel) ∧
    ∀ current, session = up current →
      (∃ config built after, LastBuilt settings nic ops config built after ∧
        current.observe.rx.frames + UInt32.ofNat built.observe.inLength =
          current.observe.inDropped +
            UInt32.ofNat (current.observe.inLength + Act.taken ((up built).acts after))) ∧
      (∀ transfer, current.Receives inboundRoom transfer) ∧
      StackCall.head.run current = (current, .packet waiting.head?) ∧
      ∀ p queue, waiting = p :: queue →
        StackCall.done.run current =
          ({ current with
              inbound.channel.items := queue
              inbound.channel.producer := current.inbound.channel.producer.fire }, .done) := by
  intro session waiting
  obtain ⟨_, -, -, -, made⟩ := Nic.create_built created
  have start : (up nic).inboundChannel = { capacity := inboundRoom } := by
    rw [(Nic.eq_of_build made).2]
    rfl
  obtain ⟨_, flows⟩ := (up nic).run_inbound ops
  have served := (up nic).run_exchanged ops
  rw [start] at flows served
  refine ⟨served, flows.bounded (Nat.zero_le _), session.run_inbound, ?_⟩
  intro current reached
  have same : session.inboundChannel = current.inbound.channel := by
    rw [reached, inboundChannel]
  have room : current.inbound.channel.capacity = inboundRoom := same ▸ flows.capacity
  simp only [waiting, same]
  obtain ⟨config, built, after, last, ⟨_, _, _, fresh⟩, performed⟩ :=
    exists_lastBuilt created ops reached
  obtain ⟨-, idle⟩ := Nic.eq_of_build fresh
  refine ⟨⟨config, built, after, last, ?_⟩, ?_, rfl, ?_⟩
  · have balance := performed.counts
    have frames : built.inbound.reassembler.stats.frames = 0 := by
      rw [idle]
    have dropped : built.inbound.dropped = 0 := by
      rw [idle]
    rw [Inbound.Counts, frames, dropped, UInt32.add_zero, UInt32.zero_add] at balance
    exact balance
  · intro transfer
    have begun : built.inbound.reassembler.Begun := by
      simp [idle, Reassembler.Begun]
    rw [← room]
    exact Nic.receives (performed.begun begun) transfer
  · intro p queue queued
    simp only [StackCall.run, Inbound.done?, Channel.pop?_cons queued, Channel.rest, queued]
    rfl

/-- A packet that waits from before a build is in the way of the next frame, until it is consumed;
one more frame is dropped again, and the one that waits is the one the stack sees. -/
theorem run_delivers_dispatched_rebuilt :
    let frame := fun n : UInt8 => List.replicate headerLength 0 ++ [n]
    let nic : Nic := ⟨⟨{ maxPacket := 512 }, { capacity := 1 }, 0⟩,
      { hostMac := ⟨0x1a, 0x55, 0x89, 0xa2, 0x69, 0x41⟩
        deviceMac := ⟨0x1a, 0x55, 0x89, 0xa2, 0x69, 0x42⟩
        mtu := 1500
        channel := { capacity := 1 } }⟩
    let ops : List Operation := [.usb (.receive (frame 1)), .usb (.receive (frame 2)), .rebuild {},
      .usb (.receive (frame 3)), .stack .done, .usb (.receive (frame 4))]
    let session := ((up nic).run ops).1
    Nic.create {} 1 1 = .ok nic ∧
      session.inboundChannel.items = [.ofFrame (frame 4)] ∧
      ∃ current, session = up current ∧
        current.observe.rx.frames = 2 ∧ current.observe.inDropped = 1 ∧
        StackCall.head.run current = (current, .packet (some (.ofFrame (frame 4)))) ∧
        ((UsbCall.receive (frame 5)).run current).1.inbound.channel.items =
          [.ofFrame (frame 4)] ∧
        ((UsbCall.receive (frame 5)).run current).1.observe.inDropped = 2 := by
  intro frame nic ops session
  have created : Nic.create {} 1 1 = .ok nic := rfl
  let current : Nic := ⟨⟨{ maxPacket := 512, stats := { frames := 2 } },
      { capacity := 1, items := [.ofFrame (frame 4)] }, 1⟩, nic.outbound⟩
  have reached : session = up current := by decide +kernel
  obtain ⟨items, -, -, standing⟩ := run_delivers_dispatched created ops
  have waiting : session.inboundChannel.items = [.ofFrame (frame 4)] := items.trans (by decide +kernel)
  obtain ⟨-, receives, head, -⟩ := standing current reached
  obtain ⟨-, -, -, kept, dropped⟩ := receives (frame 5)
  refine ⟨created, waiting, current, reached, rfl, rfl, ?_, kept, dropped⟩
  rw [head, waiting]
  rfl

end Session
end UsbEthernet
