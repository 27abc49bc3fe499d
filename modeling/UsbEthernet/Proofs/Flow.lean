import UsbEthernet.Proofs.Epoch

/-! Both queues over runs of operations: items are added behind and taken off the front, whichever
end does it and however often the interface is built again in between. -/
namespace UsbEthernet

namespace Act

/-- The packets that are queued for the host, in their order. -/
def accepted (acts : List Act) : List Packet :=
  acts.filterMap fun
    | accept p => some p
    | _ => none

/-- How many packets for the host are consumed. -/
def consumed (acts : List Act) : Nat :=
  acts.countP fun act => act == sent || act == tooLong

/-- How many packets from the host are consumed. -/
def taken (acts : List Act) : Nat :=
  acts.count take

theorem accepted_append (first second : List Act) :
    accepted (first ++ second) = accepted first ++ accepted second :=
  List.filterMap_append

theorem consumed_append (first second : List Act) :
    consumed (first ++ second) = consumed first + consumed second :=
  List.countP_append

theorem taken_append (first second : List Act) :
    taken (first ++ second) = taken first + taken second :=
  List.count_append

end Act

namespace Channel

/-- The queue after items have been added behind and some removed from the front. -/
structure Flows (c : Channel α) (added : List α) (removed : Nat) (d : Channel α) : Prop where
  capacity : d.capacity = c.capacity
  enough : removed ≤ (c.items ++ added).length
  items : d.items = (c.items ++ added).drop removed
  bounded : c.items.length ≤ c.capacity → d.items.length ≤ c.capacity

namespace Flows
variable {c d e : Channel α} {added more : List α} {removed others : Nat}

theorem same (capacity : d.capacity = c.capacity) (items : d.items = c.items) :
    c.Flows [] 0 d := by
  refine ⟨capacity, Nat.zero_le _, ?_, ?_⟩
  · rw [List.append_nil, List.drop_zero, items]
  · rw [items]
    exact id

theorem push {a : α} (room : c.isFull = false) (capacity : d.capacity = c.capacity)
    (items : d.items = c.items ++ [a]) : c.Flows [a] 0 d := by
  refine ⟨capacity, Nat.zero_le _, items, ?_⟩
  intro _
  have space : c.items.length < c.capacity := by
    simpa only [isFull, decide_eq_false_iff_not, Nat.not_le] using room
  rw [items, List.length_append, List.length_singleton]
  exact space

theorem rest (nonempty : c.items ≠ []) : c.Flows [] 1 c.rest := by
  have positive := List.length_pos_iff.mpr nonempty
  refine ⟨rfl, ?_, ?_, ?_⟩
  · rwa [List.append_nil]
  · rw [List.append_nil, Channel.rest, List.drop_one]
  · intro bounded
    rw [Channel.rest, List.length_tail]
    omega

theorem trans (first : c.Flows added removed d) (second : d.Flows more others e) :
    c.Flows (added ++ more) (removed + others) e := by
  have joined : d.items ++ more = (c.items ++ (added ++ more)).drop removed := by
    rw [first.items, ← List.append_assoc, List.drop_append_of_le_length first.enough]
  have enough := second.enough
  rw [joined, List.length_drop] at enough
  have left := first.enough
  simp only [List.length_append] at left enough
  refine ⟨second.capacity.trans first.capacity, ?_, ?_, ?_⟩
  · simp only [List.length_append]
    omega
  · rw [second.items, joined, List.drop_drop]
  · intro bounded
    rw [← first.capacity]
    apply second.bounded
    rw [first.capacity]
    exact first.bounded bounded

theorem length (flows : c.Flows added removed d) :
    d.items.length + removed = c.items.length + added.length := by
  have enough := flows.enough
  rw [flows.items, List.length_drop, List.length_append] at *
  omega

/-- Where nothing is removed, what is at the front stays there. -/
theorem head? (flows : c.Flows added 0 d) {a : α} {items : List α} (h : c.items = a :: items) :
    d.items.head? = some a := by
  rw [flows.items, List.drop_zero, h]
  rfl

end Flows
end Channel

/-- What acts do to the direction to the host. -/
structure Outbound.Follows (o : Outbound) (acts : List Act) (p : Outbound) : Prop where
  hostMac : p.hostMac = o.hostMac
  deviceMac : p.deviceMac = o.deviceMac
  counted : p.stats.frames + p.stats.oversize =
    o.stats.frames + o.stats.oversize + UInt32.ofNat (Act.consumed acts)
  queue : o.channel.Flows (Act.accepted acts) (Act.consumed acts) p.channel

namespace Inbound

theorem offer_flows (i : Inbound) (p : Packet) :
    ∃ added, i.channel.Flows added 0 (i.offer p).channel := by
  unfold offer Channel.push?
  split
  · cases full : i.channel.isFull with
    | true => exact ⟨[], .same rfl rfl⟩
    | false => exact ⟨[p], .push full rfl rfl⟩
  · exact ⟨[], .same rfl rfl⟩

theorem arrive_flows (i : Inbound) (a : Arrival) :
    ∃ added, i.channel.Flows added 0 (i.arrive a).channel := by
  cases a with
  | failed | reset => exact ⟨[], .same rfl rfl⟩
  | transfer octets =>
    simp only [arrive, receive]
    split
    · exact ⟨[], .same rfl rfl⟩
    · rename_i reassembler p _
      exact offer_flows { i with reassembler } p

end Inbound

namespace Nic
variable {nic last : Nic} {act : Act} {acts : List Act}

theorem outbound_perform (allowed : nic.Allows act) :
    nic.outbound.Follows [act] (nic.perform act).outbound := by
  cases act with
  | accept p => exact ⟨rfl, rfl, (UInt32.add_zero _).symm, .push allowed.1 rfl rfl⟩
  | sent =>
    have counted (frames oversize : Counter) : frames + 1 + oversize = frames + oversize + 1 := by
      grind
    exact ⟨rfl, rfl, counted _ _, .rest allowed⟩
  | tooLong => exact ⟨rfl, rfl, (UInt32.add_assoc _ _ 1).symm, .rest allowed⟩
  | refuse | arrive | take | awaitRoom | awaitFrame | awaitPacket =>
    exact ⟨rfl, rfl, (UInt32.add_zero _).symm, .same rfl rfl⟩

theorem Performs.outbound (performed : nic.Performs acts last) :
    nic.outbound.Follows acts last.outbound := by
  induction performed with
  | nil => exact ⟨rfl, rfl, (UInt32.add_zero _).symm, .same rfl rfl⟩
  | @cons nic act acts last allowed _ ih =>
    have first := outbound_perform allowed
    have accepted := Act.accepted_append [act] acts
    have consumed := Act.consumed_append [act] acts
    rw [List.singleton_append] at accepted consumed
    refine ⟨ih.hostMac.trans first.hostMac, ih.deviceMac.trans first.deviceMac, ?_, ?_⟩
    · rw [ih.counted, first.counted, consumed, Counter.add_add]
    · rw [accepted, consumed]
      exact first.queue.trans ih.queue

theorem inbound_perform (allowed : nic.Allows act) :
    ∃ added, nic.inbound.channel.Flows added (Act.taken [act]) (nic.perform act).inbound.channel := by
  cases act with
  | arrive a => exact nic.inbound.arrive_flows a
  | take => exact ⟨[], .rest allowed⟩
  | accept | sent | tooLong | refuse | awaitRoom | awaitFrame | awaitPacket =>
    exact ⟨[], .same rfl rfl⟩

theorem Performs.inbound (performed : nic.Performs acts last) :
    ∃ added, nic.inbound.channel.Flows added (Act.taken acts) last.inbound.channel := by
  induction performed with
  | nil => exact ⟨[], .same rfl rfl⟩
  | @cons nic act acts last allowed _ ih =>
    obtain ⟨first, flows⟩ := inbound_perform allowed
    obtain ⟨second, rest⟩ := ih
    have taken := Act.taken_append [act] acts
    rw [List.singleton_append] at taken
    rw [taken]
    exact ⟨first ++ second, flows.trans rest⟩

end Nic

namespace Session

/-- The queue to the host over a run: what is accepted comes behind, what is consumed goes. -/
theorem run_outbound (session : Session) (ops : List Operation) :
    session.outboundChannel.Flows (Act.accepted (session.acts ops))
      (Act.consumed (session.acts ops)) (session.run ops).1.outboundChannel := by
  induction ops generalizing session with
  | nil => exact .same rfl rfl
  | cons op ops ih =>
    rw [acts, run_cons, Act.accepted_append, Act.consumed_append]
    rcases session.step_cases op with ⟨nic, next, rfl, stepped, performed⟩ | ⟨none, -, same⟩
    · have rest := ih ((up nic).step op).1
      rw [stepped] at rest ⊢
      exact performed.outbound.queue.trans rest
    · have rest := ih (session.step op).1
      rw [none, ← same]
      rwa [show Act.accepted [] = [] from rfl, show Act.consumed [] = 0 from rfl, List.nil_append,
        Nat.zero_add]

/-- The queue from the host over a run: only what is taken goes. -/
theorem run_inbound (session : Session) (ops : List Operation) :
    ∃ added, session.inboundChannel.Flows added (Act.taken (session.acts ops))
      (session.run ops).1.inboundChannel := by
  induction ops generalizing session with
  | nil => exact ⟨[], .same rfl rfl⟩
  | cons op ops ih =>
    obtain ⟨later, rest⟩ := ih (session.step op).1
    rw [acts, run_cons, Act.taken_append]
    rcases session.step_cases op with ⟨nic, next, rfl, stepped, performed⟩ | ⟨none, same, -⟩
    · rw [stepped] at rest ⊢
      obtain ⟨first, flows⟩ := performed.inbound
      exact ⟨first ++ later, flows.trans rest⟩
    · rw [none, ← same, show Act.taken [] = 0 from rfl, Nat.zero_add]
      exact ⟨later, rest⟩

end Session
end UsbEthernet
