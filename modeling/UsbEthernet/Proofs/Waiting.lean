import UsbEthernet.Proofs.Pieces

/-! An operation that waits comes to the same as not waiting: as the calls that were made until it
found what it waits for, and then the operation that does not wait. One that is given up comes to
these calls alone. What is left of a wait is who is registered, which no queue and no counter
shows. -/
namespace UsbEthernet

/-- The queue without the registrations at its ends and the wakes. -/
def Channel.bare (c : Channel α) : Channel α :=
  { c with producer := {}, consumer := {} }

def Inbound.bare (i : Inbound) : Inbound :=
  { i with channel := i.channel.bare }

def Outbound.bare (o : Outbound) : Outbound :=
  { o with channel := o.channel.bare }

/-- All that is queued or counted, without who is registered. -/
def Nic.bare (nic : Nic) : Nic :=
  ⟨nic.inbound.bare, nic.outbound.bare⟩

namespace Inbound

theorem receive_bare (i : Inbound) (transfer : Bytes) :
    (i.bare.receive transfer).bare = (i.receive transfer).bare := by
  have completed : i.bare.reassembler.receive transfer = i.reassembler.receive transfer := rfl
  have full : i.bare.channel.isFull = i.channel.isFull := rfl
  simp only [receive, completed]
  split
  · rfl
  · simp only [offer, Channel.push?, full]
    split
    · cases i.channel.isFull <;> rfl
    · rfl

end Inbound

namespace Outbound
variable {o other : Outbound}

theorem transmit_alike (same : other.bare = o.bare) (room : Nat) :
    (other.transmit room).2 = (o.transmit room).2 := by
  have items : other.channel.items = o.channel.items := congrArg (·.channel.items) same
  have frame : other.frame = o.frame := congrArg (·.frame) same
  cases queued : o.channel.items with
  | nil => rw [transmit_nil room queued, transmit_nil room (items.trans queued)]
  | cons p queue =>
    rw [transmit_cons room queued, transmit_cons room (items.trans queued), frame,
      apply_ite Prod.snd, apply_ite Prod.snd]

theorem transmitNext_alike (same : other.bare = o.bare) :
    other.transmitNext.2 = o.transmitNext.2 := by
  have items : other.channel.items = o.channel.items := congrArg (·.channel.items) same
  have frame : other.frame = o.frame := congrArg (·.frame) same
  cases queued : o.channel.items with
  | nil =>
    simp only [transmitNext, transmit_nil maxFrame queued,
      transmit_nil maxFrame (items.trans queued)]
  | cons p queue =>
    rw [transmitNext_cons queued, transmitNext_cons (items.trans queued), frame,
      apply_ite Prod.snd, apply_ite Prod.snd]

end Outbound

namespace Nic
variable {nic other : Nic}

theorem perform_bare (nic : Nic) (act : Act) :
    (nic.bare.perform act).bare = (nic.perform act).bare := by
  cases act with
  | accept | refuse | sent | tooLong | take | awaitRoom | awaitFrame | awaitPacket => rfl
  | arrive a =>
    cases a with
    | transfer octets =>
      exact congrArg (Nic.mk · nic.outbound.bare) (nic.inbound.receive_bare octets)
    | failed | reset => rfl

theorem perform_alike (same : other.bare = nic.bare) (act : Act) :
    (other.perform act).bare = (nic.perform act).bare := by
  rw [← perform_bare, same, perform_bare]

theorem Performs.alike {acts : List Act} {last next : Nic} (performed : nic.Performs acts last)
    (again : other.Performs acts next) (same : other.bare = nic.bare) : next.bare = last.bare := by
  induction performed generalizing other with
  | nil =>
    cases again
    exact same
  | @cons _ act _ _ _ _ ih =>
    obtain _ | ⟨_, rest⟩ := again
    exact ih rest (perform_alike same act)

theorem echoed_performs (split : Nat) (frame : Bytes) (nonempty : nic.outbound.channel.items ≠ []) :
    nic.Performs (.sent :: (transfers frame split).map (.arrive ∘ .transfer))
      (nic.echoed split frame) :=
  .cons nonempty (.arrivals _ _)

theorem loopback_alike (split : Nat) {queue : List Packet}
    (queued : nic.outbound.channel.items = queue) (same : other.bare = nic.bare) :
    (other.loopback split).2 = (nic.loopback split).2 := by
  induction queue generalizing nic other with
  | nil =>
    have empty : other.outbound.channel.items = [] :=
      (congrArg (·.outbound.channel.items) same).trans queued
    rw [loopback_nil split queued, loopback_nil split empty]
  | cons p queue ih =>
    have again : other.outbound.channel.items = p :: queue :=
      (congrArg (·.outbound.channel.items) same).trans queued
    have frame : other.outbound.frame = nic.outbound.frame := congrArg (·.outbound.frame) same
    by_cases fits : (nic.outbound.frame p).length ≤ maxFrame
    · have left : (nic.echoed split (nic.outbound.frame p)).outbound.channel.items = queue :=
        congrArg List.tail queued
      have echoed := (nic.echoed_performs split (nic.outbound.frame p)
        (queued ▸ List.cons_ne_nil p queue)).alike (other.echoed_performs split _
          (again ▸ List.cons_ne_nil p queue)) same
      rw [loopback_cons split queued fits, loopback_cons split again (frame ▸ fits), frame]
      exact congrArg (_ :: ·) (ih left echoed)
    · rw [loopback_tooLong split queued fits, loopback_tooLong split again (frame ▸ fits)]

end Nic

namespace UsbCall
variable {nic other : Nic}

/-- What a call comes to and what it answers depends on the queues and counters alone. -/
theorem alike (same : other.bare = nic.bare) (call : UsbCall) :
    call.acts other = call.acts nic ∧ (call.run other).2 = (call.run nic).2 := by
  have outbound : other.outbound.bare = nic.outbound.bare := congrArg Nic.outbound same
  have items : other.outbound.channel.items = nic.outbound.channel.items :=
    congrArg (·.outbound.channel.items) same
  cases call with
  | receive | receiveFailed | reset => exact ⟨rfl, rfl⟩
  | transmit room => simp only [acts, run, Outbound.transmit_alike outbound, and_self]
  | transmitNext => simp only [acts, run, Outbound.transmitNext_alike outbound, and_self]
  | transmitDone =>
    cases queued : nic.outbound.channel.items with
    | nil => simp only [acts, run, Channel.isEmpty, Outbound.transmitDone?, items, queued,
        Channel.pop?_nil queued, Channel.pop?_nil (items.trans queued), Option.map_none, and_self]
    | cons p queue => simp only [acts, run, Channel.isEmpty, Outbound.transmitDone?, items, queued,
        Channel.pop?_cons queued, Channel.pop?_cons (items.trans queued), Option.map_some, and_self]
  | pollTransmit =>
    have empty : other.outbound.channel.isEmpty = nic.outbound.channel.isEmpty :=
      congrArg List.isEmpty items
    simp only [acts, run, Outbound.pollTransmit, Channel.pollPop, empty]
    cases nic.outbound.channel.isEmpty <;> exact ⟨trivial, rfl⟩
  | loopback split =>
    have frame : other.outbound.frame = nic.outbound.frame := congrArg (·.outbound.frame) same
    constructor
    · simp only [acts, frame, items]
    · exact congrArg UsbReply.lengths (Nic.loopback_alike split rfl same)

end UsbCall

namespace Nic
variable {nic other : Nic}

theorem run_alike (same : other.bare = nic.bare) (call : UsbCall) :
    (call.run other).1.bare = (call.run nic).1.bare :=
  (call.performs nic).alike ((call.alike same).1 ▸ call.performs other) same

/-- What calls answer one after the other, and what can be read off after each. -/
def watch (nic : Nic) : List UsbCall → List (UsbReply × Observation)
  | [] => []
  | call :: calls => ((call.run nic).2, (call.run nic).1.observe) :: (call.run nic).1.watch calls

/-- How a wait goes for something that is there where `ready` holds. It ends with the first attempt
that finds it, or is given up after the last call; the calls up to then do what they do by
themselves. -/
structure Awaits (ready : Nic → Prop) (nic : Nic) (calls : List UsbCall) (wait : Wait α) :
    Prop where
  enough : wait.steps.length ≤ calls.length
  absent : ∀ n < wait.steps.length, ¬ready (nic.answer (calls.take n)).1
  found : wait.result.isSome ↔ ready (nic.answer (calls.take wait.steps.length)).1
  given_up : wait.result = none → wait.steps.length = calls.length
  steps : wait.steps.map (fun s => (s.reply, s.state)) = nic.watch (calls.take wait.steps.length)

/-- Attempts that find what is there where `ready` holds, and otherwise leave all as it is but for
the registration. -/
structure Attempts (poll : Nic → Nic × Option α) (ready : Nic → Prop) : Prop where
  found (nic : Nic) : (poll nic).2.isSome ↔ ready nic
  alike {nic other : Nic} : other.bare = nic.bare → (ready other ↔ ready nic)
  pending {nic : Nic} : (poll nic).2 = none → (poll nic).1.bare = nic.bare

namespace Awaits
variable {ready : Nic → Prop} {call : UsbCall} {calls : List UsbCall}

theorem at_once {result : Option α} (found : result.isSome ↔ ready nic)
    (last : result = none → calls = []) : nic.Awaits ready calls ⟨result, []⟩ where
  enough := Nat.zero_le _
  absent n short := absurd short (Nat.not_lt_zero n)
  found := found
  given_up none := (congrArg List.length (last none)).symm
  steps := rfl

theorem later {wait : Wait α} {step : WaitStep} (absent : ¬ready nic)
    (rest : (call.run nic).1.Awaits ready calls wait) (reply : step.reply = (call.run nic).2)
    (state : step.state = (call.run nic).1.observe) :
    nic.Awaits ready (call :: calls) { wait with steps := step :: wait.steps } where
  enough := Nat.succ_le_succ rest.enough
  absent n short := by
    cases n with
    | zero => exact absent
    | succ n => exact rest.absent n (Nat.lt_of_succ_lt_succ short)
  found := rest.found
  given_up none := congrArg Nat.succ (rest.given_up none)
  steps := by
    simp only [List.map_cons, reply, state, rest.steps, List.length_cons, List.take_succ_cons,
      watch]

end Awaits

theorem await_found {poll : Nic → Nic × Option α} {next : Nic} {a : α}
    (polled : poll nic = (next, some a)) (calls : List UsbCall) :
    nic.await poll calls = (next, ⟨some a, []⟩) := by
  cases calls <;> simp only [await, polled]

/-- What is left of a wait is the last attempt, on an interface that looks like one which has
served the calls alone. -/
theorem await_awaits {poll : Nic → Nic × Option α} {ready : Nic → Prop}
    (attempts : Attempts poll ready) (same : other.bare = nic.bare) (calls : List UsbCall) :
    let waited := other.await poll calls
    nic.Awaits ready calls waited.2 ∧
      ∃ last, last.bare = (nic.answer (calls.take waited.2.steps.length)).1.bare ∧
        poll last = (waited.1, waited.2.result) := by
  induction calls generalizing nic other with
  | nil =>
    have found := (attempts.found other).trans (attempts.alike same)
    exact ⟨.at_once found fun _ => rfl, other, same, rfl⟩
  | cons call calls ih =>
    have found := (attempts.found other).trans (attempts.alike same)
    rcases polled : poll other with ⟨next, _ | a⟩
    · have kept := attempts.pending (congrArg Prod.snd polled)
      rw [polled] at found kept
      have absent : ¬ready nic := mt found.mpr Bool.false_ne_true
      obtain ⟨rest, last, reached, ended⟩ := ih (run_alike (kept.trans same) call)
      have reply := (call.alike (kept.trans same)).2
      have state := congrArg observe (run_alike (kept.trans same) call)
      simp only [await, polled]
      exact ⟨.later absent rest reply state, last, reached, ended⟩
    · rw [polled] at found
      simp only [await_found polled]
      exact ⟨.at_once found fun none => absurd none (Option.some_ne_none a), other, same, polled⟩

theorem sendAttempts (proto : EtherType) (pieces : List Bytes) :
    Attempts (pollSend proto pieces) fun nic => nic.outbound.channel.isFull = false where
  found nic := by
    simp only [pollSend, Outbound.pollSend, Channel.pollPush]
    cases nic.outbound.channel.isFull <;> simp
  alike := by
    intro nic other same
    have full : other.outbound.channel.isFull = nic.outbound.channel.isFull :=
      congrArg (·.outbound.channel.isFull) same
    rw [full]
  pending := by
    intro nic pending
    simp only [pollSend, Outbound.pollSend, Channel.pollPush] at pending ⊢
    cases full : nic.outbound.channel.isFull with
    | true => rfl
    | false => simp [full] at pending

theorem inboundAttempts : Attempts pollInbound fun nic => nic.inbound.channel.items ≠ [] where
  found nic := by
    rcases nic.pollInbound_spec with ⟨empty, -, polled⟩ | ⟨p, queue, queued, -, polled⟩
    · simp [polled, empty]
    · simp [polled, queued]
  alike := by
    intro nic other same
    have items : other.inbound.channel.items = nic.inbound.channel.items :=
      congrArg (·.inbound.channel.items) same
    rw [items]
  pending := by
    intro nic pending
    rcases nic.pollInbound_spec with ⟨_, -, polled⟩ | ⟨p, queue, _, -, polled⟩
    · rw [polled]
      rfl
    · rw [polled] at pending
      cases pending

theorem answer_mtu (nic : Nic) (calls : List UsbCall) :
    (nic.answer calls).1.outbound.mtu = nic.outbound.mtu := by
  induction calls generalizing nic with
  | nil => rfl
  | cons call calls ih => exact (ih _).trans (call.performs nic).mtu

/-- A wait for room is given up or ends as a send that comes after the calls alone. -/
theorem sendWait_awaits (bounded : nic.outbound.mtu ≤ maxPayload) (proto : EtherType)
    {pieces : List Bytes} (fits : pieces.flatten.length ≤ nic.outbound.mtu)
    (calls : List UsbCall) :
    let packet : Packet := ⟨.ofProto proto, pieces.flatten⟩
    let waited := nic.sendWait proto pieces calls
    let called := (nic.answer (calls.take waited.2.steps.length)).1
    nic.Awaits (fun nic => nic.outbound.channel.isFull = false) calls waited.2 ∧
      (waited.2.result = none ∧ waited.1.bare = called.bare ∨
        waited.2.result = some (.ok ()) ∧
          waited.1.bare = (called.perform (.accept packet)).bare) := by
  intro packet waited called
  have run : waited = nic.await (pollSend proto pieces) calls := sendWait_admitted fits calls
  obtain ⟨awaits, last, reached, polled⟩ :=
    await_awaits (sendAttempts proto pieces) (rfl : nic.bare = nic.bare) calls
  rw [← run] at awaits reached polled
  have mtu : last.outbound.mtu = nic.outbound.mtu :=
    (congrArg (·.outbound.mtu) reached).trans (nic.answer_mtu _)
  rw [pollSend_admitted (mtu ▸ bounded) (mtu ▸ fits)] at polled
  refine ⟨awaits, ?_⟩
  cases full : last.outbound.channel.isFull with
  | true =>
    rw [full, if_pos rfl] at polled
    obtain ⟨state, result⟩ := Prod.mk.inj polled
    rw [← state, ← result]
    exact .inl ⟨rfl, reached⟩
  | false =>
    rw [full, if_neg Bool.false_ne_true] at polled
    obtain ⟨state, result⟩ := Prod.mk.inj polled
    rw [← state, ← result]
    exact .inr ⟨rfl, perform_alike reached _⟩

/-- A wait for a packet sees what is there after the calls alone and leaves it. -/
theorem inboundWait_awaits (nic : Nic) (calls : List UsbCall) :
    let waited := nic.inboundWait calls
    let called := (nic.answer (calls.take waited.2.steps.length)).1
    nic.Awaits (fun nic => nic.inbound.channel.items ≠ []) calls waited.2 ∧
      waited.2.result = called.inbound.head? ∧ waited.1.bare = called.bare := by
  intro waited called
  obtain ⟨awaits, last, reached, polled⟩ :=
    await_awaits inboundAttempts (rfl : nic.bare = nic.bare) calls
  change last.pollInbound = (waited.1, waited.2.result) at polled
  have items : last.inbound.channel.items = called.inbound.channel.items :=
    congrArg (·.inbound.channel.items) reached
  refine ⟨awaits, ?_⟩
  rcases last.pollInbound_spec with ⟨empty, -, attempt⟩ | ⟨p, queue, queued, -, attempt⟩
  · obtain ⟨state, result⟩ := Prod.mk.inj (attempt.symm.trans polled)
    rw [← state, ← result, Inbound.head?, Channel.head?, ← items, empty]
    exact ⟨rfl, reached⟩
  · obtain ⟨state, result⟩ := Prod.mk.inj (attempt.symm.trans polled)
    rw [← state, ← result, Inbound.head?, Channel.head?, ← items, queued]
    exact ⟨rfl, reached⟩

/-- On a link whose limit a slot has room for, as on every link that is built: a wait to send what
is too long is refused at its first attempt. Any other ends with the first attempt that finds room,
with the answer, the queues and the counters of the calls until then and a send after them, which
queues the packet and drops nothing; given up, it leaves those of the calls alone. A wait for a
packet ends with the first attempt that finds one and sees what a look at the queue sees there, and
takes nothing, whether it is given up or not. -/
theorem waits_as_called (bounded : nic.outbound.mtu ≤ maxPayload) (proto : EtherType)
    (pieces : List Bytes) (calls : List UsbCall) :
    let packet : Packet := ⟨.ofProto proto, pieces.flatten⟩
    let after (n : Nat) : Nic := (nic.answer (calls.take n)).1
    let sent := nic.sendWait proto pieces calls
    let seen := nic.inboundWait calls
    (nic.outbound.mtu < packet.payload.length → sent = (nic, ⟨some (.error .noSpace), []⟩)) ∧
    (packet.payload.length ≤ nic.outbound.mtu →
      nic.Awaits (fun nic => nic.outbound.channel.isFull = false) calls sent.2 ∧
      match sent.2.result with
      | none => sent.1.bare = (nic.answer calls).1.bare
      | some result =>
        let called := after sent.2.steps.length
        let direct := (StackCall.send proto pieces).run called
        result = .ok () ∧ direct.2 = .ofSend result ∧ sent.1.bare = direct.1.bare ∧
          sent.1.outbound.channel.items = called.outbound.channel.items ++ [packet] ∧
          sent.1.outbound.dropped = called.outbound.dropped) ∧
    nic.Awaits (fun nic => nic.inbound.channel.items ≠ []) calls seen.2 ∧
    StackCall.head.run (after seen.2.steps.length) =
      (after seen.2.steps.length, .packet seen.2.result) ∧
    seen.1.bare = (after seen.2.steps.length).bare := by
  intro packet after sent seen
  obtain ⟨looks, result, left⟩ := nic.inboundWait_awaits calls
  refine ⟨?_, ?_, looks, ?_, left⟩
  · intro long
    exact sendWait_unadmitted (Nat.not_le.mpr long) calls
  · intro fits
    let called := after sent.2.steps.length
    obtain ⟨awaits, ⟨result, left⟩ | ⟨result, left⟩⟩ := sendWait_awaits bounded proto fits calls
    · have all : called = (nic.answer calls).1 := by
        simp only [called, after, awaits.given_up result, List.take_length, sent]
      rw [show sent.2.result = none from result]
      exact ⟨awaits, all ▸ left⟩
    · have room : called.outbound.channel.isFull = false := awaits.found.mp (result ▸ rfl)
      have mtu : called.outbound.mtu = nic.outbound.mtu := nic.answer_mtu _
      have direct : (StackCall.send proto pieces).run called =
          (called.perform (.accept packet), .done) := by
        rw [run_send (mtu ▸ bounded), if_pos (mtu ▸ fits), room, if_neg Bool.false_ne_true]
      rw [show sent.2.result = some (.ok ()) from result]
      refine ⟨awaits, rfl, ?_, ?_, ?_, ?_⟩
      · exact congrArg Prod.snd direct
      · exact left.trans (congrArg (·.1.bare) direct).symm
      · exact congrArg (·.outbound.channel.items) left
      · exact congrArg (·.outbound.dropped) left
  · rw [result]
    rfl

/-- A runt makes no room, the queued frame that is too long for its buffer does; the third call comes
too late to be made. -/
theorem waits_as_called_dropped :
    let mac : MacAddr := ⟨0x1a, 0x55, 0x89, 0xa2, 0x69, 0x41⟩
    let nic : Nic := ⟨⟨{ maxPacket := 64 }, { capacity := 1 }, 0⟩,
      { hostMac := mac, deviceMac := mac, mtu := 4, channel :=
        { capacity := 1, items := [⟨.ofProto .arp, [1, 2]⟩] } }⟩
    let pieces : List Bytes := [[4], [5]]
    let calls : List UsbCall := [.receive [3], .transmit 15, .transmitDone]
    let waited := nic.sendWait .ipv4 pieces calls
    let called := (nic.answer [.receive [3], .transmit 15]).1
    nic.outbound.mtu ≤ maxPayload ∧ pieces.flatten.length ≤ nic.outbound.mtu ∧
      waited.2.steps.length = 2 ∧ waited.2.result = some (.ok ()) ∧
      waited.1.bare = ((StackCall.send .ipv4 pieces).run called).1.bare ∧
      waited.1.outbound.channel.items = [⟨.ofProto .ipv4, [4, 5]⟩] := by
  intro mac nic pieces calls waited called
  have bounded : nic.outbound.mtu ≤ maxPayload := by decide
  have fits : pieces.flatten.length ≤ nic.outbound.mtu := by decide
  have steps : waited.2.steps.length = 2 := by decide +kernel
  have result : waited.2.result = some (.ok ()) := rfl
  obtain ⟨-, sends, -⟩ := nic.waits_as_called bounded .ipv4 pieces calls
  obtain ⟨-, ended⟩ := sends fits
  rw [show (nic.sendWait .ipv4 pieces calls).2.result = some (.ok ()) from result] at ended
  obtain ⟨-, -, left, items, -⟩ := ended
  rw [show (nic.sendWait .ipv4 pieces calls).2.steps.length = 2 from steps] at left items
  exact ⟨bounded, fits, steps, result, left, items⟩

end Nic
end UsbEthernet
