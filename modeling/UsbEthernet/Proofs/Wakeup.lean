import UsbEthernet.Proofs.Expansion

/-! Who waits is woken. A registration stays for as long as what it waits for is not there, and the
operation that brings it wakes the side that waits, once; no other operation does. -/
namespace UsbEthernet
open Session (up)

@[simp] theorem Waker.fire_registered (w : Waker) : w.fire.registered = false := by
  cases registered : w.registered <;> simp [fire, registered]

theorem Waker.fire_wakes (w : Waker) : w.fire.wakes = w.wakes + w.registered.toNat := by
  cases registered : w.registered <;> simp [fire, registered]

theorem Waker.register_of_registered {w : Waker} (registered : w.registered = true) :
    w.register = w := by
  cases w
  cases registered
  rfl

/-- What a side may wait for. -/
inductive Awaited where
  /-- A packet for the host, for the bus side. -/
  | frame
  /-- Room for a packet for the host, for the stack. -/
  | room
  /-- A packet from the host, for the stack. -/
  | packet
deriving DecidableEq

namespace Awaited

def waker (inbound outbound : Channel Packet) : Awaited → Waker
  | frame => outbound.consumer
  | room => outbound.producer
  | packet => inbound.consumer

/-- The side that waits for it is woken once more. -/
def raise (w : Wakes) : Awaited → Wakes
  | frame => { w with usb := w.usb + 1 }
  | room | packet => { w with stack := w.stack + 1 }

end Awaited

/-- What the call brings about, by its answer: room where it consumes a packet for the host, or a
packet from the host where it completes one that there is room for. -/
def UsbCall.brings (nic : Nic) : UsbCall → UsbReply → Option Awaited
  | receive transfer, _ =>
    if (nic.inbound.reassembler.receive transfer).2.isSome && !nic.inbound.channel.isFull then
      some .packet
    else none
  | transmit _, .fault _ => some .room
  | transmitDone, .done => some .room
  | transmitNext, .frame (some _) | transmitNext, .fault _ => some .room
  | _, _ => none

/-- What the call brings about, by its answer: a packet for the host where one is queued. -/
def StackCall.brings : StackCall → StackReply → Option Awaited
  | send .., .done => some .frame
  | sendWait .., .sendWait ⟨some (.ok ()), _⟩ => some .frame
  | _, _ => none

/-- What the side that made the call is told to wait for. -/
def Reply.awaited? : Reply → Option Awaited
  | usb (.ready false) => some .frame
  | stack (.sendWait ⟨none, _⟩) => some .room
  | stack (.inboundWait ⟨none, _⟩) => some .packet
  | _ => none

def Entry.awaited? : Entry → Option Awaited
  | answered reply _ _ => reply.awaited?
  | refused _ => none

namespace Session

def waker (session : Session) (a : Awaited) : Waker :=
  a.waker session.inboundChannel session.outboundChannel

/-- What is awaited is there. -/
def Has (session : Session) : Awaited → Prop
  | .frame => session.outboundChannel.items ≠ []
  | .room => session.outboundChannel.items.length < session.outboundChannel.capacity
  | .packet => session.inboundChannel.items ≠ []

instance (session : Session) : DecidablePred session.Has
  | .frame => inferInstanceAs (Decidable (session.outboundChannel.items ≠ []))
  | .room =>
    inferInstanceAs (Decidable
      (session.outboundChannel.items.length < session.outboundChannel.capacity))
  | .packet => inferInstanceAs (Decidable (session.inboundChannel.items ≠ []))

/-- How often each side has been woken, also while no interface is built. -/
def wakes (session : Session) : Wakes where
  usb := (session.waker .frame).wakes
  stack := (session.waker .room).wakes + (session.waker .packet).wakes

/-- What the operation brings about. A build, and what is passed over, brings nothing. -/
def brings : Session → Operation → Option Awaited
  | up nic, .usb call => call.brings nic (call.run nic).2
  | up nic, .stack call => call.brings (call.run nic).2
  | up _, .rebuild _ | down .., _ => none

/-- What the side that makes the operation is told to wait for. -/
def told (session : Session) (op : Operation) : Option Awaited :=
  (session.step op).2.bind Entry.awaited?

/-- The wakes after something has been brought about: one more if it was waited for. -/
def woken (session : Session) : Option Awaited → Wakes
  | some a => if (session.waker a).registered then a.raise session.wakes else session.wakes
  | none => session.wakes

/-- What happens to the packets that wait: what is brought about is a packet that comes, or one for
the host that goes. -/
inductive Moves (session next : Session) : Option Awaited → Prop where
  | accepted {p : Packet} :
      next.outboundChannel.items = session.outboundChannel.items ++ [p] →
      next.inboundChannel.items = session.inboundChannel.items → Moves session next (some .frame)
  | consumed {p : Packet} :
      session.outboundChannel.items = p :: next.outboundChannel.items →
      next.inboundChannel.items = session.inboundChannel.items → Moves session next (some .room)
  | arrived {p : Packet} :
      next.inboundChannel.items = session.inboundChannel.items ++ [p] →
      next.outboundChannel.items = session.outboundChannel.items → Moves session next (some .packet)
  | taken {p : Packet} :
      session.inboundChannel.items = p :: next.inboundChannel.items →
      next.outboundChannel.items = session.outboundChannel.items → Moves session next none
  | kept :
      next.inboundChannel.items = session.inboundChannel.items →
      next.outboundChannel.items = session.outboundChannel.items → Moves session next none

/-- Who is registered waits for something that is not there. -/
structure Watched (session : Session) : Prop where
  bounded : session.outboundChannel.items.length ≤ session.outboundChannel.capacity
  absent : ∀ a, (session.waker a).registered = true → ¬session.Has a

end Session

namespace Act

def brings (nic : Nic) : Act → Option Awaited
  | accept _ => some .frame
  | sent | tooLong => some .room
  | arrive a =>
    if (nic.inbound.reassembler.arrive a).2.isSome && !nic.inbound.channel.isFull then some .packet
    else none
  | refuse | take | awaitRoom | awaitFrame | awaitPacket => none

def awaited? : Act → Option Awaited
  | awaitFrame => some .frame
  | awaitRoom => some .room
  | awaitPacket => some .packet
  | accept _ | refuse | sent | tooLong | arrive _ | take => none

end Act

namespace Nic
variable {nic last : Nic} {act : Act} {acts : List Act}

/-- An arrival brings a packet to the queue or leaves the queue alone. -/
theorem arrive_cases (nic : Nic) (a : Arrival) :
    (Act.brings nic (.arrive a) = none ∧ (nic.inbound.arrive a).channel = nic.inbound.channel) ∨
    Act.brings nic (.arrive a) = some .packet ∧
      ∃ p, (nic.inbound.arrive a).channel =
        { nic.inbound.channel with
          items := nic.inbound.channel.items ++ [p]
          consumer := nic.inbound.channel.consumer.fire } := by
  cases a with
  | failed | reset => exact .inl ⟨rfl, rfl⟩
  | transfer octets =>
    have fits := (nic.inbound.reassembler.receive_spec octets).2.2
    obtain ⟨reassembler, packet, received⟩ :
        ∃ r p, nic.inbound.reassembler.receive octets = (r, p) := ⟨_, _, rfl⟩
    simp only [Act.brings, Reassembler.arrive, Inbound.arrive, Inbound.receive, received] at fits ⊢
    cases packet with
    | none => exact .inl ⟨rfl, rfl⟩
    | some p =>
      cases full : nic.inbound.channel.isFull with
      | true => simp [Inbound.offer, fits p rfl, Channel.push?, full, Inbound.drop]
      | false => simp [Inbound.offer, fits p rfl, Channel.push?, full]

theorem perform_waker (nic : Nic) (act : Act) (a : Awaited) :
    (up (nic.perform act)).waker a =
      if act.brings nic = some a then ((up nic).waker a).fire
      else if act.awaited? = some a then ((up nic).waker a).register
      else (up nic).waker a := by
  cases act with
  | arrive arrival =>
    rcases nic.arrive_cases arrival with ⟨brings, channel⟩ | ⟨brings, p, channel⟩
    · rw [brings]
      cases a with
      | frame | room => rfl
      | packet => exact congrArg Channel.consumer channel
    · rw [brings]
      cases a with
      | frame | room => rfl
      | packet => exact congrArg Channel.consumer channel
  | accept | refuse | sent | tooLong | take | awaitRoom | awaitFrame | awaitPacket =>
    cases a <;> rfl

/-- What is not there is there after an act if and only if the act brings it. -/
theorem perform_has (allowed : nic.Allows act) (watched : (up nic).Watched) {a : Awaited}
    (absent : ¬(up nic).Has a) : (up (nic.perform act)).Has a ↔ act.brings nic = some a := by
  have unchanged (nothing : act.brings nic ≠ some a)
      (same : (up (nic.perform act)).Has a ↔ (up nic).Has a) :
      (up (nic.perform act)).Has a ↔ act.brings nic = some a :=
    iff_of_false (mt same.mp absent) nothing
  cases act with
  | refuse | awaitRoom | awaitFrame | awaitPacket => exact unchanged (by simp [Act.brings]) Iff.rfl
  | take =>
    cases a with
    | frame | room => exact unchanged (by simp [Act.brings]) Iff.rfl
    | packet => exact absurd allowed absent
  | accept p =>
    cases a with
    | frame =>
      have queued : nic.outbound.channel.items ++ [p] ≠ [] := by simp
      exact iff_of_true queued rfl
    | room => exact absurd (Nat.not_le.mp (of_decide_eq_false allowed.1)) absent
    | packet => exact unchanged (by simp [Act.brings]) Iff.rfl
  | sent | tooLong =>
    cases a with
    | frame => exact absurd allowed absent
    | room =>
      have positive := List.length_pos_iff.mpr allowed
      have bounded : nic.outbound.channel.items.length ≤ nic.outbound.channel.capacity :=
        watched.bounded
      have left : nic.outbound.channel.items.tail.length < nic.outbound.channel.capacity := by
        rw [List.length_tail]
        omega
      exact iff_of_true left rfl
    | packet => exact unchanged (by simp [Act.brings]) Iff.rfl
  | arrive arrival =>
    rcases nic.arrive_cases arrival with ⟨brings, channel⟩ | ⟨brings, p, channel⟩
    · refine unchanged (by simp [brings]) ?_
      cases a with
      | frame | room => rfl
      | packet => exact iff_of_eq (congrArg (fun c : Channel Packet => c.items ≠ []) channel)
    · cases a with
      | frame | room => exact unchanged (by simp [brings]) Iff.rfl
      | packet =>
        have queued : (nic.inbound.arrive arrival).channel.items ≠ [] := by simp [channel]
        exact iff_of_true queued brings

/-- Who is told to wait is told so rightly. -/
theorem absent_of_awaited (allowed : nic.Allows act) {a : Awaited} (awaits : act.awaited? = some a) :
    ¬(up nic).Has a := by
  cases act with
  | awaitFrame =>
    cases awaits
    exact not_not_intro allowed
  | awaitRoom =>
    cases awaits
    exact Nat.not_lt.mpr (of_decide_eq_true allowed)
  | awaitPacket =>
    cases awaits
    exact not_not_intro allowed
  | accept | refuse | sent | tooLong | arrive | take => cases awaits

theorem perform_watched (allowed : nic.Allows act) (watched : (up nic).Watched) :
    (up (nic.perform act)).Watched := by
  have queue := (outbound_perform allowed).queue
  constructor
  · have capacity : (up (nic.perform act)).outboundChannel.capacity =
        nic.outbound.channel.capacity := queue.capacity
    rw [capacity]
    exact queue.bounded watched.bounded
  · intro a registered
    rw [perform_waker] at registered
    by_cases brought : act.brings nic = some a
    · rw [if_pos brought] at registered
      simp at registered
    · rw [if_neg brought] at registered
      by_cases awaits : act.awaited? = some a
      · have absent := absent_of_awaited allowed awaits
        exact mt (perform_has allowed watched absent).mp brought
      · rw [if_neg awaits] at registered
        have absent := watched.absent a registered
        exact mt (perform_has allowed watched absent).mp brought

theorem perform_moves (allowed : nic.Allows act) :
    (up nic).Moves (up (nic.perform act)) (act.brings nic) := by
  cases act with
  | accept => exact .accepted rfl rfl
  | refuse | awaitRoom | awaitFrame | awaitPacket => exact .kept rfl rfl
  | sent | tooLong =>
    obtain ⟨p, queue, queued⟩ := List.exists_cons_of_ne_nil allowed
    have left : nic.outbound.channel.rest.items = queue := congrArg List.tail queued
    exact .consumed (queued.trans (congrArg (p :: ·) left.symm)) rfl
  | take =>
    obtain ⟨p, queue, queued⟩ := List.exists_cons_of_ne_nil allowed
    have left : nic.inbound.channel.rest.items = queue := congrArg List.tail queued
    exact .taken (queued.trans (congrArg (p :: ·) left.symm)) rfl
  | arrive arrival =>
    rcases nic.arrive_cases arrival with ⟨brings, channel⟩ | ⟨brings, p, channel⟩
    · rw [brings]
      exact .kept (congrArg Channel.items channel) rfl
    · rw [brings]
      exact .arrived (congrArg Channel.items channel) rfl

theorem Performs.watched (performed : nic.Performs acts last) (watched : (up nic).Watched) :
    (up last).Watched := by
  induction performed with
  | nil => exact watched
  | cons allowed _ ih => exact ih (perform_watched allowed watched)

end Nic

/-- The answer tells what the act brings about, and whether it is to wait. -/
theorem UsbCall.Answers.signals {nic : Nic} {call : UsbCall} {act : Option Act} {reply : UsbReply}
    (answers : call.Answers nic act reply) :
    call.brings nic reply = act.bind (Act.brings nic) ∧
      (Reply.usb reply).awaited? = act.bind Act.awaited? := by
  cases answers <;> exact ⟨rfl, rfl⟩

theorem StackCall.Answers.signals {nic : Nic} {call : StackCall} {act : Option Act}
    {reply : StackReply} (answers : call.Answers nic act reply) :
    call.brings reply = act.bind (Act.brings nic) ∧
      (Reply.stack reply).awaited? = act.bind Act.awaited? := by
  cases answers with
  | attempted attempt => cases attempt <;> exact ⟨rfl, rfl⟩
  | queued | dropped | unfit | unadmitted | pending | found | seen | astray | taken | none | popped
  | info => exact ⟨rfl, rfl⟩

namespace Session
variable {session : Session} {op : Operation}

theorem told_rebuild (session : Session) (settings : Settings) :
    session.told (.rebuild settings) = none := by
  change (session.rebuild settings).2.awaited? = none
  unfold rebuild
  split <;> rfl

theorem single_act (nic : Nic) (single : op.isSingle = true) :
    ∃ act : Option Act, (up nic).actsOf op = act.toList ∧
      (up nic).brings op = act.bind (Act.brings nic) ∧
      (up nic).told op = act.bind Act.awaited? := by
  cases op with
  | rebuild settings => exact ⟨none, rfl, rfl, told_rebuild _ settings⟩
  | usb call =>
    obtain ⟨act, answers, acts, -⟩ := call.answers nic single
    exact ⟨act, acts, answers.signals⟩
  | stack call =>
    obtain ⟨act, answers, acts, -⟩ := call.answers nic single
    exact ⟨act, acts, answers.signals⟩

/-- A single operation performs one act on an interface, or leaves both queues alone. -/
theorem step_single (session : Session) (single : op.isSingle = true) :
    (∃ nic act, session = up nic ∧ nic.Allows act ∧ (session.step op).1 = up (nic.perform act) ∧
      session.brings op = act.brings nic ∧ session.told op = act.awaited?) ∨
    (session.step op).1.inboundChannel = session.inboundChannel ∧
      (session.step op).1.outboundChannel = session.outboundChannel ∧
      session.brings op = none ∧ session.told op = none := by
  cases session with
  | down inbound outbound =>
    rcases (down inbound outbound).step_cases op with ⟨_, _, up, -, -⟩ | ⟨-, inbound, outbound⟩
    · cases up
    · refine .inr ⟨inbound, outbound, rfl, ?_⟩
      cases op with
      | usb | stack => rfl
      | rebuild settings => exact told_rebuild _ settings
  | up nic =>
    obtain ⟨act, acts, brought, told⟩ := single_act nic single
    rcases (up nic).step_cases op with ⟨_, next, same, stepped, performed⟩ | ⟨none, inbound, outbound⟩
    · cases same
      rw [acts] at performed
      rw [stepped]
      cases act with
      | none =>
        cases performed
        exact .inr ⟨rfl, rfl, brought, told⟩
      | some a =>
        obtain _ | ⟨allowed, rest⟩ := performed
        cases rest
        exact .inl ⟨nic, a, rfl, allowed, rfl, brought, told⟩
    · obtain rfl := Option.toList_eq_nil_iff.mp (acts.symm.trans none)
      exact .inr ⟨inbound, outbound, brought, told⟩

theorem step_moves (single : op.isSingle = true) :
    session.Moves (session.step op).1 (session.brings op) := by
  rcases session.step_single single with
    ⟨nic, act, rfl, allowed, stepped, brought, -⟩ | ⟨inbound, outbound, brought, -⟩
  · rw [stepped, brought]
    exact Nic.perform_moves allowed
  · rw [brought]
    exact .kept (congrArg Channel.items inbound) (congrArg Channel.items outbound)

theorem step_waker (single : op.isSingle = true) (a : Awaited) :
    (session.step op).1.waker a =
      if session.brings op = some a then (session.waker a).fire
      else if session.told op = some a then (session.waker a).register
      else session.waker a := by
  rcases session.step_single single with
    ⟨nic, act, rfl, -, stepped, brought, told⟩ | ⟨inbound, outbound, brought, told⟩
  · rw [stepped, brought, told]
    exact nic.perform_waker act a
  · rw [brought, told, waker, inbound, outbound]
    rfl

theorem brings_of_told (single : op.isSingle = true) {a : Awaited}
    (told : session.told op = some a) : session.brings op = none := by
  rcases session.step_single single with ⟨nic, act, rfl, -, -, brought, awaits⟩ | ⟨-, -, -, silent⟩
  · rw [brought]
    rw [told] at awaits
    cases act with
    | awaitFrame | awaitRoom | awaitPacket => rfl
    | accept | refuse | sent | tooLong | arrive | take => cases awaits
  · rw [silent] at told
    cases told

/-- A registration is made by a side that is told to wait, and ends when what it waits for is
brought. -/
theorem step_registered (single : op.isSingle = true) (a : Awaited) :
    ((session.step op).1.waker a).registered = true ↔
      session.told op = some a ∨
        session.brings op ≠ some a ∧ (session.waker a).registered = true := by
  rw [step_waker single]
  by_cases brought : session.brings op = some a
  · have quiet : session.told op ≠ some a := by
      intro told
      rw [brings_of_told single told] at brought
      cases brought
    simp [brought, quiet]
  · by_cases told : session.told op = some a
    · simp [brought, told, Waker.register]
    · simp [brought, told]

theorem step_wakes (single : op.isSingle = true) :
    (session.step op).1.wakes = session.woken (session.brings op) := by
  have raised (a : Awaited) : ((session.step op).1.waker a).wakes =
      (session.waker a).wakes +
        if session.brings op = some a then (session.waker a).registered.toNat else 0 := by
    rw [step_waker single]
    split
    · exact Waker.fire_wakes _
    · split <;> rfl
  cases brought : session.brings op with
  | none => simp [wakes, woken, raised, brought]
  | some a =>
    cases registered : (session.waker a).registered with
    | false => cases a <;> simp [wakes, woken, raised, brought, registered]
    | true =>
      cases a with
      | frame | packet =>
        simp [wakes, woken, Awaited.raise, raised, brought, registered, Nat.add_assoc]
      | room => simp [wakes, woken, Awaited.raise, raised, brought, registered, Nat.add_right_comm]

theorem has_of_channels {next : Session} (inbound : next.inboundChannel = session.inboundChannel)
    (outbound : next.outboundChannel = session.outboundChannel) (a : Awaited) :
    next.Has a ↔ session.Has a := by
  cases a <;> simp only [Has, inbound, outbound]

theorem Watched.of_channels {next : Session} (watched : session.Watched)
    (inbound : next.inboundChannel = session.inboundChannel)
    (outbound : next.outboundChannel = session.outboundChannel) : next.Watched := by
  constructor
  · rw [outbound]
    exact watched.bounded
  · intro a registered
    rw [waker, inbound, outbound] at registered
    exact mt (has_of_channels inbound outbound a).mp (watched.absent a registered)

theorem Watched.step (watched : session.Watched) (op : Operation) :
    (session.step op).1.Watched := by
  rcases session.step_cases op with ⟨nic, next, rfl, stepped, performed⟩ | ⟨-, inbound, outbound⟩
  · rw [stepped]
    exact performed.watched watched
  · exact watched.of_channels inbound outbound

theorem Watched.run (watched : session.Watched) (ops : List Operation) :
    (session.run ops).1.Watched := by
  induction ops generalizing session with
  | nil => exact watched
  | cons op ops ih => exact ih (watched.step op)

/-- In every reachable state who is registered waits for something that is not there. -/
theorem run_watched {settings : Settings} {inboundRoom outboundRoom : Nat} {nic : Nic}
    (created : Nic.create settings inboundRoom outboundRoom = .ok nic) (ops : List Operation) :
    ((up nic).run ops).1.Watched := by
  obtain ⟨_, -, -, -, made⟩ := Nic.create_built created
  obtain ⟨-, rfl⟩ := Nic.eq_of_build made
  refine Watched.run ⟨Nat.zero_le _, ?_⟩ ops
  intro a registered
  cases a <;> cases registered

theorem Watched.step_has (watched : session.Watched) (single : op.isSingle = true) {a : Awaited}
    (absent : ¬session.Has a) : (session.step op).1.Has a ↔ session.brings op = some a := by
  rcases session.step_single single with
    ⟨nic, act, rfl, allowed, stepped, brought, -⟩ | ⟨inbound, outbound, brought, -⟩
  · rw [stepped, brought]
    exact Nic.perform_has allowed watched absent
  · rw [brought]
    exact iff_of_false (mt (has_of_channels inbound outbound a).mp absent) (by simp)

/-- As long as what is awaited is not there, the side that waits for it is left alone. -/
theorem Watched.run_waker (watched : session.Watched) {a : Awaited} {ops : List Operation}
    (registered : (session.waker a).registered = true)
    (single : ∀ op ∈ ops, op.isSingle = true)
    (absent : ∀ n ≤ ops.length, ¬(session.run (ops.take n)).1.Has a) :
    (session.run ops).1.waker a = session.waker a := by
  induction ops generalizing session with
  | nil => rfl
  | cons op ops ih =>
    obtain ⟨first, rest⟩ := List.forall_mem_cons.mp single
    have nothing : session.brings op ≠ some a := by
      have later : ¬(session.step op).1.Has a := absent 1 (Nat.le_add_left 1 _)
      exact mt (watched.step_has first (absent 0 (Nat.zero_le _))).mpr later
    have same : (session.step op).1.waker a = session.waker a := by
      rw [step_waker first, if_neg nothing]
      split
      · exact Waker.register_of_registered registered
      · rfl
    rw [run_cons, ih (watched.step op) (same ▸ registered) rest, same]
    intro n short
    exact absent (n + 1) (Nat.succ_le_succ short)

/-- In every reachable state a registration is for something that is not there, and the same state
is reached by single operations. A single operation wakes the side that waits for what it brings,
once, and nobody if it brings nothing; it is registered who is told to wait. So the first
operation that brings what is awaited is the one that wakes the side, however many others come
in between. -/
theorem run_wakes {settings : Settings} {inboundRoom outboundRoom : Nat} {nic : Nic}
    (created : Nic.create settings inboundRoom outboundRoom = .ok nic) (ops : List Operation) :
    let session := ((up nic).run ops).1
    (∀ a, (session.waker a).registered = true → ¬session.Has a) ∧
    ((up nic).run ((up nic).expand ops)).1 = session ∧
    (∀ op ∈ (up nic).expand ops, op.isSingle = true) ∧
    (∀ op, op.isSingle = true →
      let next := (session.step op).1
      session.Moves next (session.brings op) ∧
      next.wakes = session.woken (session.brings op) ∧
      ∀ a, (next.waker a).registered = true ↔
        session.told op = some a ∨
          session.brings op ≠ some a ∧ (session.waker a).registered = true) ∧
    ∀ a quiet op, (session.waker a).registered = true →
      (∀ single ∈ quiet ++ [op], single.isSingle = true) →
      (∀ n ≤ quiet.length, ¬(session.run (quiet.take n)).1.Has a) →
      (session.run (quiet ++ [op])).1.Has a →
      let last := (session.run quiet).1
      last.waker a = session.waker a ∧ last.brings op = some a ∧
        (last.step op).1.wakes = a.raise last.wakes := by
  intro session
  have watched : session.Watched := run_watched created ops
  refine ⟨watched.absent, run_expand _ ops, expand_single _ ops, ?_, ?_⟩
  · intro op single
    exact ⟨step_moves single, step_wakes single, step_registered single⟩
  · intro a quiet op registered singles absent there last
    obtain ⟨quiets, single⟩ := List.forall_mem_append.mp singles
    have single := single op List.mem_cons_self
    have same : last.waker a = session.waker a := watched.run_waker registered quiets absent
    have missing : ¬last.Has a := by
      have all := absent quiet.length (Nat.le_refl _)
      rwa [List.take_length] at all
    have brought : last.brings op = some a := by
      rw [run_append] at there
      exact ((watched.run quiet).step_has single missing).mp there
    refine ⟨same, brought, ?_⟩
    rw [step_wakes single, brought, woken, same, if_pos registered]

/-- A bus side that is told to wait is woken by the packet that is queued after a rebuild, a packet
that is too long and a runt. -/
theorem run_wakes_rebuilt :
    let nic : Nic := ⟨⟨{ maxPacket := 512 }, { capacity := 1 }, 0⟩,
      { hostMac := ⟨0x1a, 0x55, 0x89, 0xa2, 0x69, 0x41⟩
        deviceMac := ⟨0x1a, 0x55, 0x89, 0xa2, 0x69, 0x42⟩
        mtu := 1500
        channel := { capacity := 1 } }⟩
    let session := ((up nic).run [.usb .pollTransmit, .rebuild { mtu := 1 }]).1
    let quiet : List Operation := [.stack (.send .ipv4 [[1], [2]]), .usb (.receive [3])]
    let op : Operation := .stack (.send .ipv4 [[4]])
    Nic.create {} 1 1 = .ok nic ∧
      (session.waker .frame).registered = true ∧
      (∀ single ∈ quiet ++ [op], single.isSingle = true) ∧
      (∀ n ≤ quiet.length, ¬(session.run (quiet.take n)).1.Has .frame) ∧
      (session.run (quiet ++ [op])).1.Has .frame ∧
      (session.run (quiet ++ [op])).1.wakes = ⟨1, 0⟩ := by
  intro nic session quiet op
  have created : Nic.create {} 1 1 = .ok nic := rfl
  have registered : (session.waker .frame).registered = true := by decide +kernel
  have single : ∀ single ∈ quiet ++ [op], single.isSingle = true := by decide
  have absent : ∀ n ≤ quiet.length, ¬(session.run (quiet.take n)).1.Has .frame := by
    decide +kernel
  have there : (session.run (quiet ++ [op])).1.Has .frame := by decide +kernel
  obtain ⟨-, -, -, -, first⟩ := run_wakes created [.usb .pollTransmit, .rebuild { mtu := 1 }]
  obtain ⟨-, -, woken⟩ := first .frame quiet op registered single absent there
  refine ⟨created, registered, single, absent, there, ?_⟩
  rw [run_append, run_cons]
  refine woken.trans ?_
  decide +kernel

end Session
end UsbEthernet
