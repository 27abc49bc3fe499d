import UsbEthernet.Proofs.Segment

/-! The packets that wait for the stack, as a queue without wakers: one that finds no room is
dropped and counted, and none that waits is given up. The inbound direction keeps such a queue. -/
namespace UsbEthernet

structure Backlog where
  room : Nat
  items : List Packet
  dropped : Counter
deriving DecidableEq

namespace Backlog

def offer (b : Backlog) (p : Packet) : Backlog :=
  if b.items.length < b.room then { b with items := b.items ++ [p] }
  else { b with dropped := b.dropped + 1 }

def pop (b : Backlog) : Backlog :=
  { b with items := b.items.tail }

/-- As many packets as there is room for are kept, and they are the first. -/
theorem foldl_offer (b : Backlog) (packets : List Packet) :
    packets.foldl offer b =
      { b with
        items := b.items ++ packets.take (b.room - b.items.length)
        dropped := b.dropped + UInt32.ofNat (packets.length - (b.room - b.items.length)) } := by
  induction packets generalizing b with
  | nil => simp
  | cons p packets ih =>
    rw [List.foldl_cons, ih]
    by_cases h : b.items.length < b.room
    · obtain ⟨n, left⟩ : ∃ n, b.room - b.items.length = n + 1 :=
        ⟨b.room - b.items.length - 1, by omega⟩
      have fewer : b.room - (b.items.length + 1) = n := by omega
      simp [offer, h, left, fewer]
    · have none_left : b.room - b.items.length = 0 := by omega
      simp only [offer, h, if_false, none_left, Nat.sub_zero, List.take_zero, List.length_cons,
        Counter.one_add]

end Backlog

/-- What happens at the queue: a packet is offered to it, or the stack asks for one. -/
inductive Exchange where
  | offer (p : Packet)
  | pop
deriving DecidableEq

/-- The answers that the stack gets, and the queue after them. -/
def Backlog.serve (b : Backlog) : List Exchange → Backlog × List (Option Packet)
  | [] => (b, [])
  | .offer p :: rest => (b.offer p).serve rest
  | .pop :: rest => ((b.pop.serve rest).1, b.items.head? :: (b.pop.serve rest).2)

theorem Backlog.serve_offers (b : Backlog) (packets : List Packet) (rest : List Exchange) :
    b.serve (packets.map .offer ++ rest) = (packets.foldl offer b).serve rest := by
  induction packets generalizing b with
  | nil => rfl
  | cons p packets ih => exact ih (b.offer p)

theorem Backlog.serve_append (b : Backlog) (first second : List Exchange) :
    (b.serve (first ++ second)).1 = ((b.serve first).1.serve second).1 := by
  induction first generalizing b with
  | nil => rfl
  | cons exchange first ih =>
    cases exchange with
    | offer p => exact ih (b.offer p)
    | pop => exact ih b.pop

/-- What has been dropped so far has no part in what waits. -/
theorem Backlog.items_serve (room : Nat) (items : List Packet) (m n : Counter)
    (exchanges : List Exchange) :
    (serve ⟨room, items, m⟩ exchanges).1.items = (serve ⟨room, items, n⟩ exchanges).1.items := by
  induction exchanges generalizing items m n with
  | nil => rfl
  | cons exchange rest ih =>
    cases exchange with
    | offer p =>
      simp only [serve, offer]
      split <;> exact ih _ _ _
    | pop => exact ih _ _ _

theorem Backlog.room_serve (b : Backlog) (exchanges : List Exchange) :
    (b.serve exchanges).1.room = b.room := by
  induction exchanges generalizing b with
  | nil => rfl
  | cons exchange rest ih =>
    cases exchange with
    | offer p =>
      have same : (b.offer p).room = b.room := by
        unfold offer
        split <;> rfl
      exact (ih _).trans same
    | pop => exact ih _

/-- What the stack gets, or what still waits, has waited before or was offered. -/
theorem Backlog.serve_mem (b : Backlog) (exchanges : List Exchange) (p : Packet)
    (h : some p ∈ (b.serve exchanges).2 ∨ p ∈ (b.serve exchanges).1.items) :
    p ∈ b.items ∨ .offer p ∈ exchanges := by
  induction exchanges generalizing b with
  | nil =>
    rcases h with answered | waiting
    · cases answered
    · exact .inl waiting
  | cons exchange rest ih =>
    cases exchange with
    | offer q =>
      rcases ih _ h with waiting | offered
      · by_cases room : b.items.length < b.room
        · simp only [offer, room, if_true, List.mem_append, List.mem_singleton] at waiting
          rcases waiting with waiting | rfl
          · exact .inl waiting
          · exact .inr (by simp)
        · simp only [offer, room, if_false] at waiting
          exact .inl waiting
      · exact .inr (by simp [offered])
    | pop =>
      simp only [serve, List.mem_cons, or_assoc] at h
      rcases h with head | h
      · exact .inl (List.mem_of_head? head.symm)
      · rcases ih _ h with waiting | offered
        · exact .inl (List.mem_of_mem_tail waiting)
        · exact .inr (by simp [offered])

/-- An arrival from the host, or the stack asking for a packet. -/
inductive InboundCall where
  | arrival (a : Arrival)
  | pop
deriving DecidableEq

namespace InboundCall

def arrivals : List InboundCall → List Arrival
  | [] => []
  | arrival a :: rest => a :: arrivals rest
  | pop :: rest => arrivals rest

/-- What the calls come to at the queue, after the full transfers of an open segment: a packet is
offered when its segment ends. -/
def exchanges (maxPacket : Nat) : List Bytes → List InboundCall → List Exchange
  | _, [] => []
  | full, pop :: rest => .pop :: exchanges maxPacket full rest
  | full, arrival a :: rest =>
    match a with
    | .transfer octets =>
      if octets.length = maxPacket then exchanges maxPacket (full ++ [octets]) rest
      else (Segment.verdict ⟨full, a⟩).packet?.toList.map .offer ++ exchanges maxPacket [] rest
    | .failed _ | .reset => exchanges maxPacket [] rest

variable {maxPacket : Nat}

theorem exchanges_full {octets : Bytes} (full : List Bytes) (rest : List InboundCall)
    (h : octets.length = maxPacket) :
    exchanges maxPacket full (arrival (.transfer octets) :: rest) =
      exchanges maxPacket (full ++ [octets]) rest := by
  simp only [exchanges, h, if_true]

theorem exchanges_last {last : Arrival} (full : List Bytes) (rest : List InboundCall)
    (h : last.isFull maxPacket = false) :
    exchanges maxPacket full (arrival last :: rest) =
      (Segment.verdict ⟨full, last⟩).packet?.toList.map .offer ++ exchanges maxPacket [] rest := by
  cases last with
  | transfer octets =>
    simp only [Arrival.isFull, beq_eq_false_iff_ne] at h
    simp only [exchanges, if_neg h]
  | failed _ | reset =>
    by_cases empty : full = [] <;>
      simp [exchanges, Segment.verdict, empty, Verdict.packet?]

/-- Where the stack asks for nothing, the packets of the segments are offered in their order. -/
theorem exchanges_arrivals (full : List Bytes) (arrivals : List Arrival) :
    exchanges maxPacket full (arrivals.map arrival) =
      ((cut maxPacket full arrivals).1.filterMap fun s => s.verdict.packet?).map .offer := by
  induction arrivals generalizing full with
  | nil => rfl
  | cons a arrivals ih =>
    rcases a.full_or_last maxPacket with ⟨octets, rfl, length⟩ | last
    · rw [List.map_cons, exchanges_full _ _ length, cut_full _ _ length, ih]
    · rw [List.map_cons, exchanges_last _ _ last, cut_last _ _ last, ih]
      cases packet : (Segment.verdict ⟨full, a⟩).packet? <;> simp [packet]

theorem offer_mem_exchanges {p : Packet} (full : List Bytes) (calls : List InboundCall)
    (h : .offer p ∈ exchanges maxPacket full calls) :
    ∃ s ∈ (cut maxPacket full (arrivals calls)).1, s.verdict.packet? = some p := by
  induction calls generalizing full with
  | nil => cases h
  | cons call calls ih =>
    cases call with
    | pop =>
      simp only [exchanges, List.mem_cons, reduceCtorEq, false_or] at h
      exact ih full h
    | arrival a =>
      rw [arrivals]
      rcases a.full_or_last maxPacket with ⟨octets, rfl, length⟩ | last
      · rw [exchanges_full _ _ length] at h
        rw [cut_full _ _ length]
        exact ih _ h
      · rw [exchanges_last _ _ last, List.mem_append] at h
        rw [cut_last _ _ last]
        rcases h with own | later
        · refine ⟨_, List.mem_cons_self .., ?_⟩
          simpa using own
        · obtain ⟨s, mem, delivered⟩ := ih _ later
          exact ⟨s, List.mem_cons_of_mem _ mem, delivered⟩

end InboundCall

namespace Inbound

def backlog (i : Inbound) : Backlog :=
  ⟨i.channel.capacity, i.channel.items, i.dropped⟩

theorem backlog_offer (i : Inbound) {p : Packet} (h : p.fits = true) :
    (i.offer p).backlog = i.backlog.offer p := by
  by_cases full : i.channel.capacity ≤ i.channel.items.length
  · simp [offer, h, Channel.push?, Channel.isFull, full, drop, backlog, Backlog.offer,
      Nat.not_lt.mpr full]
  · simp [offer, h, Channel.push?, Channel.isFull, full, backlog, Backlog.offer,
      Nat.not_le.mp full]

theorem reassembler_offer (i : Inbound) (p : Packet) :
    (i.offer p).reassembler = i.reassembler := by
  unfold offer
  split
  · split <;> rfl
  · rfl

theorem backlog_pop (i : Inbound) : i.pop.1.backlog = i.backlog.pop := by
  cases h : i.channel.items with
  | nil => simp [pop, Channel.pop?, h, backlog, Backlog.pop]
  | cons p rest => simp [pop, Channel.pop?, h, backlog, Backlog.pop]

theorem pop_answer (i : Inbound) : i.pop.2 = i.backlog.items.head? := by
  cases h : i.channel.items with
  | nil => simp [pop, Channel.pop?, h, backlog]
  | cons p rest => simp [pop, Channel.pop?, h, backlog]

theorem reassembler_pop (i : Inbound) : i.pop.1.reassembler = i.reassembler := by
  unfold pop
  split <;> rfl

end Inbound
end UsbEthernet
