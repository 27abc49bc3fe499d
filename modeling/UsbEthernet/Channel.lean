/-! Bounded queues with one producer and one consumer. A full queue refuses the newest item and
never gives up one that it holds. Each end may register to be woken by the next act of the
other. -/
namespace UsbEthernet

/-- Room for one registration, which stays until it is woken. -/
structure Waker where
  registered : Bool := false
  wakes : Nat := 0
deriving DecidableEq

namespace Waker

def register (w : Waker) : Waker :=
  { w with registered := true }

/-- Wakes the registration, if there is one. -/
def fire (w : Waker) : Waker :=
  if w.registered then ⟨false, w.wakes + 1⟩ else w

end Waker

structure Channel (α : Type) where
  capacity : Nat
  items : List α := []
  /-- Waits for room. -/
  producer : Waker := {}
  /-- Waits for an item. -/
  consumer : Waker := {}
deriving DecidableEq

namespace Channel

def isFull (c : Channel α) : Bool :=
  c.capacity ≤ c.items.length

def isEmpty (c : Channel α) : Bool :=
  c.items.isEmpty

def head? (c : Channel α) : Option α :=
  c.items.head?

/-- Adds an item and wakes the consumer. -/
def push? (c : Channel α) (a : α) : Option (Channel α) :=
  if c.isFull then none
  else some { c with items := c.items ++ [a], consumer := c.consumer.fire }

/-- Removes the oldest item and wakes the producer. -/
def pop? (c : Channel α) : Option (α × Channel α) :=
  match c.items with
  | [] => none
  | a :: items => some (a, { c with items, producer := c.producer.fire })

/-- The queue without its oldest item. -/
def rest (c : Channel α) : Channel α :=
  { c with items := c.items.tail, producer := c.producer.fire }

/-- Whether there is room; if there is none the producer is registered. -/
def pollPush (c : Channel α) : Channel α × Bool :=
  if c.isFull then ({ c with producer := c.producer.register }, false) else (c, true)

/-- Whether there is an item; if there is none the consumer is registered. -/
def pollPop (c : Channel α) : Channel α × Bool :=
  if c.isEmpty then ({ c with consumer := c.consumer.register }, false) else (c, true)

theorem pop?_cons {c : Channel α} {a : α} {items : List α} (h : c.items = a :: items) :
    c.pop? = some (a, c.rest) := by
  simp only [pop?, h, rest, List.tail_cons]

theorem pop?_nil {c : Channel α} (h : c.items = []) : c.pop? = none := by
  simp only [pop?, h]

theorem length_pop? {c d : Channel α} {a : α} (h : c.pop? = some (a, d)) :
    d.items.length < c.items.length := by
  unfold pop? at h
  split at h
  · cases h
  · rename_i items same
    cases h
    simp [same]

end Channel
end UsbEthernet
