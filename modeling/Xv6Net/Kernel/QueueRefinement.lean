import Xv6Net.Kernel.Queue
import Xv6Net.Library.Simulation

/-! The circular queue is a first-in first-out list of at most `QUEUE_SIZE` elements, whatever is
called on it after `initqueue`.
-/

namespace Xv6Net

open Library

inductive QueueOp where
  | enqueue (d : Int)
  | dequeue
  | getFront
  | isQueueFull
  | isQueueEmpty

inductive QueueAnswer where
  | done
  | element (x : Int)
  | truth (b : Bool)
  deriving DecidableEq

def Queue.apply (q : Queue) : QueueOp → QueueAnswer × Queue
  | .enqueue d => (.done, Xv6Net.enqueue q d)
  | .dequeue => (.element (Xv6Net.dequeue q).1, (Xv6Net.dequeue q).2)
  | .getFront => (.element (Xv6Net.getFront q), q)
  | .isQueueFull => (.truth (Xv6Net.isQueueFull q), q)
  | .isQueueEmpty => (.truth (Xv6Net.isQueueEmpty q), q)

/-- The indexes of the array at which a call reads or writes. -/
def QueueOp.indexes (q : Queue) : QueueOp → List Int
  | .enqueue _ => if (q.rear + 1).tmod q.size = q.front then [] else [(q.rear + 1).tmod q.size]
  | .dequeue | .getFront => if q.front = -1 then [] else [q.front]
  | .isQueueFull | .isQueueEmpty => []

/-- A list of bounded length, oldest element first. -/
def boundedFifo (capacity : Nat) (items : List Int) : QueueOp → QueueAnswer × List Int
  | .enqueue d => (.done, if items.length < capacity then items ++ [d] else items)
  | .dequeue => (.element (items.headD (-1)), items.tail)
  | .getFront => (.element (items.headD 0), items)
  | .isQueueFull => (.truth (items.length = capacity), items)
  | .isQueueEmpty => (.truth (items = []), items)

/-- The queue is in order and holds these elements. -/
def Queue.StandsFor (q : Queue) (items : List Int) : Prop := q.Valid ∧ q.items = items

namespace Queue.Valid

variable {q : Queue} (valid : q.Valid)
include valid

theorem dequeue_empty (empty : q.items = []) : dequeue q = (-1, q) := by
  have front : q.front = -1 := by simpa [isQueueEmpty] using valid.empty_iff.mpr empty
  rw [dequeue, if_pos front]

/-- A call does on the queue what it does on the list. -/
theorem apply_refines (op : QueueOp)
    : (q.apply op).1 = (boundedFifo 10 q.items op).1
      ∧ (q.apply op).2.StandsFor (boundedFifo 10 q.items op).2 := by
  have bound : q.items.length ≤ 10 := by
    rw [Queue.length_items]
    exact q.count_le
  cases op with
  | enqueue d =>
    refine ⟨rfl, valid.enqueue_valid d, ?_⟩
    simp only [apply, boundedFifo]
    cases full : Xv6Net.isQueueFull q with
    | false =>
      have room : q.items.length ≠ 10 := by
        rw [Ne, ← valid.full_iff, full]
        simp
      rw [valid.items_enqueue d full, if_pos (by omega)]
    | true =>
      have length := valid.full_iff.mp full
      rw [enqueue_full d full, if_neg (by omega)]
  | dequeue =>
    simp only [apply, boundedFifo]
    cases items : q.items with
    | nil =>
      rw [valid.dequeue_empty items]
      exact ⟨rfl, valid, items⟩
    | cons =>
      obtain ⟨oldest, remaining, valid'⟩ := valid.items_dequeue items
      exact ⟨congrArg _ oldest, valid', remaining⟩
  | getFront => exact ⟨congrArg _ valid.getFront_eq, valid, rfl⟩
  | isQueueFull =>
    refine ⟨congrArg _ (Bool.eq_iff_iff.mpr ?_), valid, rfl⟩
    rw [valid.full_iff, decide_eq_true_eq]
  | isQueueEmpty =>
    refine ⟨congrArg _ (Bool.eq_iff_iff.mpr ?_), valid, rfl⟩
    rw [valid.empty_iff, decide_eq_true_eq]

theorem indexes_inside (op : QueueOp) {i : Int} (used : i ∈ op.indexes q)
    : 0 ≤ i ∧ i < queueSize := by
  change 0 ≤ i ∧ i < 10
  have bounds := valid.bounds
  have next := valid.next_rear
  cases op with
  | enqueue =>
    simp only [QueueOp.indexes, next] at used
    split at used
    · cases used
    · rw [List.mem_singleton.mp used]
      omega
  | dequeue | getFront =>
    simp only [QueueOp.indexes] at used
    split at used
    · cases used
    · rw [List.mem_singleton.mp used]
      omega
  | isQueueFull | isQueueEmpty => cases used

end Queue.Valid

/-- After `initqueue`, every sequence of calls returns what it would on a list of at most
`QUEUE_SIZE` elements, the queue stands for that list, and the next call stays inside the array;
`enqueue` on a full queue and `dequeue` on an empty one change nothing at all.
-/
theorem queue_refines_fifo (q : Queue) (ops : List QueueOp)
    : let result := Machine.run Queue.apply (initQueue q) ops
      let fifo := Machine.run (boundedFifo queueSize.toNat) [] ops
      result.1 = fifo.1
      ∧ result.2.items = fifo.2
      ∧ (∀ (op : QueueOp) (i : Int), i ∈ op.indexes result.2 → 0 ≤ i ∧ i < queueSize)
      ∧ (fifo.2.length = queueSize.toNat → ∀ d, enqueue result.2 d = result.2)
      ∧ (fifo.2 = [] → dequeue result.2 = (-1, result.2)) := by
  intro result fifo
  have start : (initQueue q).StandsFor [] := ⟨initQueue_valid q, items_initQueue q⟩
  obtain ⟨answers, valid, items⟩ : result.1 = fifo.1 ∧ result.2.StandsFor fifo.2 := by
    refine Machine.run_simulates ?_ start ops
    rintro q _ op ⟨valid, rfl⟩
    exact valid.apply_refines op
  refine ⟨answers, items, fun op i used => valid.indexes_inside op used, ?_, ?_⟩
  · intro length d
    exact Queue.Valid.enqueue_full d (valid.full_iff.mpr (items ▸ length))
  · intro empty
    exact valid.dequeue_empty (items.trans empty)

end Xv6Net
