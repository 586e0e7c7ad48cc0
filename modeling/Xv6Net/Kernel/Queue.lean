import Mathlib.Data.List.Basic

/-! The circular queue of `queue.c` and the list it stands for. The send window of a
connection and the pending requests of a listening socket are both queues of pointers.
-/

namespace Xv6Net

open Function

abbrev queueSize : Int := 10

/-- `struct queue`. The array is a function, so that an index outside it would show; `%` of C is
`Int.tmod`.
-/
structure Queue where
  front : Int
  rear : Int
  size : Int
  A : Int → Int

def initQueue (q : Queue) : Queue :=
  { q with front := -1, rear := -1, size := queueSize }

def enqueue (q : Queue) (d : Int) : Queue :=
  if (q.rear + 1).tmod q.size = q.front then
    q
  else
    let front := if q.front = -1 then q.front + 1 else q.front
    let rear := (q.rear + 1).tmod q.size
    { q with front, rear, A := update q.A rear d }

/-- The returned element and the queue without it; `-1` from an empty queue. -/
def dequeue (q : Queue) : Int × Queue :=
  if q.front = -1 then
    (-1, q)
  else
    let x := q.A q.front
    if q.front ≠ -1 ∧ q.front = q.rear then
      (x, { q with front := -1, rear := -1 })
    else
      (x, { q with front := (q.front + 1).tmod q.size })

def getFront (q : Queue) : Int :=
  if q.front = -1 then 0 else q.A q.front

def isQueueFull (q : Queue) : Bool :=
  (q.rear + 1).tmod q.size = q.front

def isQueueEmpty (q : Queue) : Bool :=
  q.front = -1

/-- What `initqueue` establishes and all calls keep: the indexes of an empty queue, or both inside
the array.
-/
structure Queue.Valid (q : Queue) : Prop where
  size : q.size = queueSize
  bounds
    : (q.front = -1 ∧ q.rear = -1)
      ∨ (0 ≤ q.front ∧ q.front < 10 ∧ 0 ≤ q.rear ∧ q.rear < 10)

def Queue.count (q : Queue) : Nat :=
  if q.front = -1 then 0 else ((q.rear - q.front) % 10 + 1).toNat

def Queue.items (q : Queue) : List Int :=
  (List.range q.count).map (fun (j : Nat) => q.A ((q.front + j) % 10))

@[simp]
theorem Queue.length_items (q : Queue) : q.items.length = q.count := by
  simp [items]

theorem Queue.getElem_items (q : Queue) (j : Nat) (h : j < q.items.length)
    : q.items[j] = q.A ((q.front + j) % 10) := by
  simp [items]

theorem Queue.count_le (q : Queue) : q.count ≤ 10 := by
  unfold count
  split <;> omega

theorem initQueue_valid (q : Queue) : (initQueue q).Valid :=
  ⟨rfl, Or.inl ⟨rfl, rfl⟩⟩

@[simp]
theorem items_initQueue (q : Queue) : (initQueue q).items = [] := by
  simp [Queue.items, Queue.count, initQueue]

namespace Queue.Valid

variable {q : Queue} (valid : q.Valid)
include valid

theorem next_rear : (q.rear + 1).tmod q.size = (q.rear + 1) % 10 := by
  rw [valid.size]
  rcases valid.bounds with ⟨_, rear⟩ | ⟨_, _, low, _⟩
  · rw [rear]
    rfl
  · exact Int.tmod_eq_emod_of_nonneg (by omega)

theorem full_iff : isQueueFull q = true ↔ q.items.length = 10 := by
  have bounds := valid.bounds
  simp only [isQueueFull, valid.next_rear, decide_eq_true_eq, Queue.length_items, Queue.count]
  split <;> omega

theorem empty_iff : isQueueEmpty q = true ↔ q.items = [] := by
  have bounds := valid.bounds
  rw [← List.length_eq_zero_iff, Queue.length_items]
  simp only [isQueueEmpty, Queue.count, decide_eq_true_eq]
  split <;> omega

/-- An element is appended unless the queue is full, in the first slot behind the `count` occupied
ones.
-/
theorem items_enqueue (d : Int) (room : isQueueFull q = false)
    : (enqueue q d).items = q.items ++ [d] := by
  have bounds := valid.bounds
  have free : ¬ (q.rear + 1) % 10 = q.front := by
    simpa [isQueueFull, valid.next_rear] using room
  have count : (enqueue q d).count = q.count + 1 := by
    simp only [enqueue, valid.next_rear, if_neg free, Queue.count]
    by_cases empty : q.front = -1
    · have rear : q.rear = -1 := by omega
      simp [empty, rear]
    · simp only [empty, if_false]
      omega
  have start : q.front ≠ -1 → (enqueue q d).front = q.front := by
    intro nonempty
    simp [enqueue, valid.next_rear, free, nonempty]
  have cells : (enqueue q d).A = update q.A ((q.rear + 1) % 10) d := by
    simp [enqueue, valid.next_rear, free]
  apply List.ext_getElem
  · simp [count]
  · intro j _ bound
    simp only [List.length_append, Queue.length_items, List.length_singleton] at bound
    rw [Queue.getElem_items, cells, List.getElem_append]
    by_cases empty : q.front = -1
    · have zero : q.count = 0 := by simp [Queue.count, empty]
      have first : j = 0 := by omega
      have front : (enqueue q d).front = 0 := by
        simp [enqueue, valid.next_rear, empty, show ¬ (q.rear + 1) % 10 = -1 by omega]
      have rear : q.rear = -1 := by omega
      subst first
      simp [front, rear, zero]
    · rw [start empty]
      have size : (q.count : Int) = (q.rear - q.front) % 10 + 1 := by
        simp only [Queue.count, if_neg empty]
        omega
      split
      · rename_i old
        rw [Queue.length_items] at old
        rw [Queue.getElem_items, update_of_ne (by omega)]
      · rename_i new
        rw [Queue.length_items] at new
        have last : (q.front + j) % 10 = (q.rear + 1) % 10 := by omega
        simp [last]

theorem enqueue_valid (d : Int) : (enqueue q d).Valid := by
  have bounds := valid.bounds
  simp only [enqueue, valid.next_rear]
  split
  · exact valid
  · refine ⟨valid.size, Or.inr ?_⟩
    simp only
    split <;> omega

omit valid in
theorem enqueue_full (d : Int) (full : isQueueFull q = true) : enqueue q d = q := by
  have wraps : (q.rear + 1).tmod q.size = q.front := by simpa [isQueueFull] using full
  simp [enqueue, wraps]

/-- The oldest element is returned and removed; every occupied slot is shifted by one. -/
theorem items_dequeue {x : Int} {rest : List Int} (items : q.items = x :: rest)
    : (dequeue q).1 = x ∧ (dequeue q).2.items = rest ∧ (dequeue q).2.Valid := by
  have bounds := valid.bounds
  have nonempty : q.front ≠ -1 := by
    intro empty
    have length := congrArg List.length items
    simp [Queue.count, empty] at length
  have head : q.A q.front = x := by
    have first := Queue.getElem_items q 0 (by simp [items])
    rw [show (q.front + ((0 : Nat) : Int)) % 10 = q.front by omega] at first
    rw [← first]
    simp [items]
  have length : q.count = rest.length + 1 := by
    rw [← Queue.length_items, items, List.length_cons]
  have size : (q.count : Int) = (q.rear - q.front) % 10 + 1 := by
    simp only [Queue.count, if_neg nonempty]
    omega
  by_cases last : q.front = q.rear
  · have single : rest = [] := by
      apply List.length_eq_zero_iff.mp
      omega
    have result : dequeue q = (x, { q with front := -1, rear := -1 }) := by
      rw [dequeue, if_neg nonempty, if_pos ⟨nonempty, last⟩, head]
    rw [result, single]
    exact ⟨rfl, by simp [Queue.items, Queue.count], ⟨valid.size, Or.inl ⟨rfl, rfl⟩⟩⟩
  · have step : (q.front + 1).tmod q.size = (q.front + 1) % 10 := by
      rw [valid.size]
      exact Int.tmod_eq_emod_of_nonneg (by omega)
    have result : dequeue q = (x, { q with front := (q.front + 1) % 10 }) := by
      simp [dequeue, nonempty, last, step, head]
    rw [result]
    refine ⟨rfl, ?_, ⟨valid.size, Or.inr ?_⟩⟩
    · have count : Queue.count { q with front := (q.front + 1) % 10 }
          = rest.length := by
        simp only [Queue.count]
        split <;> omega
      apply List.ext_getElem
      · simp [count]
      · intro j _ bound
        have shifted := Queue.getElem_items q (j + 1) (by simp [items, bound])
        rw [Queue.getElem_items]
        have same : rest[j] = q.A ((q.front + ((j + 1 : Nat) : Int)) % 10) := by
          rw [← shifted]
          simp [items]
        rw [same]
        simp only
        congr 1
        omega
    · simp only
      omega

/-- `getfront` returns the oldest element, and the null pointer from an empty queue. -/
theorem getFront_eq : getFront q = q.items.headD 0 := by
  have bounds := valid.bounds
  by_cases empty : q.front = -1
  · simp [getFront, empty, Queue.items, Queue.count]
  · have positive : 0 < q.items.length := by
      simp only [Queue.length_items, Queue.count, if_neg empty]
      omega
    have first := Queue.getElem_items q 0 positive
    rw [show (q.front + ((0 : Nat) : Int)) % 10 = q.front by omega] at first
    rw [getFront, if_neg empty, ← first, List.headD_eq_head?_getD, List.head?_eq_getElem?,
      List.getElem?_eq_getElem positive, Option.getD_some]

end Queue.Valid

end Xv6Net
