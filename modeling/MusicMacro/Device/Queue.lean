/-!
# Bounded queues

Two threads talk through queues of a fixed capacity: what is pushed first is taken first, and a full queue refuses.

* `Queue α` : a queue with its capacity; `Queue.toList` lists what waits, the oldest first;
* `Queue.push?` : one more at the end, if there is room;
* `Queue.take` : the oldest ones, and the queue without them.
-/

namespace MusicMacro

/-- A queue with a capacity. -/
structure Queue (α : Type) where
  capacity : Nat
  newestFirst : List α
  size : Nat
  size_eq : size = newestFirst.length
  size_le : size ≤ capacity

namespace Queue
variable {α : Type}

def empty (capacity : Nat) : Queue α := ⟨capacity, [], 0, rfl, Nat.zero_le _⟩

/-- What waits, the oldest first. -/
def toList (q : Queue α) : List α := q.newestFirst.reverse

/-- The queue with one more at its end, unless it is full. -/
def push? (q : Queue α) (a : α) : Option (Queue α) :=
  if h : q.size < q.capacity then
    some ⟨q.capacity, a :: q.newestFirst, q.size + 1, by simp [q.size_eq], h⟩
  else none

def drop (q : Queue α) (n : Nat) : Queue α where
  capacity := q.capacity
  newestFirst := q.newestFirst.take (q.size - n)
  size := q.size - n
  size_eq := by rw [List.length_take, ← q.size_eq]; omega
  size_le := by have := q.size_le; omega

def take (q : Queue α) (n : Nat) : List α × Queue α := (q.toList.take n, q.drop n)

def drain (q : Queue α) : List α × Queue α := q.take q.size

/-- Pushes one after the other until the queue is full: what did not fit, and the queue. -/
def pushAll (q : Queue α) : List α → List α × Queue α
  | [] => ([], q)
  | a :: rest =>
    match q.push? a with
    | some next => next.pushAll rest
    | none => (a :: rest, q)

@[simp] theorem toList_empty (capacity : Nat) : (empty capacity : Queue α).toList = [] := rfl

theorem toList_of_push? {q next : Queue α} {a : α} (h : q.push? a = some next) :
    next.toList = q.toList ++ [a] := by
  unfold push? at h
  split at h
  · cases h
    simp [toList]
  · cases h

theorem toList_drop (q : Queue α) (n : Nat) : (q.drop n).toList = q.toList.drop n := by
  simp only [toList, drop, List.drop_reverse, q.size_eq]

/-- What waits in the queue and what found no room are together, in their order, what there was to push. -/
theorem toList_pushAll (q : Queue α) (as : List α) :
    (q.pushAll as).2.toList ++ (q.pushAll as).1 = q.toList ++ as := by
  induction as generalizing q with
  | nil => rfl
  | cons a rest ih =>
    unfold pushAll
    split
    · rename_i next h
      rw [ih next, toList_of_push? h, List.append_assoc, List.singleton_append]
    · rfl

end Queue

end MusicMacro
