/-!
# First-in, first-out queues

A queue keeps the items to be taken next in one list and the items that came last, newest first,
in another.  Everything about it is said through `toList`, the items in the order they will be
taken.
-/

namespace PenPlotter

/-- Items waiting to be taken in the order they came. -/
structure Queue (α : Type) where
  front : List α
  back : List α

namespace Queue

variable {α : Type}

/-- The items in the order they will be taken. -/
def toList (q : Queue α) : List α := q.front ++ q.back.reverse

/-- The queue of one item. -/
def singleton (a : α) : Queue α := ⟨[a], []⟩

/-- The queue with one more item at its end. -/
def push (q : Queue α) (a : α) : Queue α := { q with back := a :: q.back }

/-- The queue with more items at its end. -/
def pushAll (q : Queue α) (as : List α) : Queue α := as.foldl push q

/-- The first item and the queue without it. -/
def pop? (q : Queue α) : Option (α × Queue α) :=
  match q.front with
  | a :: front => some (a, ⟨front, q.back⟩)
  | [] =>
    match q.back.reverse with
    | a :: front => some (a, ⟨front, []⟩)
    | [] => none

@[simp] theorem toList_singleton (a : α) : (singleton a).toList = [a] := rfl

@[simp] theorem toList_push (q : Queue α) (a : α) : (q.push a).toList = q.toList ++ [a] := by
  simp [toList, push]

@[simp] theorem toList_pushAll (q : Queue α) (as : List α) :
    (q.pushAll as).toList = q.toList ++ as := by
  induction as generalizing q with
  | nil => simp [pushAll]
  | cons a as ih =>
    have : q.pushAll (a :: as) = (q.push a).pushAll as := rfl
    simp [this, ih]

theorem pop?_eq_none_iff {q : Queue α} : q.pop? = none ↔ q.toList = [] := by
  obtain ⟨front, back⟩ := q
  cases front with
  | cons a front => simp [pop?, toList]
  | nil =>
    cases h : back.reverse <;> simp [pop?, toList, h]

theorem toList_of_pop? {q r : Queue α} {a : α} (h : q.pop? = some (a, r)) :
    q.toList = a :: r.toList := by
  obtain ⟨front, back⟩ := q
  cases front with
  | cons b front =>
    simp only [pop?, Option.some.injEq, Prod.mk.injEq] at h
    obtain ⟨rfl, rfl⟩ := h
    rfl
  | nil =>
    cases hb : back.reverse with
    | nil => simp [pop?, hb] at h
    | cons b front =>
      simp only [pop?, hb, Option.some.injEq, Prod.mk.injEq] at h
      obtain ⟨rfl, rfl⟩ := h
      simp [toList, hb]

end Queue

end PenPlotter
