import Torpedo.Util.Method

/-!
# Finite iterators

An iterator is a state with the methods `hasNext` and `next`. It is finite if what is left to yield is a
list that `hasNext` keeps and `next` takes the head of, and then it answers any calls, in any order, as the
iterator of that list does.
-/

namespace Torpedo

/-- `Iterator`: its methods, on its states. -/
structure Iterator (ι α : Type) where
  hasNext : Method ι Bool
  next : Method ι α

/-- The call of a method of an iterator. -/
inductive IteratorCall
  | hasNext | next
deriving DecidableEq, Repr

/-- What a call ends with. -/
inductive IteratorAnswer (α : Type)
  | hasNext (result : Except Stop Bool)
  | next (result : Except Stop α)

namespace Iterator

variable {ι α : Type}

/-- A call of a method. -/
def call (it : Iterator ι α) (s : ι) : IteratorCall → IteratorAnswer α × ι
  | .hasNext => (.hasNext (it.hasNext s).1, (it.hasNext s).2)
  | .next => (.next (it.next s).1, (it.next s).2)

/-- The answers to calls, one after the other. -/
def answers (it : Iterator ι α) : ι → List IteratorCall → List (IteratorAnswer α)
  | _, [] => []
  | s, c :: cs => (it.call s c).1 :: it.answers (it.call s c).2 cs

/-- The first element of a list. -/
def first : List α → Except Stop α
  | [] => .error .exception
  | a :: _ => .ok a

/-- The iterator of a list: the elements that are left. -/
def ofList : Iterator (List α) α where
  hasNext as := (.ok !as.isEmpty, as)
  next as := (first as, as.tail)

end Iterator

/-- An iterator with the list of what it has left. -/
structure FiniteIterator (ι α : Type) extends Iterator ι α where
  rest : ι → List α
  hasNext_eq : ∀ s, ∃ s', hasNext s = (.ok !(rest s).isEmpty, s') ∧ rest s' = rest s
  next_eq : ∀ s, ∃ s', next s = (Iterator.first (rest s), s') ∧ rest s' = (rest s).tail

namespace FiniteIterator

variable {ι α : Type} (it : FiniteIterator ι α) {s : ι} {a : α} {as : List α}

/-- The iterator of a list is finite. -/
def ofList : FiniteIterator (List α) α where
  toIterator := .ofList
  rest := id
  hasNext_eq as := ⟨as, rfl, rfl⟩
  next_eq as := ⟨as.tail, rfl, rfl⟩

theorem hasNext_of_nil (h : it.rest s = []) : ∃ s', it.hasNext s = (.ok false, s') ∧ it.rest s' = [] := by
  obtain ⟨s', hs', hrest⟩ := it.hasNext_eq s
  rw [h] at hs' hrest
  exact ⟨s', hs', hrest⟩

theorem hasNext_of_cons (h : it.rest s = a :: as) :
    ∃ s', it.hasNext s = (.ok true, s') ∧ it.rest s' = a :: as := by
  obtain ⟨s', hs', hrest⟩ := it.hasNext_eq s
  rw [h] at hs' hrest
  exact ⟨s', hs', hrest⟩

theorem next_of_cons (h : it.rest s = a :: as) : ∃ s', it.next s = (.ok a, s') ∧ it.rest s' = as := by
  obtain ⟨s', hs', hrest⟩ := it.next_eq s
  rw [h] at hs' hrest
  exact ⟨s', hs', hrest⟩

/-- Two finite iterators with the same elements left answer a call in the same way. -/
theorem call_eq {κ : Type} (it' : FiniteIterator κ α) {k : κ} (h : it.rest s = it'.rest k)
    (c : IteratorCall) :
    (it.call s c).1 = (it'.call k c).1 ∧ it.rest (it.call s c).2 = it'.rest (it'.call k c).2 := by
  cases c with
  | hasNext =>
    obtain ⟨s', hs', hrest⟩ := it.hasNext_eq s
    obtain ⟨k', hk', hrest'⟩ := it'.hasNext_eq k
    unfold Iterator.call
    rw [hs', hk', hrest, hrest', h]
    exact ⟨rfl, rfl⟩
  | next =>
    obtain ⟨s', hs', hrest⟩ := it.next_eq s
    obtain ⟨k', hk', hrest'⟩ := it'.next_eq k
    unfold Iterator.call
    rw [hs', hk', hrest, hrest', h]
    exact ⟨rfl, rfl⟩

/-- Two finite iterators with the same elements left answer all calls in the same way. -/
theorem answers_congr {κ : Type} (it' : FiniteIterator κ α) {k : κ} (h : it.rest s = it'.rest k)
    (cs : List IteratorCall) : it.answers s cs = it'.answers k cs := by
  induction cs generalizing s k with
  | nil => rfl
  | cons c cs ih =>
    obtain ⟨hanswer, hrest⟩ := it.call_eq it' h c
    unfold Iterator.answers
    rw [hanswer, ih hrest]

/-- A finite iterator answers as the iterator of the list that it has left. -/
theorem answers_eq (s : ι) (cs : List IteratorCall) :
    it.answers s cs = Iterator.ofList.answers (it.rest s) cs :=
  it.answers_congr ofList rfl cs

end FiniteIterator

end Torpedo
