import Torpedo.Util.FiniteIterators

/-!
# Iterators over iterators

`MultiIterator` and `IterableIterator` go through the iterators that another iterator yields, and
`FilterIterator` through the elements that match. Each keeps a look-ahead from one call to the next, and is
finite if what it is made from is.
-/

namespace Torpedo

/-! ## MultiIterator and IterableIterator -/

/-- The fields of `MultiIterator` and of `IterableIterator`. -/
structure MultiIterator (κ ι : Type) where
  subIterator : κ
  current : Option ι

namespace MultiIterator

variable {κ β ι α : Type} (iterator : β → ι) (sub : FiniteIterator κ β) (it : FiniteIterator ι α)

/-- A new iterator. -/
def new (subIterator : κ) : MultiIterator κ ι := ⟨subIterator, none⟩

/-- `subIterator.hasNext()`. -/
def subHasNext : Method (MultiIterator κ ι) Bool := fun s =>
  ((sub.hasNext s.subIterator).1, { s with subIterator := (sub.hasNext s.subIterator).2 })

/-- The assignment of the next part to `current`. -/
def takeNext : Method (MultiIterator κ ι) Unit := fun s =>
  match sub.next s.subIterator with
  | (.ok part, k) => (.ok (), ⟨k, some (iterator part)⟩)
  | (.error e, k) => (.error e, { s with subIterator := k })

/-- A call of a method of `current`, which must not be `null`. -/
def onCurrent {β : Type} (m : Method ι β) : Method (MultiIterator κ ι) β := fun s =>
  match s.current with
  | none => (.error .exception, s)
  | some c => ((m c).1, { s with current := some (m c).2 })

/-- The elements that are left. -/
def rest (s : MultiIterator κ ι) : List α :=
  s.current.elim [] it.rest ++ (sub.rest s.subIterator).flatMap fun part => it.rest (iterator part)

variable {iterator sub it}

theorem subHasNext_of_nil {s : MultiIterator κ ι} (h : sub.rest s.subIterator = []) :
    ∃ k, subHasNext sub s = (.ok false, ⟨k, s.current⟩) ∧ sub.rest k = [] := by
  obtain ⟨k, hk, hrest⟩ := sub.hasNext_of_nil h
  refine ⟨k, ?_, hrest⟩
  unfold subHasNext
  rw [hk]

theorem subHasNext_of_cons {s : MultiIterator κ ι} {part : β} {parts : List β}
    (h : sub.rest s.subIterator = part :: parts) :
    ∃ k, subHasNext sub s = (.ok true, ⟨k, s.current⟩) ∧ sub.rest k = part :: parts := by
  obtain ⟨k, hk, hrest⟩ := sub.hasNext_of_cons h
  refine ⟨k, ?_, hrest⟩
  unfold subHasNext
  rw [hk]

variable (iterator) in
theorem takeNext_eq {s : MultiIterator κ ι} {part : β} {parts : List β}
    (h : sub.rest s.subIterator = part :: parts) :
    ∃ k, takeNext iterator sub s = (.ok (), ⟨k, some (iterator part)⟩) ∧ sub.rest k = parts := by
  obtain ⟨k, hk, hrest⟩ := sub.next_of_cons h
  refine ⟨k, ?_, hrest⟩
  unfold takeNext
  rw [hk]

/-- A method of `current` keeps the parts that are still to come. -/
theorem subIterator_onCurrent {γ : Type} (m : Method ι γ) (s : MultiIterator κ ι) :
    (onCurrent m s).2.subIterator = s.subIterator := by
  unfold onCurrent
  split <;> rfl

/-- When a part is taken, there are fewer to come. -/
theorem length_rest_lt {s₁ s₂ s₃ : MultiIterator κ ι} (hmore : subHasNext sub s₁ = (.ok true, s₂))
    (htake : takeNext iterator sub s₂ = (.ok (), s₃)) :
    (sub.rest s₃.subIterator).length < (sub.rest s₁.subIterator).length := by
  cases hparts : sub.rest s₁.subIterator with
  | nil =>
    obtain ⟨k, hk, -⟩ := subHasNext_of_nil hparts
    cases hmore.symm.trans hk
  | cons part parts =>
    obtain ⟨k, hk, hrest⟩ := subHasNext_of_cons hparts
    cases hmore.symm.trans hk
    obtain ⟨k', hk', hrest'⟩ := takeNext_eq iterator (s := ⟨k, s₁.current⟩) hrest
    cases htake.symm.trans hk'
    rw [hrest', List.length_cons]
    exact Nat.lt_succ_self parts.length

variable (iterator sub it)

set_option linter.unusedVariables false in
/-- The loop of `hasNext`: the next part is taken while `current` has nothing left. -/
def advance : Method (MultiIterator κ ι) Unit := fun s =>
  match hcurrent : onCurrent it.hasNext s with
  | (.error e, s₁) => (.error e, s₁)
  | (.ok true, s₁) => (.ok (), s₁)
  | (.ok false, s₁) =>
    match hmore : subHasNext sub s₁ with
    | (.error e, s₂) => (.error e, s₂)
    | (.ok false, s₂) => (.ok (), s₂)
    | (.ok true, s₂) =>
      match htake : takeNext iterator sub s₂ with
      | (.error e, s₃) => (.error e, s₃)
      | (.ok (), s₃) => advance s₃
termination_by s => (sub.rest s.subIterator).length
decreasing_by
  have hkeeps := congrArg (fun r => r.2.subIterator) hcurrent
  simp only [subIterator_onCurrent] at hkeeps
  rw [hkeeps]
  exact length_rest_lt hmore htake

/-- `hasNext` of an iterator over what `iterator` makes of the parts. -/
def hasNextOf : Method (MultiIterator κ ι) Bool := do
  let s ← Method.get
  if s.current = none then
    if ← subHasNext sub then
      takeNext iterator sub
      advance iterator sub it
      onCurrent it.hasNext
    else
      return false
  else
    advance iterator sub it
    onCurrent it.hasNext

/-- `next` of an iterator over what `iterator` makes of the parts. -/
def nextOf : Method (MultiIterator κ ι) α := do
  if ← hasNextOf iterator sub it then onCurrent it.next else Method.throw

variable {iterator sub it} {s : MultiIterator κ ι} {c : ι}

theorem onCurrent_hasNext_of_nil (hc : s.current = some c) (h : it.rest c = []) :
    ∃ c', onCurrent it.hasNext s = (.ok false, ⟨s.subIterator, some c'⟩) ∧ it.rest c' = [] := by
  obtain ⟨c', hc', hrest⟩ := it.hasNext_of_nil h
  refine ⟨c', ?_, hrest⟩
  unfold onCurrent
  rw [hc]
  dsimp only
  rw [hc']

theorem onCurrent_hasNext_of_cons {a : α} {as : List α} (hc : s.current = some c) (h : it.rest c = a :: as) :
    ∃ c', onCurrent it.hasNext s = (.ok true, ⟨s.subIterator, some c'⟩) ∧ it.rest c' = a :: as := by
  obtain ⟨c', hc', hrest⟩ := it.hasNext_of_cons h
  refine ⟨c', ?_, hrest⟩
  unfold onCurrent
  rw [hc]
  dsimp only
  rw [hc']

theorem rest_of_current (hc : s.current = some c) :
    rest iterator sub it s =
      it.rest c ++ (sub.rest s.subIterator).flatMap fun part => it.rest (iterator part) := by
  unfold rest
  rw [hc]
  rfl

theorem advance_of_true {s₁ : MultiIterator κ ι} (h : onCurrent it.hasNext s = (.ok true, s₁)) :
    advance iterator sub it s = (.ok (), s₁) := by
  rw [advance]
  split
  · next h' => cases h.symm.trans h'
  · next h' => cases h.symm.trans h'; rfl
  · next h' => cases h.symm.trans h'

theorem advance_of_false {s₁ : MultiIterator κ ι} (h : onCurrent it.hasNext s = (.ok false, s₁)) :
    advance iterator sub it s = (do
      if ← subHasNext sub then
        takeNext iterator sub
        advance iterator sub it : Method (MultiIterator κ ι) Unit) s₁ := by
  rw [advance]
  split
  · next h' => cases h.symm.trans h'
  · next h' => cases h.symm.trans h'
  · next h' =>
    cases h.symm.trans h'
    split
    · next hmore => exact (Method.bind_error hmore).symm
    · next hmore =>
      rw [Method.bind_ok hmore]
      rfl
    · next hmore =>
      rw [Method.bind_ok hmore, if_pos rfl]
      split
      · next htake => exact (Method.bind_error htake).symm
      · next htake =>
        rw [Method.bind_ok htake]

/-- The loop keeps a part that has something left. -/
theorem advance_of_cons {a : α} {as : List α} (hc : s.current = some c) (h : it.rest c = a :: as) :
    ∃ c', advance iterator sub it s = (.ok (), ⟨s.subIterator, some c'⟩) ∧ it.rest c' = a :: as := by
  obtain ⟨c', hcurrent, hrest⟩ := onCurrent_hasNext_of_cons hc h
  exact ⟨c', advance_of_true hcurrent, hrest⟩

variable (iterator sub it)

/-- Behind the loop there is a current part, and if it has nothing left then nothing is left. -/
theorem advance_eq (hc : s.current = some c) : ∃ k c',
    advance iterator sub it s = (.ok (), ⟨k, some c'⟩) ∧
    rest iterator sub it ⟨k, some c'⟩ = rest iterator sub it s ∧
    (it.rest c' = [] → rest iterator sub it s = []) := by
  generalize hparts : sub.rest s.subIterator = parts
  induction parts generalizing s c with
  | nil =>
    cases hleft : it.rest c with
    | nil =>
      obtain ⟨c', hcurrent, hrest⟩ := onCurrent_hasNext_of_nil hc hleft
      obtain ⟨k, hmore, hk⟩ := subHasNext_of_nil (s := ⟨s.subIterator, some c'⟩) hparts
      have hs : rest iterator sub it s = [] := by
        rw [rest_of_current hc, hleft, hparts]
        rfl
      refine ⟨k, c', ?_, ?_, fun _ => hs⟩
      · rw [advance_of_false hcurrent, Method.bind_ok hmore]
        rfl
      · rw [hs, rest_of_current rfl, hrest, hk]
        rfl
    | cons a as =>
      obtain ⟨c', hadvance, hrest⟩ := advance_of_cons hc hleft
      refine ⟨s.subIterator, c', hadvance, ?_, fun h => nomatch hrest.symm.trans h⟩
      rw [rest_of_current rfl, rest_of_current hc, hrest, hleft]
  | cons part parts ih =>
    cases hleft : it.rest c with
    | nil =>
      obtain ⟨c', hcurrent, hrest⟩ := onCurrent_hasNext_of_nil hc hleft
      obtain ⟨k, hmore, hk⟩ := subHasNext_of_cons (s := ⟨s.subIterator, some c'⟩) hparts
      obtain ⟨k', htake, hk'⟩ := takeNext_eq iterator (s := ⟨k, some c'⟩) hk
      have hs : rest iterator sub it ⟨k', some (iterator part)⟩ = rest iterator sub it s := by
        rw [rest_of_current hc, hparts, hleft, rest_of_current rfl, hk', List.flatMap_cons]
        rfl
      obtain ⟨k'', c'', hadvance, hkeeps, hnil⟩ := ih (s := ⟨k', some (iterator part)⟩) rfl hk'
      rw [hs] at hkeeps hnil
      refine ⟨k'', c'', ?_, hkeeps, hnil⟩
      rw [advance_of_false hcurrent, Method.bind_ok hmore, if_pos rfl, Method.bind_ok htake, hadvance]
    | cons a as =>
      obtain ⟨c', hadvance, hrest⟩ := advance_of_cons hc hleft
      refine ⟨s.subIterator, c', hadvance, ?_, fun h => nomatch hrest.symm.trans h⟩
      rw [rest_of_current rfl, rest_of_current hc, hrest, hleft]

/-- With a current part, `hasNext` answers whether something is left, and keeps it. -/
theorem advance_hasNext_eq (hc : s.current = some c) :
    ∃ k c', (do advance iterator sub it; onCurrent it.hasNext : Method (MultiIterator κ ι) Bool) s =
      (.ok !(rest iterator sub it s).isEmpty, ⟨k, some c'⟩) ∧
    rest iterator sub it ⟨k, some c'⟩ = rest iterator sub it s ∧
    (it.rest c' = [] → rest iterator sub it s = []) := by
  obtain ⟨k, c', hadvance, hkeeps, hnil⟩ := advance_eq iterator sub it hc
  rw [rest_of_current rfl] at hkeeps
  cases hleft : it.rest c' with
  | nil =>
    obtain ⟨c'', hcurrent, hrest⟩ := onCurrent_hasNext_of_nil (s := ⟨k, some c'⟩) rfl hleft
    refine ⟨k, c'', ?_, ?_, fun _ => hnil hleft⟩
    · rw [Method.bind_ok hadvance, hcurrent, hnil hleft]
      rfl
    · rw [rest_of_current rfl, ← hkeeps, hrest, hleft]
  | cons a as =>
    obtain ⟨c'', hcurrent, hrest⟩ := onCurrent_hasNext_of_cons (s := ⟨k, some c'⟩) rfl hleft
    refine ⟨k, c'', ?_, ?_, fun h => nomatch hrest.symm.trans h⟩
    · rw [Method.bind_ok hadvance, hcurrent, ← hkeeps, hleft]
      rfl
    · rw [rest_of_current rfl, ← hkeeps, hrest, hleft]

/-- `hasNext` answers whether something is left, and keeps it. What is next is then in the current part. -/
theorem hasNextOf_eq (s : MultiIterator κ ι) : ∃ s', hasNextOf iterator sub it s =
      (.ok !(rest iterator sub it s).isEmpty, s') ∧
    rest iterator sub it s' = rest iterator sub it s ∧
    (rest iterator sub it s ≠ [] → ∃ c, s'.current = some c ∧ it.rest c ≠ []) := by
  unfold hasNextOf
  rw [Method.get_bind_apply]
  cases hc : s.current with
  | none =>
    rw [if_pos rfl]
    have hs : rest iterator sub it s = (sub.rest s.subIterator).flatMap fun part => it.rest (iterator part) := by
      unfold rest
      rw [hc]
      rfl
    cases hparts : sub.rest s.subIterator with
    | nil =>
      obtain ⟨k, hmore, hk⟩ := subHasNext_of_nil hparts
      rw [hc] at hmore
      rw [hparts, List.flatMap_nil] at hs
      refine ⟨⟨k, none⟩, ?_, ?_, fun h => absurd hs h⟩
      · rw [Method.bind_ok hmore, hs]
        rfl
      · rw [hs]
        unfold rest
        rw [hk]
        rfl
    | cons part parts =>
      obtain ⟨k, hmore, hk⟩ := subHasNext_of_cons hparts
      rw [hc] at hmore
      obtain ⟨k', htake, hk'⟩ := takeNext_eq iterator (s := ⟨k, none⟩) hk
      have hs' : rest iterator sub it ⟨k', some (iterator part)⟩ = rest iterator sub it s := by
        rw [rest_of_current rfl, hs, hparts, hk', List.flatMap_cons]
      obtain ⟨k'', c', heq, hkeeps, hnil⟩ := advance_hasNext_eq iterator sub it (s := ⟨k', some (iterator part)⟩) rfl
      rw [hs'] at heq hkeeps hnil
      refine ⟨⟨k'', some c'⟩, ?_, hkeeps, fun h => ⟨c', rfl, fun hc' => h (hnil hc')⟩⟩
      rw [Method.bind_ok hmore, if_pos rfl, Method.bind_ok htake, heq]
  | some c =>
    rw [if_neg (Option.some_ne_none c)]
    obtain ⟨k, c', heq, hkeeps, hnil⟩ := advance_hasNext_eq iterator sub it hc
    exact ⟨⟨k, some c'⟩, heq, hkeeps, fun h => ⟨c', rfl, fun hc' => h (hnil hc')⟩⟩

/-- `next` takes the first element that is left, and throws if none is. -/
theorem nextOf_eq (s : MultiIterator κ ι) : ∃ s', nextOf iterator sub it s =
      (Iterator.first (rest iterator sub it s), s') ∧
    rest iterator sub it s' = (rest iterator sub it s).tail := by
  obtain ⟨s', heq, hkeeps, hcurrent⟩ := hasNextOf_eq iterator sub it s
  unfold nextOf
  rw [Method.bind_ok heq]
  cases hleft : rest iterator sub it s with
  | nil => exact ⟨s', rfl, hkeeps.trans hleft⟩
  | cons a as =>
    obtain ⟨c, hc, hne⟩ := hcurrent (by rw [hleft]; exact List.cons_ne_nil a as)
    obtain ⟨b, bs, hbs⟩ := List.exists_cons_of_ne_nil hne
    rw [rest_of_current hc, hbs, hleft, List.cons_append] at hkeeps
    obtain ⟨rfl, hrest⟩ := List.cons.inj hkeeps
    obtain ⟨c', hc', hbs'⟩ := it.next_of_cons hbs
    refine ⟨⟨s'.subIterator, some c'⟩, ?_, ?_⟩
    · show onCurrent it.next s' = _
      unfold onCurrent
      rw [hc]
      dsimp only
      rw [hc']
      rfl
    · rw [rest_of_current rfl, hbs', hrest]
      rfl

/-- The iterator of what is left in the parts. -/
def finiteOf : FiniteIterator (MultiIterator κ ι) α where
  hasNext := hasNextOf iterator sub it
  next := nextOf iterator sub it
  rest := rest iterator sub it
  hasNext_eq s := by
    obtain ⟨s', heq, hkeeps, -⟩ := hasNextOf_eq iterator sub it s
    exact ⟨s', heq, hkeeps⟩
  next_eq s := nextOf_eq iterator sub it s

/-- `MultiIterator`: the parts are iterators. -/
def asIterator (sub : FiniteIterator κ ι) (it : FiniteIterator ι α) : Iterator (MultiIterator κ ι) α where
  hasNext := hasNextOf id sub it
  next := nextOf id sub it

end MultiIterator

/-- `IterableIterator`: the parts have `iterator`. -/
def IterableIterator.asIterator {κ β ι α : Type} (iterator : β → ι) (sub : FiniteIterator κ β)
    (it : FiniteIterator ι α) : Iterator (MultiIterator κ ι) α where
  hasNext := MultiIterator.hasNextOf iterator sub it
  next := MultiIterator.nextOf iterator sub it

/-! ## FilterIterator -/

/-- The fields of `FilterIterator`. -/
structure FilterIterator (ι α : Type) where
  subIterator : ι
  next : Option α

namespace FilterIterator

variable {ι α : Type} (it : FiniteIterator ι α) (isMatch : α → Bool)

/-- A new iterator. -/
def new (subIterator : ι) : FilterIterator ι α := ⟨subIterator, none⟩

variable {it isMatch}

/-- When an element is taken, there are fewer to come. -/
theorem length_rest_lt {s k k' : ι} {a : α} (hmore : it.hasNext s = (.ok true, k))
    (htake : it.next k = (.ok a, k')) : (it.rest k').length < (it.rest s).length := by
  cases hleft : it.rest s with
  | nil =>
    obtain ⟨s', hs', -⟩ := it.hasNext_of_nil hleft
    cases hmore.symm.trans hs'
  | cons b bs =>
    obtain ⟨s', hs', hrest⟩ := it.hasNext_of_cons hleft
    cases hmore.symm.trans hs'
    obtain ⟨s'', hs'', hrest'⟩ := it.next_of_cons hrest
    cases htake.symm.trans hs''
    rw [hrest', List.length_cons]
    exact Nat.lt_succ_self bs.length

variable (it isMatch)

set_option linter.unusedVariables false in
/-- The loop of `hasNext`: elements are taken until one matches. -/
def scan : Method (FilterIterator ι α) Bool := fun s =>
  match hmore : it.hasNext s.subIterator with
  | (.error e, k) => (.error e, { s with subIterator := k })
  | (.ok false, k) => (.ok false, ⟨k, none⟩)
  | (.ok true, k) =>
    match htake : it.next k with
    | (.error e, k') => (.error e, { s with subIterator := k' })
    | (.ok a, k') => if isMatch a then (.ok true, ⟨k', some a⟩) else scan ⟨k', some a⟩
termination_by s => (it.rest s.subIterator).length
decreasing_by exact length_rest_lt hmore htake

/-- `hasNext`. -/
def hasNext : Method (FilterIterator ι α) Bool := do
  let s ← Method.get
  if s.next.isSome then return true else scan it isMatch

/-- `next`. -/
def takeNext : Method (FilterIterator ι α) α := do
  if ← hasNext it isMatch then
    let s ← Method.get
    Method.modify fun s => { s with next := none }
    Method.nonNull s.next
  else
    Method.throw

/-- `FilterIterator`. -/
def asIterator : Iterator (FilterIterator ι α) α where
  hasNext := hasNext it isMatch
  next := takeNext it isMatch

/-- The elements that are left: the one looked ahead for, and those that match. -/
def rest (s : FilterIterator ι α) : List α := s.next.toList ++ (it.rest s.subIterator).filter isMatch

variable {it isMatch} {s : FilterIterator ι α}

theorem scan_of_nil {k : ι} (h : it.hasNext s.subIterator = (.ok false, k)) :
    scan it isMatch s = (.ok false, ⟨k, none⟩) := by
  rw [scan]
  split
  · next h' => cases h.symm.trans h'
  · next h' => cases h.symm.trans h'; rfl
  · next h' => cases h.symm.trans h'

theorem scan_of_cons {k k' : ι} {a : α} (h : it.hasNext s.subIterator = (.ok true, k))
    (h₁ : it.next k = (.ok a, k')) :
    scan it isMatch s = if isMatch a then (.ok true, ⟨k', some a⟩) else scan it isMatch ⟨k', some a⟩ := by
  rw [scan]
  split
  · next h' => cases h.symm.trans h'
  · next h' => cases h.symm.trans h'
  · next h' =>
    cases h.symm.trans h'
    split
    · next h₁' => cases h₁.symm.trans h₁'
    · next h₁' => cases h₁.symm.trans h₁'; rfl

variable (it isMatch)

/-- The loop looks ahead for the first element that matches. -/
theorem scan_eq (s : FilterIterator ι α) : ∃ k,
    scan it isMatch s = (.ok !((it.rest s.subIterator).filter isMatch).isEmpty,
      ⟨k, ((it.rest s.subIterator).filter isMatch).head?⟩) ∧
    (it.rest k).filter isMatch = ((it.rest s.subIterator).filter isMatch).tail := by
  generalize hleft : it.rest s.subIterator = as
  induction as generalizing s with
  | nil =>
    obtain ⟨k, hmore, hk⟩ := it.hasNext_of_nil hleft
    refine ⟨k, scan_of_nil hmore, ?_⟩
    rw [hk]
    rfl
  | cons a as ih =>
    obtain ⟨k, hmore, hk⟩ := it.hasNext_of_cons hleft
    obtain ⟨k', htake, hk'⟩ := it.next_of_cons hk
    rw [scan_of_cons hmore htake, List.filter_cons]
    split_ifs with ha
    · refine ⟨k', rfl, ?_⟩
      rw [hk']
      rfl
    · exact ih ⟨k', some a⟩ hk'

/-- `hasNext` answers whether something is left, and keeps it. What is next is looked ahead for. -/
theorem hasNext_eq (s : FilterIterator ι α) : ∃ s',
    hasNext it isMatch s = (.ok !(rest it isMatch s).isEmpty, s') ∧
    rest it isMatch s' = rest it isMatch s ∧ s'.next = (rest it isMatch s).head? := by
  unfold hasNext
  rw [Method.get_bind_apply]
  cases hnext : s.next with
  | some a =>
    have hs : rest it isMatch s = a :: (it.rest s.subIterator).filter isMatch := by
      unfold rest
      rw [hnext]
      rfl
    rw [hs]
    exact ⟨s, rfl, hs, hnext⟩
  | none =>
    have hs : rest it isMatch s = (it.rest s.subIterator).filter isMatch := by
      unfold rest
      rw [hnext]
      rfl
    obtain ⟨k, hscan, hk⟩ := scan_eq it isMatch s
    rw [← hs] at hscan hk
    refine ⟨_, hscan, ?_, rfl⟩
    show (rest it isMatch s).head?.toList ++ (it.rest k).filter isMatch = _
    rw [hk]
    cases rest it isMatch s <;> rfl

/-- `next` takes the first element that is left, and throws if none is. -/
theorem takeNext_eq (s : FilterIterator ι α) : ∃ s',
    takeNext it isMatch s = (Iterator.first (rest it isMatch s), s') ∧
    rest it isMatch s' = (rest it isMatch s).tail := by
  obtain ⟨s', heq, hkeeps, hnext⟩ := hasNext_eq it isMatch s
  unfold takeNext
  rw [Method.bind_ok heq]
  cases hleft : rest it isMatch s with
  | nil => exact ⟨s', rfl, hkeeps.trans hleft⟩
  | cons a as =>
    rw [hleft] at hkeeps hnext
    refine ⟨{ s' with next := none }, ?_, ?_⟩
    · show Method.nonNull s'.next { s' with next := none } = _
      rw [hnext]
      rfl
    · unfold rest at hkeeps ⊢
      rw [hnext] at hkeeps
      exact (List.cons.inj hkeeps).2

/-- The iterator of the elements that match. -/
def finite (it : FiniteIterator ι α) (isMatch : α → Bool) : FiniteIterator (FilterIterator ι α) α where
  toIterator := asIterator it isMatch
  rest := rest it isMatch
  hasNext_eq s := by
    obtain ⟨s', heq, hkeeps, -⟩ := hasNext_eq it isMatch s
    exact ⟨s', heq, hkeeps⟩
  next_eq s := takeNext_eq it isMatch s

end FilterIterator

/-! ## Any calls -/

/-- Whatever calls come in whatever order: `MultiIterator` and `IterableIterator` answer as the iterator of all
elements of their parts, and `FilterIterator` as the one of the elements that match. -/
theorem answers_of_parts {κ κ' β ι α : Type} (sub : FiniteIterator κ ι) (iterables : FiniteIterator κ' β)
    (iterator : β → ι) (it : FiniteIterator ι α) (isMatch : α → Bool) (calls : List IteratorCall) :
    (∀ k, (MultiIterator.asIterator sub it).answers (.new k) calls =
      Iterator.ofList.answers ((sub.rest k).flatMap it.rest) calls) ∧
    (∀ k, (IterableIterator.asIterator iterator iterables it).answers (.new k) calls =
      Iterator.ofList.answers ((iterables.rest k).flatMap fun part => it.rest (iterator part)) calls) ∧
    ∀ s, (FilterIterator.asIterator it isMatch).answers (.new s) calls =
      Iterator.ofList.answers ((it.rest s).filter isMatch) calls :=
  ⟨fun k => (MultiIterator.finiteOf id sub it).answers_eq (.new k) calls,
    fun k => (MultiIterator.finiteOf iterator iterables it).answers_eq (.new k) calls,
    fun s => (FilterIterator.finite it isMatch).answers_eq (.new s) calls⟩

end Torpedo
