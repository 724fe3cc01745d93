import Mathlib.Algebra.Group.Nat.Defs
import Purity.Base.Run

set_option relaxedAutoImplicit false
set_option autoImplicit false

/-!
# The ring of the log queue

`circular_q` (`spdlog/details/circular_q.h`) keeps the messages that wait for the log thread in a
vector, between `head_` and `tail_`, both of which go round. One place always stays free, so that a
full ring differs from an empty one. A `push_back` on a full ring drops the oldest item and counts
it.

## Main definitions

* `Purity.CircularQ` — the members of the class, with the bounds that all its functions keep.
* `Purity.CircularQ.items` — the items in the ring, the oldest first.
* `Purity.CircularQ.fifo` — a bounded queue that drops the oldest item.

## Main results

* `Purity.CircularQ.items_pushBack`, `items_pushBack_of_full`, `items_popFront` — what the
  operations do to the items.
* `Purity.CircularQ.refines_fifo` — a ring is such a queue.

## Implementation notes

The ring that the default constructor makes has no place at all, and `push_back` and `full` look for
that first (`max_items_ > 0`). The queue of the logger is never one of these, and neither is a ring
made for a capacity `n` with `n + 1 < 2 ^ 64`; beyond that `max_items + 1` would wrap around to it.
So the bound is an argument of the constructor here, and the guards are left out. The vector of a
ring is taken to be made: where it is longer than a vector can be, the constructor throws.
-/

namespace Purity

/-- The members of `circular_q`. The vector has `maxItems` places, one more than the capacity; their
number is a `size_t`. -/
structure CircularQ (α : Type) where
  maxItems : ℕ
  head : ℕ
  tail : ℕ
  overrunCounter : ℕ
  v : List α
  head_lt : head < maxItems
  tail_lt : tail < maxItems
  length_v : v.length = maxItems
  maxItems_lt : maxItems < 2 ^ 64

namespace CircularQ

variable {α : Type}

/-- The constructor, for a capacity to which one can be added in `size_t`. -/
def new [Inhabited α] (n : ℕ) (hn : n + 1 < 2 ^ 64) : CircularQ α where
  maxItems := n + 1
  head := 0
  tail := 0
  overrunCounter := 0
  v := List.replicate (n + 1) default
  head_lt := n.succ_pos
  tail_lt := n.succ_pos
  length_v := List.length_replicate
  maxItems_lt := hn

section Ring

variable (q : CircularQ α) (x : α)

/-- There is a place at all. -/
lemma maxItems_pos : 0 < q.maxItems := Nat.zero_lt_of_lt q.head_lt

/-- `push_back` -/
def pushBack : CircularQ α :=
  let tail := (q.tail + 1) % q.maxItems
  { q with
    v := q.v.set q.tail x
    tail := tail
    head := if tail = q.head then (q.head + 1) % q.maxItems else q.head
    overrunCounter := if tail = q.head then q.overrunCounter + 1 else q.overrunCounter
    head_lt := by
      split_ifs
      · exact Nat.mod_lt _ q.maxItems_pos
      · exact q.head_lt
    tail_lt := Nat.mod_lt _ q.maxItems_pos
    length_v := by rw [List.length_set, q.length_v] }

/-- `pop_front` -/
def popFront : CircularQ α :=
  { q with
    head := (q.head + 1) % q.maxItems
    head_lt := Nat.mod_lt _ q.maxItems_pos }

/-- `size` -/
def size : ℕ := if q.head ≤ q.tail then q.tail - q.head else q.maxItems - (q.head - q.tail)

/-- `at` -/
def at_ (i : ℕ) : α :=
  q.v.get ⟨(q.head + i) % q.maxItems, by rw [q.length_v]; exact Nat.mod_lt _ q.maxItems_pos⟩

/-- `front` -/
def front : α := q.v.get ⟨q.head, by rw [q.length_v]; exact q.head_lt⟩

/-- `empty` -/
def empty : Bool := q.tail == q.head

/-- `full` -/
def full : Bool := (q.tail + 1) % q.maxItems == q.head

/-- The items in the ring, the oldest first. -/
def items : List α := (List.range q.size).map q.at_

/-! ## Positions -/

/-- A position goes round at most once. -/
lemma add_mod_eq {h i m : ℕ} (hh : h < m) (hi : i ≤ m) :
    (h + i) % m = if h + i < m then h + i else h + i - m := by
  split_ifs with hlt
  · exact Nat.mod_eq_of_lt hlt
  · rw [Nat.mod_eq_sub_mod (by omega)]
    rcases Nat.lt_or_ge (h + i - m) m with h' | h'
    · exact Nat.mod_eq_of_lt h'
    · omega

/-- The next position. -/
lemma succ_mod_eq {h m : ℕ} (hh : h < m) : (h + 1) % m = if h + 1 < m then h + 1 else 0 := by
  rw [add_mod_eq hh (by omega)]
  split_ifs <;> omega

/-- One place stays free. -/
lemma size_lt : q.size < q.maxItems := by
  have := q.head_lt
  have := q.tail_lt
  unfold size
  split_ifs <;> omega

@[simp] lemma length_items : q.items.length = q.size := by simp [items]

/-- The items have their places. -/
lemma getElem?_items {i : ℕ} (hi : i < q.size) : q.items[i]? = some (q.at_ i) := by
  simp [items, List.getElem?_range hi]

/-- A ring is empty if there is no item in it. -/
lemma empty_iff : q.empty = true ↔ q.items = [] := by
  have := q.head_lt
  have := q.tail_lt
  rw [← List.length_eq_zero_iff, length_items, empty, beq_iff_eq, size]
  split_ifs <;> omega

/-- A ring is full if there is no room but the one place. -/
lemma full_iff : q.full = true ↔ q.items.length + 1 = q.maxItems := by
  have := q.head_lt
  have := q.tail_lt
  rw [length_items, full, beq_iff_eq, size, succ_mod_eq q.tail_lt]
  split_ifs <;> omega

/-- `front` is the oldest item. -/
lemma head?_items (hne : q.items ≠ []) : q.items.head? = some q.front := by
  have hpos : 0 < q.size := by
    rw [← length_items]
    exact List.length_pos_iff.2 hne
  rw [List.head?_eq_getElem?, getElem?_items q hpos]
  simp only [at_, front, Nat.add_zero, Nat.mod_eq_of_lt q.head_lt]

/-- The place `tail_` is behind the last item. -/
lemma tail_eq : (q.head + q.size) % q.maxItems = q.tail := by
  have := q.head_lt
  have := q.tail_lt
  rw [add_mod_eq q.head_lt (Nat.le_of_lt q.size_lt), size]
  split_ifs <;> omega

/-! ## The operations -/

/-- The items of a ring, from where they are. -/
lemma items_eq_of {xs : List α} (hlen : xs.length = q.size)
    (hat : ∀ i, i < q.size → xs[i]? = some (q.at_ i)) : q.items = xs := by
  refine List.ext_getElem? fun i => ?_
  rcases Nat.lt_or_ge i q.size with hi | hi
  · rw [q.getElem?_items hi, hat i hi]
  · rw [List.getElem?_eq_none (by rw [length_items]; exact hi),
      List.getElem?_eq_none (by rw [hlen]; exact hi)]

/-- An item other than that at `tail_` is not overwritten. -/
lemma at_pushBack {i j : ℕ} (hij : ((q.pushBack x).head + i) % q.maxItems =
    (q.head + j) % q.maxItems) (hj : j < q.size) : (q.pushBack x).at_ i = q.at_ j := by
  have hne : q.tail ≠ (q.head + j) % q.maxItems := by
    have := q.head_lt
    have := q.size_lt
    rw [← q.tail_eq, add_mod_eq q.head_lt (Nat.le_of_lt q.size_lt), add_mod_eq q.head_lt (by omega)]
    split_ifs <;> omega
  have hplace : ((q.pushBack x).head + i) % (q.pushBack x).maxItems = (q.head + j) % q.maxItems :=
    hij
  simp only [at_, List.get_eq_getElem, hplace]
  exact List.getElem_set_ne hne _

/-- The new item is at the old `tail_`. -/
lemma at_pushBack_tail {i : ℕ} (hi : ((q.pushBack x).head + i) % q.maxItems = q.tail) :
    (q.pushBack x).at_ i = x := by
  have hplace : ((q.pushBack x).head + i) % (q.pushBack x).maxItems = q.tail := hi
  simp only [at_, List.get_eq_getElem, hplace]
  exact List.getElem_set_self _

/-- The size after `push_back`. -/
lemma size_pushBack : (q.pushBack x).size = if q.full then q.size else q.size + 1 := by
  have := q.head_lt
  have := q.tail_lt
  simp only [size, full, pushBack, beq_iff_eq, succ_mod_eq q.tail_lt, succ_mod_eq q.head_lt]
  split_ifs <;> omega

/-- **`push_back` with room**: the item comes last. -/
lemma items_pushBack (hroom : q.full = false) : (q.pushBack x).items = q.items ++ [x] := by
  have hne : (q.tail + 1) % q.maxItems ≠ q.head := by simpa [full] using hroom
  have hhead : (q.pushBack x).head = q.head := if_neg hne
  have hsize : (q.pushBack x).size = q.size + 1 := by rw [size_pushBack, hroom]; rfl
  refine items_eq_of _ (by simp [hsize]) fun i hi => ?_
  rcases Nat.lt_or_ge i q.size with h | h
  · rw [List.getElem?_append_left (by simpa using h), q.getElem?_items h]
    rw [at_pushBack q x (by rw [hhead]) h]
  · obtain rfl : i = q.size := by omega
    rw [at_pushBack_tail q x (by rw [hhead, tail_eq])]
    simp

/-- **`push_back` without room**: the oldest item is dropped, which may be the new one. -/
lemma items_pushBack_of_full (hfull : q.full = true) :
    (q.pushBack x).items = (q.items ++ [x]).tail := by
  have heq : (q.tail + 1) % q.maxItems = q.head := by simpa [full] using hfull
  have hhead : (q.pushBack x).head = (q.head + 1) % q.maxItems := if_pos heq
  have hsize : (q.pushBack x).size = q.size := by rw [size_pushBack, hfull]; rfl
  -- a place is one further from the new head
  have hplace : ∀ i, ((q.pushBack x).head + i) % q.maxItems = (q.head + (i + 1)) % q.maxItems := by
    intro i
    rw [hhead, Nat.mod_add_mod, Nat.add_assoc, Nat.add_comm 1 i]
  refine items_eq_of _ (by simp [hsize]) fun i hi => ?_
  rw [hsize] at hi
  rw [List.getElem?_tail]
  rcases Nat.lt_or_ge (i + 1) q.size with h | h
  · rw [List.getElem?_append_left (by simpa using h), q.getElem?_items h]
    rw [at_pushBack q x (hplace i) h]
  · have hlast : i + 1 = q.size := by omega
    rw [at_pushBack_tail q x (by rw [hplace, hlast, tail_eq]), hlast]
    simp

/-- **`pop_front`** takes the oldest item. -/
lemma items_popFront (hne : q.items ≠ []) : q.popFront.items = q.items.tail := by
  have hpos : 0 < q.size := by
    rw [← length_items]
    exact List.length_pos_iff.2 hne
  have hsize : q.popFront.size + 1 = q.size := by
    have := q.head_lt
    have := q.tail_lt
    simp only [size, popFront, succ_mod_eq q.head_lt] at hpos ⊢
    split_ifs at hpos ⊢ <;> omega
  refine items_eq_of _ (by simp; omega) fun i hi => ?_
  rw [List.getElem?_tail, q.getElem?_items (by omega)]
  simp only [at_, popFront, Nat.mod_add_mod, Nat.add_assoc, Nat.add_comm 1 i]

/-- What is counted is what is dropped. -/
lemma overrunCounter_pushBack :
    (q.pushBack x).overrunCounter = q.overrunCounter + if q.full then 1 else 0 := by
  simp only [pushBack, full, beq_iff_eq]
  split_ifs <;> rfl

end Ring

@[simp] lemma items_new [Inhabited α] (n : ℕ) (hn : n + 1 < 2 ^ 64) :
    (new n hn : CircularQ α).items = [] := rfl

/-! ## Runs -/

/-- An operation on a ring. -/
inductive Op (α : Type) where
  | pushBack (x : α)
  | popFront

/-- One operation; `pop_front` on an empty ring is undefined. -/
def step (q : CircularQ α) : Op α → Option (CircularQ α)
  | .pushBack x => some (q.pushBack x)
  | .popFront => if q.empty then none else some q.popFront

/-- The items that operations push. -/
def pushed (ops : List (Op α)) : List α :=
  ops.filterMap fun op => match op with
    | .pushBack x => some x
    | .popFront => none

/-- The number of times that they pop. -/
def pops (ops : List (Op α)) : ℕ :=
  ops.countP fun op => match op with
    | .pushBack _ => false
    | .popFront => true

/-- A queue of at most `n` items that drops the oldest to stay so. -/
def fifo (n : ℕ) (xs : List α) : Op α → List α
  | .pushBack x => if xs.length = n then (xs ++ [x]).tail else xs ++ [x]
  | .popFront => xs.tail

/-- A ring of capacity `n` after the operations `ops`: its items are those of the queue, and with
those that are gone they are what was pushed. -/
structure Refines (n : ℕ) (ops : List (Op α)) (q : CircularQ α) : Prop where
  maxItems : q.maxItems = n + 1
  items : q.items = ops.foldl (fifo n) []
  pushed : ∃ gone, pushed ops = gone ++ q.items ∧ gone.length = pops ops + q.overrunCounter

/-- A ring is full if it has as many items as the capacity. -/
lemma Refines.full_iff {n : ℕ} {ops : List (Op α)} {q : CircularQ α} (h : Refines n ops q) :
    q.full = true ↔ q.items.length = n := by
  rw [CircularQ.full_iff, h.maxItems]
  omega

/-- Every operation keeps this. -/
lemma Refines.step {n : ℕ} {ops : List (Op α)} {op : Op α} {q q' : CircularQ α}
    (h : Refines n ops q) (hstep : q.step op = some q') : Refines n (ops ++ [op]) q' := by
  have hfull := h.full_iff
  obtain ⟨hmax, hitems, gone, hpushed, hlen⟩ := h
  have hfold : (ops ++ [op]).foldl (fifo n) [] = fifo n q.items op := by simp [hitems]
  cases op with
  | pushBack x =>
    obtain rfl : q.pushBack x = q' := Option.some.inj hstep
    have hp : CircularQ.pushed (ops ++ [.pushBack x]) = gone ++ (q.items ++ [x]) := by
      rw [← List.append_assoc, ← hpushed]
      simp [CircularQ.pushed]
    have hpops : pops (ops ++ [.pushBack x]) = pops ops := by simp [pops]
    cases hq : q.full with
    | false =>
      have hne : q.items.length ≠ n := fun heq => by simp [hfull.2 heq] at hq
      refine ⟨hmax, ?_, gone, by rw [hp, items_pushBack q x hq], ?_⟩
      · rw [hfold, items_pushBack q x hq, fifo, if_neg hne]
      · rw [overrunCounter_pushBack, hq, hpops, hlen]
        rfl
    | true =>
      obtain ⟨y, rest, hcons⟩ : ∃ y rest, q.items ++ [x] = y :: rest :=
        List.exists_cons_of_ne_nil (by simp)
      refine ⟨hmax, ?_, gone ++ [y], ?_, ?_⟩
      · rw [hfold, items_pushBack_of_full q x hq, fifo, if_pos (hfull.1 hq)]
      · rw [hp, items_pushBack_of_full q x hq, hcons]
        simp
      · rw [overrunCounter_pushBack, hq, hpops, List.length_append, hlen]
        rfl
  | popFront =>
    simp only [CircularQ.step, Option.ite_none_left_eq_some, Option.some.injEq] at hstep
    obtain ⟨hne, rfl⟩ := hstep
    rw [empty_iff] at hne
    obtain ⟨y, rest, hcons⟩ := List.exists_cons_of_ne_nil hne
    refine ⟨hmax, by rw [hfold, items_popFront q hne, fifo], gone ++ [y], ?_, ?_⟩
    · rw [items_popFront q hne, hcons, List.append_assoc, List.singleton_append,
        List.tail_cons, ← hcons, ← hpushed]
      simp [CircularQ.pushed]
    · have hpops : pops (ops ++ [.popFront]) = pops ops + 1 := by simp [pops]
      rw [hpops, List.length_append, hlen, List.length_singleton]
      simp only [popFront]
      omega

/-- **The ring is a bounded queue.** After any operations on a ring of any capacity to which one can
be added in `size_t`, none of them a `pop_front` on an empty ring: the items are those of a queue
that drops the oldest when there is no room; they are what was pushed, less as many of the oldest as
were popped and counted as overrun; and `size`, `empty`, `full` and `front` say what they should.

**Proof sketch.** Induction on the operations from the end. -/
theorem refines_fifo [Inhabited α] (n : ℕ) (hn : n + 1 < 2 ^ 64) (ops : List (Op α))
    (q : CircularQ α) (hrun : Run.exec step (new n hn) ops = some q) :
    q.items = ops.foldl (fifo n) [] ∧
      q.items = (pushed ops).drop (pops ops + q.overrunCounter) ∧ q.items.length ≤ n ∧
      q.size = q.items.length ∧ (q.empty = true ↔ q.items = []) ∧
      (q.full = true ↔ q.items.length = n) ∧ (q.items ≠ [] → q.items.head? = some q.front) := by
  have hrel : Refines n ops q := by
    refine Run.exec_induction (P := Refines n) ?_ (fun _ _ _ _ h hstep => h.step hstep) hrun
    exact ⟨rfl, rfl, [], rfl, rfl⟩
  obtain ⟨gone, hpushed, hlen⟩ := hrel.pushed
  have hsize := q.size_lt
  rw [← length_items, hrel.maxItems] at hsize
  refine ⟨hrel.items, ?_, by omega, (length_items q).symm, q.empty_iff, hrel.full_iff,
    q.head?_items⟩
  rw [hpushed, ← hlen, List.drop_left]

/-- A ring for two items gets three: the first is dropped. -/
theorem refines_fifo_overrun :
    ((Run.exec step (new 2 (by decide) : CircularQ ℕ)
        [.pushBack 5, .pushBack 6, .pushBack 7]).map items) =
      some ((pushed [.pushBack 5, .pushBack 6, .pushBack 7]).drop 1) := by
  obtain ⟨q, hq⟩ : ∃ q, Run.exec step (new 2 (by decide) : CircularQ ℕ)
    [.pushBack 5, .pushBack 6, .pushBack 7] = some q := ⟨_, rfl⟩
  have hitems := (refines_fifo 2 (by decide) _ q hq).2.1
  have hover : pops (α := ℕ) [.pushBack 5, .pushBack 6, .pushBack 7] + q.overrunCounter = 1 := by
    cases hq
    rfl
  rw [hq, Option.map_some, hitems, hover]

end CircularQ

end Purity
