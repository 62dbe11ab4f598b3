/-! # Walks — trees worked off with a pile of what is left to visit

    The item on top of the pile is visited next.  A visit changes what has been
    gathered and puts the parts of the item on the pile, or ends the walk.  The
    parts weigh less than the item did, so the pile comes to an end, and a tree
    of any depth is worked off in one loop.

    What lies further down does not matter to what lies above it (`run_append`):
    that is all one has to know about the pile. -/

namespace TruthExpr

/-- What the items of a pile weigh together. -/
def Walk.load {ι : Type} (weight : ι → Nat) : List ι → Nat
  | [] => 0
  | i :: pile => weight i + load weight pile

/-- Two piles weigh what they weigh one by one. -/
theorem Walk.load_append {ι : Type} (weight : ι → Nat) (upper lower : List ι) :
    load weight (upper ++ lower) = load weight upper + load weight lower := by
  induction upper with
  | nil => exact (Nat.zero_add _).symm
  | cons i upper ih => rw [List.cons_append, load, load, ih, Nat.add_assoc]

/-- A way to work off items of type `ι`, gathering a `σ`. -/
structure Walk (ι σ ε : Type) where
  /-- The parts of an item, the first of them to go on top, and what has been
      gathered with the item; or why the walk ends there. -/
  visit : ι → σ → Except ε (List ι × σ)
  weight : ι → Nat
  lighter : ∀ {i s parts t}, visit i s = .ok (parts, t) → Walk.load weight parts < weight i

namespace Walk

variable {ι σ ε : Type}

/-- Works off a pile. -/
def run (w : Walk ι σ ε) : List ι → σ → Except ε σ
  | [], s => .ok s
  | i :: pile, s =>
      match _ : w.visit i s with
      | .error x => .error x
      | .ok (parts, t) => w.run (parts ++ pile) t
termination_by pile => load w.weight pile
decreasing_by
  rw [load_append, load]
  exact Nat.add_lt_add_right (w.lighter ‹_›) _

variable {w : Walk ι σ ε} {i : ι} {s t : σ} {x : ε} {parts pile : List ι}

theorem run_nil (w : Walk ι σ ε) (s : σ) : w.run [] s = .ok s := by
  rw [run]

theorem run_of_ended (h : w.visit i s = .error x) (pile : List ι) :
    w.run (i :: pile) s = .error x := by
  rw [run, h]

/-- The parts of an item come before all that is below it. -/
theorem run_of_visited (h : w.visit i s = .ok (parts, t)) (pile : List ι) :
    w.run (i :: pile) s = w.run (parts ++ pile) t := by
  rw [run, h]

/-- One pile on another is worked off before it. -/
theorem run_append (w : Walk ι σ ε) (upper lower : List ι) (s : σ) :
    w.run (upper ++ lower) s = (w.run upper s).bind fun t => w.run lower t := by
  induction upper, s using run.induct w with
  | case1 s =>
      rw [run_nil]
      rfl
  | case2 s i pile x h =>
      rw [List.cons_append, run_of_ended h, run_of_ended h]
      rfl
  | case3 s i pile parts t h ih =>
      rw [List.cons_append, run_of_visited h, run_of_visited h, ← List.append_assoc]
      exact ih

/-- The item on top is worked off with all of its parts before the next one. -/
theorem run_cons (w : Walk ι σ ε) (i : ι) (pile : List ι) (s : σ) :
    w.run (i :: pile) s = (w.run [i] s).bind fun t => w.run pile t :=
  run_append w [i] pile s

theorem run_singleton_of_visited (h : w.visit i s = .ok (parts, t)) :
    w.run [i] s = w.run parts t := by
  rw [run_of_visited h, List.append_nil]

end Walk

end TruthExpr
