import TruthExpr.Json

/-! # Stores — objects while they are filled in

    Objects are numbered in the order in which they are entered.  An object is
    entered empty and gets its members later; a member that is an object itself
    is known by its number until then.  The number is all that two places need
    to share an object, so whether any is shared depends on who fills them. -/

namespace TruthExpr

namespace Json

/-- The value of a member. -/
inductive Slot where
  | value (value : Json)
  /-- The object with this number. -/
  | object (number : Nat)

/-- Sets a member.  One of that name keeps its place and gets the new value. -/
def setMember (name : String) (slot : Slot) : List (String × Slot) → List (String × Slot)
  | [] => [(name, slot)]
  | (key, old) :: rest =>
      if key = name then (key, slot) :: rest else (key, old) :: setMember name slot rest

/-- Objects by their numbers. -/
structure Store where
  objects : Array (List (String × Slot))

namespace Store

/-- A single object, without members. -/
def start : Store := ⟨#[[]]⟩

/-- The number of objects. -/
def size (s : Store) : Nat := s.objects.size

/-- The members of an object that has been entered. -/
def members? (s : Store) (number : Nat) : Option (List (String × Slot)) := s.objects[number]?

/-- Enters one more object, without members. -/
def enter (s : Store) : Store := ⟨s.objects.push []⟩

/-- Sets members of an object, in order. -/
def update (s : Store) (number : Nat) (members : List (String × Slot)) : Store :=
  ⟨s.objects.modify number fun old =>
    members.foldl (fun ms (name, slot) => setMember name slot ms) old⟩

/-- The value that an object has come to.  Its members were entered after it. -/
def read (s : Store) (number : Nat) : Json :=
  .object (((s.members? number).getD []).map fun (name, slot) =>
    (name,
      match slot with
      | .value v => v
      | .object n => if number < n ∧ n < s.size then s.read n else .object []))
termination_by s.size - number
decreasing_by omega

@[simp] theorem size_enter (s : Store) : s.enter.size = s.size + 1 :=
  Array.size_push []

@[simp] theorem size_update (s : Store) (n : Nat) (members : List (String × Slot)) :
    (s.update n members).size = s.size :=
  Array.size_modify

/-- The objects are numbered from zero, without gaps. -/
theorem members?_eq_none_iff {s : Store} {n : Nat} : s.members? n = none ↔ s.size ≤ n :=
  Array.getElem?_eq_none_iff

theorem lt_size_of_members? {s : Store} {n : Nat} {members : List (String × Slot)}
    (h : s.members? n = some members) : n < s.size := by
  refine Nat.lt_of_not_le fun hle => ?_
  rw [members?_eq_none_iff.mpr hle] at h
  cases h

/-- The object entered last has no members. -/
theorem members?_enter_self (s : Store) : s.enter.members? s.size = some [] :=
  Array.getElem?_push_size

/-- A new object leaves those that were there alone. -/
theorem members?_enter_of_lt {s : Store} {n : Nat} (h : n < s.size) :
    s.enter.members? n = s.members? n := by
  rw [members?, enter, Array.getElem?_push]
  exact if_neg (Nat.ne_of_lt h)

/-- Members are given to no other object. -/
theorem members?_update_of_ne {s : Store} {n k : Nat} (h : k ≠ n)
    (members : List (String × Slot)) : (s.update n members).members? k = s.members? k := by
  rw [members?, update, Array.getElem?_modify, if_neg h.symm]
  rfl

/-- An object that had no members has just those it is given. -/
theorem members?_update_self {s : Store} {n : Nat} (h : s.members? n = some [])
    (members : List (String × Slot)) :
    (s.update n members).members? n =
      some (members.foldl (fun ms (name, slot) => setMember name slot ms) []) := by
  rw [members?] at h
  rw [members?, update, Array.getElem?_modify, if_pos rfl, h]
  rfl

end Store

end Json

end TruthExpr
