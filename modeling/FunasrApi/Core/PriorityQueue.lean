import Mathlib.Data.List.Sort

/-!
# Priority queues with an arrival stamp

A priority queue releases a least entry first. When the order compares a rank
and then an arrival stamp, and stamps are handed out in increasing order, the
released entry is the earliest arrival among the entries of least rank.
-/

namespace FunasrApi.Core

/-- A queue whose entries are kept in the order of their release. -/
structure PriorityQueue {α : Type*} (le : α → α → Prop) where
  /-- The entries, the next one to be released first. -/
  items : List α
  sorted : items.Pairwise le

namespace PriorityQueue

variable {α : Type*} {le : α → α → Prop}

/-- The queue without entries. -/
def empty : PriorityQueue le := ⟨[], .nil⟩

/-- Add an entry at its place. -/
def put [DecidableRel le] [Std.Total le] [IsTrans α le] (a : α) (q : PriorityQueue le) :
    PriorityQueue le :=
  ⟨q.items.orderedInsert le a, q.sorted.orderedInsert a q.items⟩

/-- Release the least entry. -/
def get? (q : PriorityQueue le) : Option (α × PriorityQueue le) :=
  match q with
  | ⟨[], _⟩ => none
  | ⟨a :: rest, h⟩ => some (a, ⟨rest, h.of_cons⟩)

/-- Putting an entry adds it and nothing else. -/
theorem put_perm [DecidableRel le] [Std.Total le] [IsTrans α le] (a : α) (q : PriorityQueue le) :
    (q.put a).items.Perm (a :: q.items) :=
  q.items.perm_orderedInsert le a

/-- The released entry is the first one, and all the others stay. -/
theorem get?_items {q q' : PriorityQueue le} {a : α} (h : q.get? = some (a, q')) :
    q.items = a :: q'.items := by
  obtain ⟨items, hs⟩ := q
  cases items with
  | nil => cases h
  | cons b rest =>
    obtain ⟨rfl, rfl⟩ := Prod.mk.inj (Option.some.inj h)
    rfl

/-- The released entry is least. -/
theorem get?_le {q q' : PriorityQueue le} {a : α} (h : q.get? = some (a, q')) :
    ∀ b ∈ q'.items, le a b := by
  have hs := q.sorted
  rw [get?_items h] at hs
  exact (List.pairwise_cons.mp hs).1

end PriorityQueue

section Stamped

variable {α : Type*} (rank : α → Int) (stamp : α → Nat)

/-- Compare the rank, then the arrival. -/
def StampLe (a b : α) : Prop := rank a < rank b ∨ rank a = rank b ∧ stamp a ≤ stamp b

instance : DecidableRel (StampLe rank stamp) := fun a b =>
  inferInstanceAs (Decidable (rank a < rank b ∨ rank a = rank b ∧ stamp a ≤ stamp b))

instance : Std.Total (StampLe rank stamp) where
  total a b := by
    unfold StampLe
    omega

instance : IsTrans α (StampLe rank stamp) where
  trans a b c hab hbc := by
    unfold StampLe at *
    omega

/-- The first entry in arrival order that satisfies `p`, else the first one at all. -/
def firstArrival (p : α → Bool) (arrivals : List α) : Option α :=
  match arrivals.find? p with
  | some a => some a
  | none => arrivals.head?

variable {rank stamp}

/-- With two ranks, a least entry is the first arrival of the preferred class, or the first
arrival at all when that class is empty. -/
theorem firstArrival_of_least {arrivals : List α} {p : α → Bool} (r r' : Int) (hr : r < r')
    (hrank : ∀ a ∈ arrivals, rank a = if p a then r else r')
    (hs : arrivals.Pairwise fun a b => stamp a < stamp b) {e : α} (he : e ∈ arrivals)
    (hleast : ∀ a ∈ arrivals, StampLe rank stamp e a) : firstArrival p arrivals = some e := by
  unfold firstArrival
  cases hf : arrivals.find? p with
  | some x =>
    obtain ⟨hpx, before, after, rfl, hbefore⟩ := List.find?_eq_some_iff_append.mp hf
    have hx : x ∈ before ++ x :: after := by simp
    have hle := hleast x hx
    have hrx := hrank x hx
    have hre := hrank e he
    rw [if_pos hpx] at hrx
    rcases List.mem_append.mp he with hb | ha
    · -- an entry before `x` is not of the preferred class
      have hpe : p e = false := by simpa using hbefore e hb
      rw [hpe, if_neg Bool.false_ne_true] at hre
      unfold StampLe at hle
      omega
    · rcases List.mem_cons.mp ha with rfl | ha
      · rfl
      · have hlt : stamp x < stamp e :=
          (List.pairwise_cons.mp (List.pairwise_append.mp hs).2.1).1 e ha
        unfold StampLe at hle
        split at hre <;> omega
  | none =>
    have hnone : ∀ a ∈ arrivals, p a = false := by
      intro a ha
      simpa using List.find?_eq_none.mp hf a ha
    cases arrivals with
    | nil => cases he
    | cons x rest =>
      rcases List.mem_cons.mp he with rfl | hrest
      · rfl
      · have hlt := (List.pairwise_cons.mp hs).1 e hrest
        have hle := hleast x (List.mem_cons_self ..)
        have hrx := hrank x (List.mem_cons_self ..)
        have hre := hrank e he
        rw [hnone x (List.mem_cons_self ..)] at hrx
        rw [hnone e he] at hre
        unfold StampLe at hle
        omega

end Stamped

end FunasrApi.Core
