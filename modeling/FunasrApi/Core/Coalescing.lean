import Mathlib.Data.List.Induction
import Mathlib.Data.List.Flatten
import Mathlib.Data.List.Pairwise
import Mathlib.Order.Fin.Basic
import Mathlib.Order.MinMax

/-!
# Coalescing a chronological list of spans

A coalescer receives spans in the order of time and gives out fewer spans: each
is the hull of a run of consecutive received ones. If the received spans do not
overlap, the hulls do not either, and every received span lies in exactly one
of them, whatever rule decides where one run ends and the next begins.
-/

namespace FunasrApi.Core

/-- A span of positive length. -/
@[ext] structure Span (α : Type*) [LT α] where
  /-- The first instant. -/
  start : α
  /-- The first instant after the span. -/
  stop : α
  start_lt_stop : start < stop

namespace Span

variable {α : Type*} [LinearOrder α]

instance : DecidableEq (Span α) := fun a b =>
  decidable_of_iff (a.start = b.start ∧ a.stop = b.stop)
    ⟨fun h => Span.ext h.1 h.2, fun h => h ▸ ⟨rfl, rfl⟩⟩

/-- The first span ends no later than the second begins. -/
def Before (a b : Span α) : Prop := a.stop ≤ b.start

/-- The first span is a part of the second. -/
def Within (a b : Span α) : Prop := b.start ≤ a.start ∧ a.stop ≤ b.stop

/-- The least span around two spans. -/
def join (a b : Span α) : Span α where
  start := min a.start b.start
  stop := max a.stop b.stop
  start_lt_stop := (min_le_left _ _).trans_lt (a.start_lt_stop.trans_le (le_max_left _ _))

/-- The least span around a nonempty run, given by its head and its tail. -/
def hull (run : Span α × List (Span α)) : Span α := run.2.foldl join run.1

/-- A run grows at its end by joining the next span. -/
theorem hull_append (a b : Span α) (l : List (Span α)) :
    hull (a, l ++ [b]) = (hull (a, l)).join b := by
  simp only [hull, List.foldl_append, List.foldl_cons, List.foldl_nil]

theorem Within.trans {a b c : Span α} (h : a.Within b) (h' : b.Within c) : a.Within c :=
  ⟨h'.1.trans h.1, h.2.trans h'.2⟩

theorem within_join_left (a b : Span α) : a.Within (a.join b) :=
  ⟨min_le_left _ _, le_max_left _ _⟩

theorem within_join_right (a b : Span α) : b.Within (a.join b) :=
  ⟨min_le_right _ _, le_max_right _ _⟩

/-- Every span of a run lies in its hull. -/
theorem within_hull (a : Span α) (l : List (Span α)) :
    ∀ x ∈ a :: l, x.Within (hull (a, l)) := by
  induction l using List.reverseRecOn with
  | nil =>
    intro x hx
    obtain rfl := List.mem_singleton.mp hx
    exact ⟨le_rfl, le_rfl⟩
  | append_singleton l b ih =>
    intro x hx
    rw [hull_append]
    rw [← List.cons_append] at hx
    rcases List.mem_append.mp hx with hl | hb
    · exact (ih x hl).trans (within_join_left _ _)
    · obtain rfl := List.mem_singleton.mp hb
      exact within_join_right _ _

/-- A bound before every span of a run is before its hull. -/
theorem le_hull_start (a : Span α) (l : List (Span α)) {t : α} (h : ∀ x ∈ a :: l, t ≤ x.start) :
    t ≤ (hull (a, l)).start := by
  induction l using List.reverseRecOn with
  | nil => exact h a (List.mem_singleton_self a)
  | append_singleton l b ih =>
    rw [← List.cons_append] at h
    rw [hull_append]
    exact le_min (ih fun x hx => h x (List.mem_append_left _ hx))
      (h b (List.mem_append_right _ (List.mem_singleton_self b)))

/-- A bound after every span of a run is after its hull. -/
theorem hull_stop_le (a : Span α) (l : List (Span α)) {t : α} (h : ∀ x ∈ a :: l, x.stop ≤ t) :
    (hull (a, l)).stop ≤ t := by
  induction l using List.reverseRecOn with
  | nil => exact h a (List.mem_singleton_self a)
  | append_singleton l b ih =>
    rw [← List.cons_append] at h
    rw [hull_append]
    exact max_le (ih fun x hx => h x (List.mem_append_left _ hx))
      (h b (List.mem_append_right _ (List.mem_singleton_self b)))

/-- A hull begins where one of its spans begins. -/
theorem exists_start_eq_hull (a : Span α) (l : List (Span α)) :
    ∃ x ∈ a :: l, x.start = (hull (a, l)).start := by
  induction l using List.reverseRecOn with
  | nil => exact ⟨a, List.mem_singleton_self a, rfl⟩
  | append_singleton l b ih =>
    obtain ⟨x, hx, hstart⟩ := ih
    rw [hull_append, ← List.cons_append]
    rcases min_choice (hull (a, l)).start b.start with hmin | hmin
    · exact ⟨x, List.mem_append_left _ hx, hstart.trans hmin.symm⟩
    · exact ⟨b, List.mem_append_right _ (List.mem_singleton_self b), hmin.symm⟩

/-- A hull ends where one of its spans ends. -/
theorem exists_stop_eq_hull (a : Span α) (l : List (Span α)) :
    ∃ x ∈ a :: l, x.stop = (hull (a, l)).stop := by
  induction l using List.reverseRecOn with
  | nil => exact ⟨a, List.mem_singleton_self a, rfl⟩
  | append_singleton l b ih =>
    obtain ⟨x, hx, hstop⟩ := ih
    rw [hull_append, ← List.cons_append]
    rcases max_choice (hull (a, l)).stop b.stop with hmax | hmax
    · exact ⟨x, List.mem_append_left _ hx, hstop.trans hmax.symm⟩
    · exact ⟨b, List.mem_append_right _ (List.mem_singleton_self b), hmax.symm⟩

end Span

/-- The spans `outs` are the hulls of consecutive nonempty runs that make up `xs`. -/
def Coalesced {α : Type*} [LinearOrder α] (xs outs : List (Span α)) : Prop :=
  ∃ runs : List (Span α × List (Span α)),
    runs.flatMap (fun run => run.1 :: run.2) = xs ∧ runs.map Span.hull = outs

namespace Coalesced

variable {α : Type*} [LinearOrder α] {xs outs : List (Span α)}

/-- Nothing received, nothing given out. -/
theorem nil : Coalesced ([] : List (Span α)) [] := ⟨[], rfl, rfl⟩

/-- Every span may be a run of its own. -/
theorem refl (xs : List (Span α)) : Coalesced xs xs := by
  refine ⟨xs.map fun x => (x, []), ?_, ?_⟩
  · rw [List.flatMap_map]
    exact List.flatMap_singleton' xs
  · rw [List.map_map]
    exact List.map_id xs

/-- The next span opens a run of its own. -/
theorem fresh (h : Coalesced xs outs) (x : Span α) : Coalesced (xs ++ [x]) (outs ++ [x]) := by
  obtain ⟨runs, rfl, rfl⟩ := h
  refine ⟨runs ++ [(x, [])], ?_, ?_⟩
  · rw [List.flatMap_append]
    rfl
  · rw [List.map_append]
    rfl

/-- The next span joins the last run. -/
theorem extend {o : Span α} (h : Coalesced xs (outs ++ [o])) (x : Span α) :
    Coalesced (xs ++ [x]) (outs ++ [o.join x]) := by
  obtain ⟨runs, rfl, hmap⟩ := h
  obtain ⟨front, back, rfl, rfl, hback⟩ := List.map_eq_append_iff.mp hmap
  obtain ⟨⟨a, l⟩, rfl, rfl⟩ := List.map_eq_singleton_iff.mp hback
  refine ⟨front ++ [(a, l ++ [x])], ?_, ?_⟩
  · simp only [List.flatMap_append, List.flatMap_cons, List.flatMap_nil, List.append_nil,
      List.append_assoc, List.cons_append]
  · rw [List.map_append, List.map_singleton, Span.hull_append]

/-- The hulls of spans that do not overlap do not overlap, and stay in order. -/
theorem ordered (h : Coalesced xs outs) (hx : xs.Pairwise Span.Before) :
    outs.Pairwise Span.Before := by
  obtain ⟨runs, rfl, rfl⟩ := h
  rw [List.pairwise_map]
  refine (List.pairwise_flatMap.mp hx).2.imp ?_
  intro r r' hrr
  refine Span.le_hull_start r'.1 r'.2 fun y hy => ?_
  exact Span.hull_stop_le r.1 r.2 fun x hx => hrr x hx y hy

/-- A given span begins where a received one begins. -/
theorem exists_start_eq (h : Coalesced xs outs) {o : Span α} (ho : o ∈ outs) :
    ∃ x ∈ xs, x.start = o.start := by
  obtain ⟨runs, rfl, rfl⟩ := h
  obtain ⟨r, hr, rfl⟩ := List.mem_map.mp ho
  obtain ⟨x, hx, hstart⟩ := Span.exists_start_eq_hull r.1 r.2
  exact ⟨x, List.mem_flatMap.mpr ⟨r, hr, hx⟩, hstart⟩

/-- A given span ends where a received one ends. -/
theorem exists_stop_eq (h : Coalesced xs outs) {o : Span α} (ho : o ∈ outs) :
    ∃ x ∈ xs, x.stop = o.stop := by
  obtain ⟨runs, rfl, rfl⟩ := h
  obtain ⟨r, hr, rfl⟩ := List.mem_map.mp ho
  obtain ⟨x, hx, hstop⟩ := Span.exists_stop_eq_hull r.1 r.2
  exact ⟨x, List.mem_flatMap.mpr ⟨r, hr, hx⟩, hstop⟩

/-- Every received span lies in a given one. -/
theorem exists_within (h : Coalesced xs outs) {x : Span α} (hx : x ∈ xs) :
    ∃ o ∈ outs, x.Within o := by
  obtain ⟨runs, rfl, rfl⟩ := h
  obtain ⟨r, hr, hxr⟩ := List.mem_flatMap.mp hx
  exact ⟨Span.hull r, List.mem_map_of_mem hr, Span.within_hull r.1 r.2 x hxr⟩

/-- Every received span lies in exactly one of the given ones. -/
theorem existsUnique_within (h : Coalesced xs outs) (hpw : xs.Pairwise Span.Before)
    {x : Span α} (hx : x ∈ xs) : ∃! j : Fin outs.length, x.Within (outs.get j) := by
  obtain ⟨o, ho, hxo⟩ := h.exists_within hx
  obtain ⟨j, rfl⟩ := List.mem_iff_get.mp ho
  have apart : ∀ i k : Fin outs.length, i < k → x.Within (outs.get i) →
      ¬ x.Within (outs.get k) := by
    intro i k hik hi hk
    have hbefore : (outs.get i).stop ≤ (outs.get k).start :=
      List.pairwise_iff_get.mp (h.ordered hpw) i k hik
    exact absurd (hi.2.trans (hbefore.trans hk.1)) x.start_lt_stop.not_ge
  refine ⟨j, hxo, fun k hk => ?_⟩
  rcases lt_trichotomy k j with hlt | heq | hgt
  · exact absurd hxo (apart k j hlt hk)
  · exact heq
  · exact absurd hk (apart j k hgt hxo)

end Coalesced

end FunasrApi.Core
