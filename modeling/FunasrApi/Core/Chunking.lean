import Mathlib.Data.List.Basic

/-!
# Cutting a stream into blocks of one size

A reader that waits until a block is full cuts the stream into blocks of one
size and a rest. The blocks do not depend on how the stream arrived: where the
rest is shorter than a block, there is only one such cut.
-/

namespace FunasrApi.Core

variable {α : Type*} {n : ℕ} {stream rest rest' : List α} {blocks blocks' : List (List α)}

/-- The stream is cut into blocks of `n` elements and a rest. -/
structure CutInto (n : ℕ) (stream : List α) (blocks : List (List α)) (rest : List α) : Prop where
  size : ∀ block ∈ blocks, block.length = n
  join : blocks.flatten ++ rest = stream

namespace CutInto

/-- Before the first block everything is rest. -/
theorem nil (n : ℕ) (stream : List α) : CutInto n stream [] stream :=
  ⟨fun _ hb => absurd hb List.not_mem_nil, rfl⟩

/-- What arrives later belongs to the rest. -/
theorem append (h : CutInto n stream blocks rest) (more : List α) :
    CutInto n (stream ++ more) blocks (rest ++ more) :=
  ⟨h.size, by rw [← List.append_assoc, h.join]⟩

/-- A full block at the front of the rest is the next block. -/
theorem next {block : List α} (h : CutInto n stream blocks (block ++ rest))
    (hb : block.length = n) : CutInto n stream (blocks ++ [block]) rest := by
  constructor
  · intro b hmem
    rcases List.mem_append.mp hmem with hold | hnew
    · exact h.size b hold
    · rw [List.mem_singleton.mp hnew]
      exact hb
  · rw [List.flatten_append, List.flatten_singleton, List.append_assoc]
    exact h.join

/-- No second cut of the stream has a short rest as well. -/
theorem unique (h : CutInto n stream blocks rest) (h' : CutInto n stream blocks' rest')
    (hr : rest.length < n) (hr' : rest'.length < n) : blocks = blocks' ∧ rest = rest' := by
  induction blocks generalizing stream blocks' with
  | nil =>
    obtain rfl : rest = stream := h.join
    cases blocks' with
    | nil => exact ⟨rfl, h'.join.symm⟩
    | cons b' bs' =>
      -- a first block would not fit into the rest
      have hb' := h'.size b' (List.mem_cons_self ..)
      have hlen := congrArg List.length h'.join
      simp only [List.flatten_cons, List.length_append] at hlen
      omega
  | cons b bs ih =>
    have hb := h.size b (List.mem_cons_self ..)
    have hjoin := h.join
    cases blocks' with
    | nil =>
      obtain rfl : rest' = stream := h'.join
      have hlen := congrArg List.length hjoin
      simp only [List.flatten_cons, List.length_append] at hlen
      omega
    | cons b' bs' =>
      have hb' := h'.size b' (List.mem_cons_self ..)
      have hjoin' := h'.join
      rw [List.flatten_cons, List.append_assoc] at hjoin hjoin'
      obtain ⟨rfl, htail⟩ := List.append_inj (hjoin.trans hjoin'.symm) (hb.trans hb'.symm)
      obtain ⟨rfl, rfl⟩ := ih
        ⟨fun c hc => h.size c (List.mem_cons_of_mem _ hc), rfl⟩
        ⟨fun c hc => h'.size c (List.mem_cons_of_mem _ hc), htail.symm⟩
      exact ⟨rfl, rfl⟩

end CutInto

end FunasrApi.Core
