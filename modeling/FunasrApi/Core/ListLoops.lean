import Mathlib.Data.List.Sort
import Mathlib.Data.List.SplitBy

/-!
# Loops that sort, merge and place

A stable sort by a key; the loop that merges neighbouring elements of a list into
the value that is being built, as long as they continue it, so that what is read
off the merged values is read off the elements in their order; and the loop that
places values at their indices, in whatever order they come.
-/

namespace FunasrApi.Core

section Sorting

variable {α κ : Type*} [LinearOrder κ] (key : α → κ)

/-- `sorted(xs, key=key)`: elements with equal keys keep their order. -/
def sortedBy (xs : List α) : List α := xs.insertionSort fun a b => key a ≤ key b

theorem sortedBy_perm (xs : List α) : (sortedBy key xs).Perm xs :=
  List.perm_insertionSort _ xs

@[simp] theorem mem_sortedBy {xs : List α} {x : α} : x ∈ sortedBy key xs ↔ x ∈ xs :=
  (sortedBy_perm key xs).mem_iff

/-- A list whose keys do not decrease stays as it is. -/
theorem sortedBy_eq_self {xs : List α} (h : xs.Pairwise fun a b => key a ≤ key b) :
    sortedBy key xs = xs :=
  List.Pairwise.insertionSort_eq h

theorem sortedBy_pairwise (xs : List α) :
    (sortedBy key xs).Pairwise fun a b => key a ≤ key b :=
  List.pairwise_insertionSort _ xs

/-- Sorting commutes with a function that the key looks through. -/
theorem sortedBy_map {α' : Type*} (f : α' → α) (xs : List α') :
    sortedBy key (xs.map f) = (sortedBy (fun x => key (f x)) xs).map f :=
  (List.map_insertionSort _ _ f xs fun _ _ _ _ => Iff.rfl).symm

/-- A list is sorted if sorting it moves no mark, whatever bound the marks tell its keys by. -/
theorem pairwise_of_marks {β : Type*} {low high : β} (hne : low ≠ high) {xs : List κ}
    (h : ∀ bound, (sortedBy id xs).map (fun x => if x ≤ bound then low else high) =
      xs.map fun x => if x ≤ bound then low else high) :
    xs.Pairwise fun a b => a ≤ b := by
  have hmark {bound x y : κ} (heq : (if x ≤ bound then low else high) =
      if y ≤ bound then low else high) : x ≤ bound ↔ y ≤ bound := by
    by_cases hx : x ≤ bound <;> by_cases hy : y ≤ bound
    · exact iff_of_true hx hy
    · rw [if_pos hx, if_neg hy] at heq
      exact absurd heq hne
    · rw [if_neg hx, if_pos hy] at heq
      exact absurd heq.symm hne
    · exact iff_of_false hx hy
  have hsame : sortedBy id xs = xs := by
    refine List.ext_getElem (sortedBy_perm id xs).length_eq fun i hi hi' => ?_
    -- each of two keys at one place is a bound for the other
    have hplace (bound : κ) : (sortedBy id xs)[i] ≤ bound ↔ xs[i] ≤ bound := by
      apply hmark
      simpa [hi, hi'] using congrArg (fun marks => marks[i]?) (h bound)
    exact le_antisymm ((hplace _).mpr le_rfl) ((hplace _).mp le_rfl)
  rw [← hsame]
  exact sortedBy_pairwise id xs

end Sorting

section Merging

variable {α β γ : Type*} (continues : β → α → Bool) (fresh : α → β) (extend : β → α → β)
  (keep : β → Bool)

/-- The value that is being built is put out, unless it is not worth it. -/
def closeRun (done : List β) : Option β → List β
  | none => done
  | some current => if keep current then done ++ [current] else done

/-- One round of the loop: the values put out, and the one that is being built. -/
def mergeRound (acc : List β × Option β) (x : α) : List β × Option β :=
  match acc.2 with
  | none => (acc.1, some (fresh x))
  | some current =>
    if continues current x then (acc.1, some (extend current x))
    else (closeRun keep acc.1 (some current), some (fresh x))

/-- The loop over all elements. -/
def mergeRuns (xs : List α) : List β :=
  let acc := xs.foldl (mergeRound continues fresh extend keep) ([], none)
  closeRun keep acc.1 acc.2

variable {continues fresh extend keep}

theorem closeRun_some (done : List β) (b : β) :
    closeRun keep done (some b) = done ++ [b].filter keep := by
  unfold closeRun
  dsimp only
  split <;> next hkeep => simp [hkeep]

/-- A view of the values that knows which elements continue them, and which values are worth it,
passes through the loop. -/
theorem mergeRuns_map {β' : Type*} (view : β → β') {continues' : β' → α → Bool}
    {fresh' : α → β'} {extend' : β' → α → β'} {keep' : β' → Bool}
    (hcontinues : ∀ b x, continues b x = continues' (view b) x)
    (hfresh : ∀ x, view (fresh x) = fresh' x)
    (hextend : ∀ b x, view (extend b x) = extend' (view b) x)
    (hkeep : ∀ b, keep b = keep' (view b)) (xs : List α) :
    (mergeRuns continues fresh extend keep xs).map view =
      mergeRuns continues' fresh' extend' keep' xs := by
  have hclose (done : List β) (current : Option β) :
      (closeRun keep done current).map view =
        closeRun keep' (done.map view) (current.map view) := by
    cases current with
    | none => rfl
    | some b =>
      simp only [closeRun, Option.map_some, hkeep b]
      split <;> simp
  have hround (acc : List β × Option β) (x : α) :
      Prod.map (List.map view) (Option.map view) (mergeRound continues fresh extend keep acc x) =
        mergeRound continues' fresh' extend' keep'
          (Prod.map (List.map view) (Option.map view) acc) x := by
    obtain ⟨done, current⟩ := acc
    cases current with
    | none => simp [mergeRound, hfresh]
    | some b =>
      simp only [mergeRound, Prod.map, Option.map_some, hcontinues b x]
      split
      · simp [hextend]
      · simp [hclose, hfresh]
  have hloop : xs.foldl (mergeRound continues' fresh' extend' keep')
        (Prod.map (List.map view) (Option.map view) ([], none)) =
      Prod.map (List.map view) (Option.map view)
        (xs.foldl (mergeRound continues fresh extend keep) ([], none)) :=
    List.foldl_hom _ fun acc x => (hround acc x).symm
  rw [mergeRuns, hclose]
  exact (congrArg (fun acc : List β' × Option β' => closeRun keep' acc.1 acc.2) hloop).symm

/-- A reading that a fresh value takes from its element, and that an extended value takes from
the value and the element, is the reading of the elements in their order. -/
theorem mergeRuns_flatMap {xs : List α} (Sound : β → Prop) {read : β → List γ} {readOf : α → List γ}
    (hfresh : ∀ x ∈ xs, Sound (fresh x) ∧ read (fresh x) = readOf x)
    (hextend : ∀ x ∈ xs, ∀ b, Sound b →
      Sound (extend b x) ∧ read (extend b x) = read b ++ readOf x)
    (hkeep : ∀ b, Sound b → keep b = true ∨ read b = []) :
    (mergeRuns continues fresh extend keep xs).flatMap read = xs.flatMap readOf := by
  suffices h : ∀ (acc : List β × Option β) (ys : List α), ys ⊆ xs → (∀ b ∈ acc.2, Sound b) →
      (closeRun keep (ys.foldl (mergeRound continues fresh extend keep) acc).1
        (ys.foldl (mergeRound continues fresh extend keep) acc).2).flatMap read =
      (closeRun keep acc.1 acc.2).flatMap read ++ ys.flatMap readOf by
    simpa [mergeRuns, closeRun] using h ([], none) xs (List.Subset.refl xs) (by simp)
  have hclose (done : List β) (b : β) (hb : Sound b) :
      (closeRun keep done (some b)).flatMap read = done.flatMap read ++ read b := by
    rw [closeRun_some, List.flatMap_append]
    rcases hkeep b hb with hkept | hnothing
    · rw [List.filter_cons_of_pos hkept, List.filter_nil, List.flatMap_singleton]
    · cases hkept : keep b <;> simp [hkept, hnothing]
  intro acc ys hys hacc
  induction ys generalizing acc with
  | nil => simp
  | cons x ys ih =>
    have hx : x ∈ xs := hys (List.mem_cons_self ..)
    have hrest : ys ⊆ xs := fun y hy => hys (List.mem_cons_of_mem x hy)
    obtain ⟨hsound, hread⟩ := hfresh x hx
    obtain ⟨done, current⟩ := acc
    rw [List.foldl_cons, List.flatMap_cons, ← List.append_assoc]
    cases current with
    | none =>
      rw [mergeRound, ih _ hrest (by simpa using hsound)]
      dsimp only
      rw [hclose done _ hsound, hread]
      rfl
    | some current =>
      have hcurrent : Sound current := hacc current rfl
      obtain ⟨hsound', hread'⟩ := hextend x hx current hcurrent
      rw [mergeRound]
      dsimp only
      split
      · rw [ih _ hrest (by simpa using hsound')]
        dsimp only
        rw [hclose done _ hsound', hclose done _ hcurrent, hread']
        simp only [List.append_assoc]
      · rw [ih _ hrest (by simpa using hsound)]
        dsimp only
        rw [hclose _ _ hsound, hread]

variable (fresh extend) in
/-- The value that is built from a run of elements. -/
def runValue : List α → Option β
  | [] => none
  | x :: xs => some (xs.foldl extend (fresh x))

theorem ne_nil_of_runValue {run : List α} {b : β} (h : runValue fresh extend run = some b) :
    run ≠ [] := by
  rintro rfl
  cases h

theorem runValue_append {run : List α} {b : β} (h : runValue fresh extend run = some b) (x : α) :
    runValue fresh extend (run ++ [x]) = some (extend b x) := by
  cases run with
  | nil => cases h
  | cons y ys =>
    obtain rfl := Option.some.inj h
    simp [runValue, List.foldl_append]

/-- What is so for a fresh value, and stays so when a value is extended, is so for the value of a
run. -/
theorem runValue_induction {motive : List α → β → Prop} (hfresh : ∀ x, motive [x] (fresh x))
    (hextend : ∀ run b, motive run b → ∀ x, motive (run ++ [x]) (extend b x)) {run : List α}
    {b : β} (h : runValue fresh extend run = some b) : motive run b := by
  suffices hfold : ∀ (ys front : List α) (b : β), motive front b →
      motive (front ++ ys) (ys.foldl extend b) by
    cases run with
    | nil => cases h
    | cons x xs =>
      obtain rfl := Option.some.inj h
      exact hfold xs [x] (fresh x) (hfresh x)
  intro ys
  induction ys with
  | nil =>
    intro front b hb
    rwa [List.append_nil]
  | cons y ys ih =>
    intro front b hb
    rw [List.append_cons]
    exact ih (front ++ [y]) (extend b y) (hextend front b hb y)

/-- When an element continues a run by its relation to the last one, the values that are put out
are those of the runs of related neighbours. -/
theorem mergeRuns_eq_splitBy {r : α → α → Bool} {xs : List α}
    (hcontinues : ∀ run b, runValue fresh extend run = some b → run.IsChain (fun x y => r x y) →
      ∀ y ∈ run.getLast?, ∀ x, continues b x = r y x) :
    mergeRuns continues fresh extend keep xs =
      ((xs.splitBy r).filterMap (runValue fresh extend)).filter keep := by
  suffices h : ∀ (ys : List α) (done : List β) (run : List α) (b : β),
      runValue fresh extend run = some b → run.IsChain (fun x y => r x y) →
      closeRun keep (ys.foldl (mergeRound continues fresh extend keep) (done, some b)).1
          (ys.foldl (mergeRound continues fresh extend keep) (done, some b)).2 =
        done ++ (((run ++ ys).splitBy r).filterMap (runValue fresh extend)).filter keep by
    cases xs with
    | nil => rfl
    | cons x xs =>
      have hfirst := h xs [] [x] (fresh x) rfl (List.isChain_singleton x)
      simpa [mergeRuns, mergeRound] using hfirst
  intro ys
  induction ys with
  | nil =>
    intro done run b hb hchain
    simp only [List.foldl_nil, List.append_nil]
    rw [List.splitBy_of_isChain (ne_nil_of_runValue hb) hchain, List.filterMap_cons_some hb,
      List.filterMap_nil, closeRun_some]
  | cons y ys ih =>
    intro done run b hb hchain
    have hne := ne_nil_of_runValue hb
    have hlast := hcontinues run b hb hchain _ (List.getLast?_eq_some_getLast hne) y
    rw [List.foldl_cons, mergeRound]
    dsimp only
    rw [hlast]
    split
    · next hrelated =>
      have hchain' : (run ++ [y]).IsChain fun x y => r x y := by
        rw [List.isChain_append]
        refine ⟨hchain, List.isChain_singleton y, fun z hz w hw => ?_⟩
        obtain rfl := Option.some.inj ((List.getLast?_eq_some_getLast hne).symm.trans hz)
        obtain rfl : y = w := by simpa using hw
        exact hrelated
      rw [ih done (run ++ [y]) (extend b y) (runValue_append hb y) hchain', List.append_assoc,
        List.singleton_append]
    · next hother =>
      rw [ih _ [y] (fresh y) rfl (List.isChain_singleton y), List.singleton_append, closeRun_some,
        List.splitBy_append_cons, List.splitBy_of_isChain hne hchain, List.filterMap_append,
        List.filter_append, List.filterMap_cons_some hb, List.filterMap_nil, List.append_assoc]
      intro z hz
      obtain rfl := Option.some.inj ((List.getLast?_eq_some_getLast hne).symm.trans hz)
      exact Bool.eq_false_iff.mpr hother

/-- What holds of every new value and is kept by every element holds of the values that are put
out. -/
theorem forall_mem_mergeRuns {P : β → Prop} {xs : List α} (hfresh : ∀ x ∈ xs, P (fresh x))
    (hextend : ∀ x ∈ xs, ∀ b, P b → P (extend b x)) :
    ∀ b ∈ mergeRuns continues fresh extend keep xs, P b := by
  suffices h : ∀ ys ⊆ xs, ∀ acc : List β × Option β, (∀ b ∈ acc.1, P b) → (∀ b ∈ acc.2, P b) →
      ∀ b ∈ closeRun keep (ys.foldl (mergeRound continues fresh extend keep) acc).1
        (ys.foldl (mergeRound continues fresh extend keep) acc).2, P b from
    h xs (List.Subset.refl xs) ([], none) (by simp) (by simp)
  have hclose : ∀ done : List β, (∀ b ∈ done, P b) → ∀ current : Option β,
      (∀ b ∈ current, P b) → ∀ b ∈ closeRun keep done current, P b := by
    intro done hdone current hcurrent b hb
    cases current with
    | none => exact hdone b hb
    | some current =>
      rw [closeRun_some, List.mem_append] at hb
      rcases hb with hb | hb
      · exact hdone b hb
      · obtain rfl := List.mem_singleton.mp (List.mem_of_mem_filter hb)
        exact hcurrent b rfl
  intro ys
  induction ys with
  | nil =>
    intro _ acc hdone hcurrent
    exact hclose acc.1 hdone acc.2 hcurrent
  | cons y ys ih =>
    intro hsub acc hdone hcurrent
    have hy := hsub (List.mem_cons_self ..)
    refine ih (fun x hx => hsub (List.mem_cons_of_mem y hx)) _ ?_ ?_
    · unfold mergeRound
      split
      · exact hdone
      · next current heq =>
        split
        · exact hdone
        · exact hclose acc.1 hdone (some current) fun b hb => hcurrent b (heq ▸ hb)
    · unfold mergeRound
      split
      · rintro b ⟨⟩
        exact hfresh y hy
      · next current heq =>
        split
        · rintro b ⟨⟩
          exact hextend y hy current (hcurrent current heq)
        · rintro b ⟨⟩
          exact hfresh y hy

/-- When every value is put out, neighbours are related as a value is to the new one that an
element makes which does not continue it. -/
theorem mergeRuns_isChain {R : β → β → Prop}
    (hfresh : ∀ b x, continues b x = false → R b (fresh x))
    (hextend : ∀ a b x, R a b → R a (extend b x)) (xs : List α) :
    (mergeRuns continues fresh extend (fun _ => true) xs).IsChain R := by
  suffices h : ∀ (ys : List α) (done : List β) (b : β), (done ++ [b]).IsChain R →
      let acc := ys.foldl (mergeRound continues fresh extend fun _ => true) (done, some b)
      (closeRun (fun _ => true) acc.1 acc.2).IsChain R by
    cases xs with
    | nil => exact List.isChain_nil
    | cons x xs => exact h xs [] (fresh x) (List.isChain_singleton _)
  intro ys
  induction ys with
  | nil =>
    intro done b h
    exact h
  | cons y ys ih =>
    intro done b h
    rw [List.foldl_cons, mergeRound]
    dsimp only
    rw [List.isChain_append] at h
    split
    · refine ih done (extend b y) ?_
      rw [List.isChain_append]
      refine ⟨h.1, List.isChain_singleton _, fun a ha c hc => ?_⟩
      obtain rfl : extend b y = c := by simpa using hc
      exact hextend a b y (h.2.2 a ha b rfl)
    · next hother =>
      refine ih (done ++ [b]) (fresh y) ?_
      rw [List.isChain_append, List.isChain_append]
      refine ⟨h, List.isChain_singleton _, fun a ha c hc => ?_⟩
      obtain rfl : b = a := by simpa using ha
      obtain rfl : fresh y = c := by simpa using hc
      exact hfresh b y (Bool.eq_false_iff.mpr hother)

end Merging

section Placing

variable {α β : Type*} (index : α → ℕ) (value : α → β)

/-- `for x in xs: parts[index(x)] = value(x)`. -/
def placeAll (parts : List β) (xs : List α) : List β :=
  xs.foldl (fun parts x => parts.set (index x) (value x)) parts

@[simp] theorem length_placeAll (parts : List β) (xs : List α) :
    (placeAll index value parts xs).length = parts.length := by
  unfold placeAll
  induction xs generalizing parts with
  | nil => rfl
  | cons x xs ih => rw [List.foldl_cons, ih, List.length_set]

/-- A place that no element has is left alone. -/
theorem placeAll_getElem?_of_notMem (parts : List β) {xs : List α} {i : ℕ}
    (h : i ∉ xs.map index) : (placeAll index value parts xs)[i]? = parts[i]? := by
  unfold placeAll
  induction xs generalizing parts with
  | nil => rfl
  | cons x xs ih =>
    rw [List.map_cons, List.mem_cons, not_or] at h
    rw [List.foldl_cons, ih _ h.2, List.getElem?_set_ne (Ne.symm h.1)]

/-- Elements with places of their own all find them. -/
theorem placeAll_getElem? (parts : List β) {xs : List α} (hnodup : (xs.map index).Nodup)
    {x : α} (hx : x ∈ xs) (hindex : index x < parts.length) :
    (placeAll index value parts xs)[index x]? = some (value x) := by
  induction xs generalizing parts with
  | nil => cases hx
  | cons y xs ih =>
    rw [List.map_cons, List.nodup_cons] at hnodup
    rcases List.mem_cons.mp hx with rfl | hrest
    · have hset := placeAll_getElem?_of_notMem index value
        (parts.set (index x) (value x)) hnodup.1
      rw [placeAll, List.foldl_cons]
      exact hset.trans (List.getElem?_set_self hindex)
    · exact ih _ hnodup.2 hrest (by rwa [List.length_set])

/-- When the places are `0, 1, 2, …`, the order in which the elements come does not matter. -/
theorem placeAll_of_perm {parts : List β} {xs ys : List α} (hperm : ys.Perm xs)
    (hindex : xs.map index = List.range parts.length) :
    placeAll index value parts ys = xs.map value := by
  have hlength : xs.length = parts.length := by
    simpa using congrArg List.length hindex
  have hnodup : (ys.map index).Nodup := by
    rw [(hperm.map index).nodup_iff, hindex]
    exact List.nodup_range
  apply List.ext_getElem?
  intro i
  by_cases hi : i < xs.length
  · have hplace : index xs[i] = i := by
      have hget := congrArg (fun l : List ℕ => l[i]?) hindex
      simpa [hi, hlength ▸ hi] using hget
    have hsome := placeAll_getElem? index value parts hnodup
      (hperm.mem_iff.mpr (List.getElem_mem hi)) (by omega)
    rw [hplace] at hsome
    rw [hsome, List.getElem?_map, List.getElem?_eq_getElem hi]
    rfl
  · rw [List.getElem?_eq_none (by rw [length_placeAll]; omega),
      List.getElem?_eq_none (by rw [List.length_map]; omega)]

end Placing

end FunasrApi.Core
