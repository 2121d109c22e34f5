import FunasrApi.Core.PythonText

/-!
# Paths as Python sees them

The part of `pathlib` that works on the text of a POSIX path alone: the components,
the name, the suffix, and the place that an absolute path without links resolves to.
-/

namespace FunasrApi.Core

namespace Text

/-- `text.strip(chars)`. -/
def stripChars (chars : List Char) (t : Text) : Text :=
  (t.dropWhile (· ∈ chars)).rdropWhile (· ∈ chars)

/-- `text.replace(old, new)` for single characters. -/
def replace (old new : Char) (t : Text) : Text := t.map fun c => if c = old then new else c

/-- Without the old character nothing is replaced. -/
theorem replace_of_not_mem {old : Char} (new : Char) {t : Text} (h : old ∉ t) :
    replace old new t = t := by
  refine (List.map_congr_left fun c hc => if_neg ?_).trans (List.map_id' t)
  rintro rfl
  exact h hc

/-- Nothing that is replaced is left. -/
theorem not_mem_replace {old new : Char} (h : old ≠ new) (t : Text) : old ∉ replace old new t := by
  intro hmem
  obtain ⟨c, -, hc⟩ := List.mem_map.mp hmem
  split at hc
  · exact h hc.symm
  · next hne => exact hne hc

/-- The new character splits each part further where the old one was. -/
theorem split_replace (old new : Char) (t : Text) :
    split new (replace old new t) =
      (split new t).flatMap fun part => split new (replace old new part) := by
  have hjoin (parts : List Text) :
      replace old new (join new parts) = join new (parts.map (replace old new)) :=
    join_map (fun _ _ => List.map_append) (by simp) parts
  have hne : (split new t).map (replace old new) ≠ [] :=
    mt List.map_eq_nil_iff.mp (List.splitOn_ne_nil new t)
  conv_lhs => rw [← join_split new t]
  rw [hjoin, split_join_eq_flatMap new hne, List.flatMap_map]

/-- Every part is a stretch of the joined text. -/
theorem infix_intercalate (separator : Text) {part : Text} {parts : List Text} (h : part ∈ parts) :
    part <:+: separator.intercalate parts := by
  induction parts with
  | nil => cases h
  | cons first parts ih =>
    cases parts with
    | nil =>
      obtain rfl := List.mem_singleton.mp h
      exact ⟨[], [], by simp⟩
    | cons second rest =>
      rw [List.intercalate_cons_of_ne_nil (List.cons_ne_nil second rest)]
      rcases List.mem_cons.mp h with rfl | h
      · exact ⟨[], separator ++ separator.intercalate (second :: rest), by simp⟩
      · exact (ih h).trans (List.suffix_append _ _).isInfix

/-- Every part of a text is a stretch of it. -/
theorem infix_of_mem_split {c : Char} {t part : Text} (h : part ∈ split c t) : part <:+: t := by
  have hpart := infix_intercalate [c] h
  rwa [split, List.intercalate_splitOn] at hpart

/-- Dropping stops at the first character that is kept. -/
theorem dropWhile_append_cons {p : Char → Bool} {x : Char} (hx : p x = false) (u v : Text) :
    (u ++ x :: v).dropWhile p = u.dropWhile p ++ x :: v := by
  rw [List.dropWhile_append]
  split
  · next hu =>
    rw [List.isEmpty_iff.mp hu, List.dropWhile_cons_of_neg (by simp [hx])]
    rfl
  · rfl

theorem rdropWhile_append_concat {p : Char → Bool} {x : Char} (hx : p x = false) (u v : Text) :
    ((u ++ [x]) ++ v).rdropWhile p = (u ++ [x]) ++ v.rdropWhile p := by
  have hreverse : ((u ++ [x]) ++ v).reverse = v.reverse ++ x :: u.reverse := by simp
  rw [List.rdropWhile, hreverse, dropWhile_append_cons hx, List.rdropWhile]
  simp

/-- Stripping leaves a stretch without any of the characters, and some of what is around it. -/
theorem stripChars_append {chars : List Char} {m : Text} (hm : m ≠ []) (hchars : ∀ c ∈ m, c ∉ chars)
    (u v : Text) :
    ∃ u' v' : Text, v' <+: v ∧ stripChars chars (u ++ m ++ v) = u' ++ m ++ v' := by
  obtain ⟨x, m', hfirst⟩ := List.exists_cons_of_ne_nil hm
  obtain ⟨m'', y, hlast⟩ := (List.eq_nil_or_concat' m).resolve_left hm
  have hx : decide (x ∈ chars) = false :=
    decide_eq_false (hchars x (hfirst ▸ List.mem_cons_self ..))
  have hy : decide (y ∈ chars) = false :=
    decide_eq_false (hchars y (hlast ▸ List.mem_append_right _ (List.mem_singleton_self y)))
  have hleft : (u ++ m ++ v).dropWhile (· ∈ chars) = u.dropWhile (· ∈ chars) ++ m ++ v := by
    rw [List.append_assoc, List.append_assoc, hfirst, List.cons_append, dropWhile_append_cons hx]
  refine ⟨u.dropWhile (· ∈ chars), v.rdropWhile (· ∈ chars), List.rdropWhile_prefix _ v, ?_⟩
  rw [stripChars, hleft, hlast, ← List.append_assoc, rdropWhile_append_concat hy]

theorem stripChars_infix (chars : List Char) (t : Text) : stripChars chars t <:+: t :=
  (List.rdropWhile_prefix _ _).isInfix.trans (List.dropWhile_suffix _).isInfix

end Text

/-- The components of a path, as `Path(text).parts` without the root. -/
def pathParts (t : Text) : List Text := (t.split '/').filter fun part => part ≠ [] ∧ part ≠ ['.']

/-- `Path(text).name`. -/
def pathName (t : Text) : Text := (pathParts t).getLast?.getD []

/-- `Path(text).suffix`: the name from its last dot on, if something stands on both sides. -/
def pathSuffix (t : Text) : Text :=
  let name := pathName t
  let extension := name.rtakeWhile (· ≠ '.')
  if extension ≠ [] ∧ extension.length + 1 < name.length then '.' :: extension else []

/-- No name has a separator. -/
theorem slash_not_mem_pathName (t : Text) : '/' ∉ pathName t := by
  unfold pathName
  cases hlast : (pathParts t).getLast? with
  | none => exact List.not_mem_nil
  | some part =>
    have hpart := List.mem_of_getLast? hlast
    exact Text.not_mem_of_mem_split (List.mem_of_mem_filter hpart)

/-- A suffix is empty, or a dot and an extension that has neither a dot nor a separator. -/
theorem pathSuffix_cases (t : Text) :
    pathSuffix t = [] ∨ ∃ extension, pathSuffix t = '.' :: extension ∧
      '.' ∉ extension ∧ '/' ∉ extension := by
  unfold pathSuffix
  dsimp only
  split
  · refine .inr ⟨_, rfl, fun hdot => ?_, fun hslash => ?_⟩
    · simpa using List.mem_rtakeWhile_imp hdot
    · exact slash_not_mem_pathName t ((List.rtakeWhile_suffix _ _).subset hslash)
  · exact .inl rfl

/-- A `PurePosixPath`: the separators that it starts with, and its components. -/
structure Path where
  anchor : Text
  parts : List Text
  deriving DecidableEq

namespace Path

/-- `Path(text)`. Two leading separators, but not three, are kept. -/
def ofText (t : Text) : Path where
  anchor :=
    if ['/', '/'] <+: t ∧ ¬ ['/', '/', '/'] <+: t then ['/', '/']
    else if ['/'] <+: t then ['/'] else []
  parts := pathParts t

/-- `path / text`: an absolute path takes the place of what is before it. -/
def child (p : Path) (t : Text) : Path :=
  let q := ofText t
  if q.anchor = [] then ⟨p.anchor, p.parts ++ q.parts⟩ else q

/-- `path.name`. -/
def name (p : Path) : Text := p.parts.getLast?.getD []

/-- `path.parent`. -/
def parent (p : Path) : Path := ⟨p.anchor, p.parts.dropLast⟩

/-- A text without separators is the one component that it names, or names none. -/
theorem child_of_not_mem {t : Text} (h : '/' ∉ t) (p : Path) :
    p.child t = if t = [] ∨ t = ['.'] then p else ⟨p.anchor, p.parts ++ [t]⟩ := by
  have hanchor : (ofText t).anchor = [] := by
    unfold ofText
    dsimp only
    rw [if_neg, if_neg]
    · exact fun hslash => h (hslash.subset List.mem_cons_self)
    · exact fun hslash => h (hslash.1.subset List.mem_cons_self)
  rw [child, if_pos hanchor, ofText, pathParts, Text.split_eq_singleton h]
  by_cases hskip : t = [] ∨ t = ['.']
  · rw [if_pos hskip, List.filter_cons_of_neg (by simpa [or_iff_not_imp_left] using hskip)]
    simp
  · rw [if_neg hskip, List.filter_cons_of_pos (by simpa [not_or] using hskip)]
    rfl

end Path

/-- No name is the component for the same place. -/
theorem pathName_ne_dot (t : Text) : pathName t ≠ ['.'] := by
  unfold pathName
  cases hlast : (pathParts t).getLast? with
  | none => exact nofun
  | some part =>
    have hpart := (List.mem_filter.mp (List.mem_of_getLast? hlast)).2
    exact (of_decide_eq_true hpart).2

/-- One component further down an absolute path without links. -/
def descend (place : List Text) (part : Text) : List Text :=
  if part = [] ∨ part = ['.'] then place
  else if part = ['.', '.'] then place.dropLast
  else place ++ [part]

/-- `Path.resolve()` of an absolute path without links, by its components. -/
def resolvePath (parts : List Text) : List Text := parts.foldl descend []

@[simp] theorem descend_nil (place : List Text) : descend place [] = place := rfl

theorem descend_of_name {part : Text} (h : 2 < part.length) (place : List Text) :
    descend place part = place ++ [part] := by
  unfold descend
  rw [if_neg, if_neg]
  · rintro rfl
    exact absurd h (by decide)
  · rintro (rfl | rfl) <;> exact absurd h (by decide)

/-- Without a way up, what is there stays, and only components are added. -/
theorem foldl_descend_of_no_parent {parts : List Text} (h : ['.', '.'] ∉ parts)
    (place : List Text) :
    parts.foldl descend place = place ++ parts.filter fun part => part ≠ [] ∧ part ≠ ['.'] := by
  induction parts generalizing place with
  | nil => simp
  | cons part parts ih =>
    obtain ⟨hpart, hparts⟩ := not_or.mp (mt List.mem_cons.mpr h)
    rw [List.foldl_cons, ih hparts, descend, if_neg (Ne.symm hpart)]
    split
    · next hskip => rw [List.filter_cons_of_neg (by simpa [← or_iff_not_imp_left] using hskip)]
    · next hkeep =>
      rw [List.filter_cons_of_pos (by simpa [not_or] using hkeep)]
      simp

/-- Below a component of some length no way leads up again, unless it is asked for. -/
theorem resolvePath_append_cons {part : Text} (hpart : 2 < part.length) (before : List Text)
    {after : List Text} (hafter : ['.', '.'] ∉ after) :
    resolvePath (before ++ part :: after) =
      resolvePath before ++ part :: after.filter fun part => part ≠ [] ∧ part ≠ ['.'] := by
  rw [resolvePath, List.foldl_append, List.foldl_cons, descend_of_name hpart,
    foldl_descend_of_no_parent hafter]
  simp [resolvePath]

/-- What a path resolves to has names only. -/
theorem name_of_mem_foldl_descend (parts : List Text) {place : List Text}
    (h : ∀ part ∈ place, part ≠ [] ∧ part ≠ ['.'] ∧ part ≠ ['.', '.']) :
    ∀ part ∈ parts.foldl descend place, part ≠ [] ∧ part ≠ ['.'] ∧ part ≠ ['.', '.'] := by
  induction parts generalizing place with
  | nil => exact h
  | cons next parts ih =>
    refine ih fun part hpart => ?_
    unfold descend at hpart
    split at hpart
    · exact h part hpart
    · next hskip =>
      split at hpart
      · exact h part (List.dropLast_subset place hpart)
      · next hparent =>
        rcases List.mem_append.mp hpart with hpart | hpart
        · exact h part hpart
        · obtain rfl := List.mem_singleton.mp hpart
          exact ⟨fun hnil => hskip (.inl hnil), fun hdot => hskip (.inr hdot), hparent⟩

/-- A resolved path resolves to itself. -/
theorem resolvePath_resolvePath (parts : List Text) :
    resolvePath (resolvePath parts) = resolvePath parts := by
  have hname := name_of_mem_foldl_descend parts (fun _ h => absurd h List.not_mem_nil)
  have hparent : ['.', '.'] ∉ resolvePath parts := fun hmem => (hname _ hmem).2.2 rfl
  have hkeep : ∀ part ∈ resolvePath parts, decide (part ≠ [] ∧ part ≠ ['.']) = true :=
    fun part hmem => decide_eq_true ⟨(hname part hmem).1, (hname part hmem).2.1⟩
  rw [resolvePath, foldl_descend_of_no_parent hparent, List.filter_eq_self.mpr hkeep,
    List.nil_append]

/-- A resolved front part may be resolved before. -/
theorem resolvePath_resolvePath_append (front parts : List Text) :
    resolvePath (resolvePath front ++ parts) = resolvePath (front ++ parts) := by
  have hfront := resolvePath_resolvePath front
  unfold resolvePath at hfront ⊢
  rw [List.foldl_append, List.foldl_append, hfront]

/-- Separators at the ends lead nowhere. -/
theorem foldl_descend_stripChars (t : Text) (place : List Text) :
    ((t.stripChars ['/']).split '/').foldl descend place =
      (t.split '/').foldl descend place := by
  have hleft : ∀ t : Text, (Text.split '/' (t.dropWhile (· ∈ ['/']))).foldl descend place =
      (t.split '/').foldl descend place := by
    intro t
    induction t with
    | nil => rfl
    | cons c t ih =>
      rw [List.dropWhile_cons]
      split
      · next hc =>
        have hsplit : Text.split '/' ('/' :: t) = [] :: Text.split '/' t :=
          List.splitOn_append_cons_self [] t
        rw [ih, List.mem_singleton.mp (of_decide_eq_true hc), hsplit, List.foldl_cons,
          descend_nil]
      · rfl
  have hright : ∀ t : Text, (Text.split '/' (t.rdropWhile (· ∈ ['/']))).foldl descend place =
      (t.split '/').foldl descend place := by
    intro t
    induction t using List.reverseRecOn with
    | nil => rfl
    | append_singleton t c ih =>
      rw [List.rdropWhile_concat]
      split
      · next hc =>
        rw [ih, List.mem_singleton.mp (of_decide_eq_true hc), Text.split, Text.split,
          List.splitOn_append_cons_self, List.foldl_append]
        rfl
      · rfl
  rw [Text.stripChars, hright, hleft]

end FunasrApi.Core
