import Mathlib.Data.List.DropRight
import Mathlib.Data.List.Flatten

/-!
# Strings as Python sees them

A string is the list of its code points. The operations are those of `str` that
the text helpers use, with the white space of `str.isspace`. Splitting and joining
by a character undo each other.
-/

namespace FunasrApi.Core

/-- A string, by its code points. -/
abbrev Text := List Char

namespace Text

/-- `str.isspace` of one character. -/
def isSpace (c : Char) : Bool :=
  let n := c.toNat
  (9 ≤ n && n ≤ 13) || (28 ≤ n && n ≤ 32) || n == 0x85 || n == 0xA0 || n == 0x1680 ||
    (0x2000 ≤ n && n ≤ 0x200A) || n == 0x2028 || n == 0x2029 || n == 0x202F || n == 0x205F ||
    n == 0x3000

/-- `str.lstrip()`. -/
def lstrip (t : Text) : Text := t.dropWhile isSpace

/-- `str.rstrip()`. -/
def rstrip (t : Text) : Text := t.rdropWhile isSpace

/-- `str.strip()`. -/
def strip (t : Text) : Text := rstrip (lstrip t)

/-- `text.split()`: the maximal runs without white space. -/
def words (t : Text) : List Text := (t.splitOnP isSpace).filter (· ≠ [])

/-- `text.split(separator)` for a separator of one character. -/
def split (separator : Char) (t : Text) : List Text := t.splitOn separator

/-- `separator.join(parts)`. -/
def join (separator : Char) (parts : List Text) : Text := [separator].intercalate parts

theorem rstrip_length_le (t : Text) : (rstrip t).length ≤ t.length :=
  (List.rdropWhile_prefix isSpace t).length_le

/-- What is stripped on the left has no white space to begin with. -/
theorem lstrip_eq_nil_or (t : Text) :
    lstrip t = [] ∨ ∃ c rest, lstrip t = c :: rest ∧ isSpace c = false := by
  unfold lstrip
  cases h : t.dropWhile isSpace with
  | nil => exact .inl rfl
  | cons c rest =>
    have hne : t.dropWhile isSpace ≠ [] := by
      rw [h]
      exact List.cons_ne_nil _ _
    have hhead := List.head_dropWhile_not isSpace hne
    simp only [h, List.head_cons] at hhead
    exact .inr ⟨c, rest, rfl, hhead⟩

/-- Stripping leaves nothing of white space only. -/
theorem strip_eq_nil_iff {t : Text} : strip t = [] ↔ ∀ c ∈ t, isSpace c = true := by
  constructor
  · intro h
    rcases lstrip_eq_nil_or t with hnil | ⟨c, rest, hcons, hc⟩
    · exact List.dropWhile_eq_nil_iff.mp hnil
    · rw [strip, hcons, rstrip, List.rdropWhile_eq_nil_iff] at h
      have hspace := h c (List.mem_cons_self ..)
      rw [hc] at hspace
      cases hspace
  · intro h
    rw [strip, lstrip, List.dropWhile_eq_nil_iff.mpr h]
    rfl

/-- A text with a character that is not white space. -/
def Visible (t : Text) : Prop := ∃ c ∈ t, isSpace c = false

theorem Visible.append_right {t : Text} (h : Visible t) (more : Text) : Visible (t ++ more) := by
  obtain ⟨c, hmem, hc⟩ := h
  exact ⟨c, List.mem_append_left _ hmem, hc⟩

theorem Visible.append_left {t : Text} (h : Visible t) (front : Text) : Visible (front ++ t) := by
  obtain ⟨c, hmem, hc⟩ := h
  exact ⟨c, List.mem_append_right _ hmem, hc⟩

/-- Stripping leaves something of a visible text. -/
theorem Visible.strip_ne_nil {t : Text} (h : Visible t) : strip t ≠ [] := by
  obtain ⟨c, hmem, hc⟩ := h
  intro hnil
  rw [strip_eq_nil_iff.mp hnil c hmem] at hc
  cases hc

/-- A text is visible if stripping leaves something of it. -/
theorem visible_iff_strip_ne_nil {t : Text} : Visible t ↔ strip t ≠ [] := by
  refine ⟨Visible.strip_ne_nil, fun hne => ?_⟩
  by_contra hnone
  refine hne (strip_eq_nil_iff.mpr fun c hc => ?_)
  simpa using fun hspace => hnone ⟨c, hc, hspace⟩

theorem Visible.ne_nil {t : Text} (h : Visible t) : t ≠ [] := by
  obtain ⟨c, hmem, -⟩ := h
  exact List.ne_nil_of_mem hmem

/-- Stripping twice is stripping once. -/
@[simp] theorem strip_strip (t : Text) : strip (strip t) = strip t := by
  have hleft : lstrip (rstrip (lstrip t)) = rstrip (lstrip t) := by
    rcases lstrip_eq_nil_or t with hnil | ⟨c, rest, hcons, hc⟩
    · rw [hnil]
      rfl
    · have hprefix : rstrip (lstrip t) <+: c :: rest := by
        rw [hcons]
        exact List.rdropWhile_prefix isSpace (c :: rest)
      rcases List.prefix_cons_iff.mp hprefix with hnil | ⟨front, hfront, -⟩
      · rw [hnil]
        rfl
      · rw [hfront, lstrip, List.dropWhile_cons_of_neg (by simp [hc])]
  unfold strip
  rw [hleft]
  exact List.rdropWhile_idempotent isSpace (lstrip t)

/-- White space before a text is stripped. -/
theorem strip_cons {c : Char} (hc : isSpace c = true) (t : Text) : strip (c :: t) = strip t := by
  rw [strip, strip, lstrip, List.dropWhile_cons_of_pos hc]
  rfl

/-- So is white space behind it. -/
theorem strip_concat {c : Char} (hc : isSpace c = true) (t : Text) :
    strip (t ++ [c]) = strip t := by
  rw [strip, strip, lstrip, lstrip, List.dropWhile_append]
  split
  · next hblank => rw [List.dropWhile_cons_of_pos hc, List.isEmpty_iff.mp hblank]; rfl
  · exact List.rdropWhile_concat_pos _ _ _ hc

/-- A text is stripped if it is so on either side. -/
theorem strip_eq_self_iff {t : Text} : strip t = t ↔ lstrip t = t ∧ rstrip t = t := by
  constructor
  · intro h
    have hleft : lstrip t = t := by
      refine (List.dropWhile_suffix isSpace).eq_of_length_le ?_
      calc t.length = (strip t).length := by rw [h]
        _ ≤ (lstrip t).length := rstrip_length_le (lstrip t)
    rw [strip, hleft] at h
    exact ⟨hleft, h⟩
  · rintro ⟨hleft, hright⟩
    rw [strip, hleft, hright]

/-- What begins without white space begins so with more behind it. -/
theorem lstrip_append_eq_self {u : Text} (h : lstrip u = u) (hne : u ≠ []) (v : Text) :
    lstrip (u ++ v) = u ++ v := by
  obtain ⟨c, rest, rfl⟩ := List.exists_cons_of_ne_nil hne
  have hc := List.dropWhile_eq_self_iff.mp h (by simp)
  exact List.dropWhile_eq_self_iff.mpr fun _ => by simpa using hc

/-- What ends without white space ends so with more before it. -/
theorem rstrip_append_eq_self {v : Text} (h : rstrip v = v) (hne : v ≠ []) (u : Text) :
    rstrip (u ++ v) = u ++ v := by
  have hlast := List.rdropWhile_eq_self_iff.mp h hne
  refine List.rdropWhile_eq_self_iff.mpr fun hall => ?_
  rwa [List.getLast_append_of_ne_nil hall hne]

/-- Stripped texts around anything make a stripped text. -/
theorem strip_append_append {u v : Text} (hu : strip u = u) (hv : strip v = v) (hune : u ≠ [])
    (hvne : v ≠ []) (middle : Text) : strip (u ++ middle ++ v) = u ++ middle ++ v := by
  refine strip_eq_self_iff.mpr ⟨?_, rstrip_append_eq_self (strip_eq_self_iff.mp hv).2 hvne _⟩
  rw [List.append_assoc]
  exact lstrip_append_eq_self (strip_eq_self_iff.mp hu).1 hune _

/-- Splitting where two texts meet: the last part of the one goes on in the first of the other. -/
theorem split_append (c : Char) (u v : Text) :
    ∃ before last first after, split c u = before ++ [last] ∧ split c v = first :: after ∧
      split c (u ++ v) = before ++ (last ++ first) :: after := by
  induction u with
  | nil =>
    obtain ⟨first, after, hv⟩ := List.exists_cons_of_ne_nil (List.splitOn_ne_nil c v)
    exact ⟨[], [], first, after, List.splitOn_nil c, hv, hv⟩
  | cons x u ih =>
    obtain ⟨before, last, first, after, hu, hv, huv⟩ := ih
    unfold split at hu hv huv ⊢
    rw [List.cons_append, List.splitOn_cons_eq_if_modifyHead,
      List.splitOn_cons_eq_if_modifyHead, hu, huv]
    split
    · exact ⟨[] :: before, last, first, after, rfl, hv, rfl⟩
    · cases before with
      | nil => exact ⟨[], x :: last, first, after, rfl, hv, rfl⟩
      | cons part before => exact ⟨(x :: part) :: before, last, first, after, rfl, hv, rfl⟩

theorem split_eq_singleton {c : Char} {t : Text} (h : c ∉ t) : split c t = [t] :=
  List.splitOn_eq_singleton h

/-- A stretch without separators lies in one part. -/
theorem split_around {c : Char} {m : Text} (hm : c ∉ m) (u v : Text) :
    ∃ before last first after, split c v = first :: after ∧
      split c (u ++ m ++ v) = before ++ (last ++ m ++ first) :: after := by
  obtain ⟨_, _, first, after, hmid, hv, hmv⟩ := split_append c m v
  rw [split_eq_singleton hm] at hmid
  obtain ⟨rfl, hlast⟩ := List.append_inj' ((List.nil_append [m]).trans hmid) rfl
  obtain rfl := List.singleton_inj.mp hlast
  obtain ⟨before, last, _, _, -, hsplit, huv⟩ := split_append c u (m ++ v)
  obtain ⟨rfl, rfl⟩ := List.cons_eq_cons.mp (hmv.symm.trans hsplit)
  exact ⟨before, last, first, _, hv, by simpa using huv⟩

/-- A separator is in no part. -/
theorem not_mem_of_mem_split {c : Char} {t part : Text} (h : part ∈ split c t) : c ∉ part := by
  unfold split at h
  induction t generalizing part with
  | nil =>
    rw [List.splitOn_nil, List.mem_singleton] at h
    rw [h]
    exact List.not_mem_nil
  | cons x t ih =>
    rw [List.splitOn_cons_eq_if_modifyHead] at h
    split at h
    · rcases List.mem_cons.mp h with rfl | h
      · exact List.not_mem_nil
      · exact ih h
    · next hx =>
      obtain ⟨first, after, ht⟩ := List.exists_cons_of_ne_nil (List.splitOn_ne_nil c t)
      rw [ht, List.modifyHead_cons] at h
      rw [ht] at ih
      rcases List.mem_cons.mp h with rfl | h
      · intro hmem
        rcases List.mem_cons.mp hmem with rfl | hmem
        · exact hx (beq_self_eq_true _)
        · exact ih (List.mem_cons_self ..) hmem
      · exact ih (List.mem_cons_of_mem _ h)

/-- The parts of a text, joined again. -/
theorem join_split (c : Char) (t : Text) : join c (split c t) = t := List.intercalate_splitOn c

/-- Parts without the separator are found in what they are joined to. -/
theorem split_join {c : Char} {parts : List Text} (h : ∀ part ∈ parts, c ∉ part)
    (hne : parts ≠ []) : split c (join c parts) = parts :=
  List.splitOn_intercalate c h hne

theorem join_cons {c : Char} {parts : List Text} (part : Text) (hne : parts ≠ []) :
    join c (part :: parts) = part ++ c :: join c parts := by
  rw [join, List.intercalate_cons_of_ne_nil hne, List.append_assoc]
  rfl

theorem split_append_cons (c : Char) (u v : Text) :
    split c (u ++ c :: v) = split c u ++ split c v :=
  List.splitOn_append_cons_self u v

/-- Joined texts are split to the parts of each. -/
theorem split_join_eq_flatMap (c : Char) {texts : List Text} (hne : texts ≠ []) :
    split c (join c texts) = texts.flatMap (split c) := by
  induction texts with
  | nil => exact absurd rfl hne
  | cons text rest ih =>
    by_cases hrest : rest = []
    · simp [hrest, join]
    · rw [join_cons text hrest, split_append_cons, ih hrest, List.flatMap_cons]

/-- Texts joined by a mark that none has are the same only when the texts are. -/
theorem join_inj {mark : Char} {texts texts' : List Text} (h : ∀ t ∈ texts, mark ∉ t)
    (h' : ∀ t ∈ texts', mark ∉ t) (hne : texts ≠ []) (hne' : texts' ≠ []) :
    join mark texts = join mark texts' ↔ texts = texts' := by
  constructor
  · intro hjoin
    rw [← split_join h hne, hjoin, split_join h' hne']
  · rintro rfl
    rfl

/-- Texts that end with a mark, one after the other, are joined by it. -/
theorem flatten_map_append_mark (mark : Char) (texts : List Text) :
    (texts.map (· ++ [mark])).flatten = join mark (texts ++ [[]]) := by
  induction texts with
  | nil => rfl
  | cons text rest ih =>
    rw [List.map_cons, List.flatten_cons, ih, List.cons_append, join_cons _ (by simp),
      List.append_assoc, List.singleton_append]

/-- What is done to a text piece by piece and keeps the separator, is done to the joined parts. -/
theorem join_map {c : Char} {f : Text → Text} (happend : ∀ u v, f (u ++ v) = f u ++ f v)
    (hc : f [c] = [c]) (parts : List Text) : f (join c parts) = join c (parts.map f) := by
  induction parts with
  | nil =>
    have hnil := happend [] []
    exact List.append_cancel_left ((List.append_nil _).trans hnil).symm
  | cons part rest ih =>
    by_cases hrest : rest = []
    · simp [hrest, join]
    · have hcons : f (c :: join c rest) = c :: f (join c rest) := by
        have hfirst := happend [c] (join c rest)
        rwa [hc] at hfirst
      rw [join_cons part hrest, List.map_cons, join_cons _ (by simpa using hrest), ← ih,
        happend, hcons]

/-- The characters of a text that are not white space. -/
def withoutSpace (t : Text) : Text := t.filter fun c => !isSpace c

@[simp] theorem withoutSpace_append (u v : Text) :
    withoutSpace (u ++ v) = withoutSpace u ++ withoutSpace v := List.filter_append u v

theorem withoutSpace_eq_nil_iff {t : Text} : withoutSpace t = [] ↔ strip t = [] := by
  rw [strip_eq_nil_iff, withoutSpace, List.filter_eq_nil_iff]
  simp

@[simp] theorem withoutSpace_lstrip (t : Text) : withoutSpace (lstrip t) = withoutSpace t := by
  have hfront : withoutSpace (t.takeWhile isSpace) = [] := by
    rw [withoutSpace, List.filter_eq_nil_iff]
    intro c hc
    simp [List.mem_takeWhile_imp hc]
  conv_rhs => rw [← List.takeWhile_append_dropWhile (p := isSpace) (l := t)]
  rw [withoutSpace_append, hfront]
  rfl

@[simp] theorem withoutSpace_rstrip (t : Text) : withoutSpace (rstrip t) = withoutSpace t := by
  have hreverse : rstrip t = (lstrip t.reverse).reverse := rfl
  have hfilter := withoutSpace_lstrip t.reverse
  unfold withoutSpace at hfilter ⊢
  rw [hreverse, List.filter_reverse, hfilter, List.filter_reverse, List.reverse_reverse]

/-- Stripping takes white space only. -/
@[simp] theorem withoutSpace_strip (t : Text) : withoutSpace (strip t) = withoutSpace t := by
  rw [strip, withoutSpace_rstrip, withoutSpace_lstrip]

theorem withoutSpace_join {c : Char} (hc : isSpace c = false) (parts : List Text) :
    withoutSpace (join c parts) = join c (parts.map withoutSpace) :=
  join_map withoutSpace_append (List.filter_cons_of_pos (by simp [hc])) parts

/-- A text without white space is stripped already. -/
theorem strip_eq_self {t : Text} (h : ∀ c ∈ t, isSpace c = false) : strip t = t := by
  have hleft : lstrip t = t := by
    cases t with
    | nil => rfl
    | cons c rest => exact List.dropWhile_cons_of_neg (by simp [h c List.mem_cons_self])
  rw [strip, hleft, rstrip, List.rdropWhile_eq_self_iff]
  intro hne
  simp [h _ (List.getLast_mem hne)]

/-- The characters of joined parts and the separators between them. -/
theorem length_join_add_one (separator : Char) {parts : List Text} (hne : parts ≠ []) :
    (join separator parts).length + 1 = parts.flatten.length + parts.length := by
  induction parts with
  | nil => exact absurd rfl hne
  | cons part parts ih =>
    cases parts with
    | nil => simp [join]
    | cons next rest =>
      have hrest := ih (List.cons_ne_nil next rest)
      rw [join_cons part (List.cons_ne_nil next rest), List.flatten_cons, List.length_append,
        List.length_append, List.length_cons, List.length_cons]
      omega

/-- Stripped words, joined, are a stripped text. -/
theorem strip_join {separator : Char} {parts : List Text}
    (h : ∀ part ∈ parts, strip part = part ∧ part ≠ []) :
    strip (join separator parts) = join separator parts := by
  suffices parts ≠ [] → strip (join separator parts) = join separator parts ∧
      join separator parts ≠ [] by
    cases parts with
    | nil => rfl
    | cons part parts => exact (this (List.cons_ne_nil part parts)).1
  induction parts with
  | nil => exact fun hne => absurd rfl hne
  | cons part parts ih =>
    intro _
    obtain ⟨hpart, hparts⟩ := List.forall_mem_cons.mp h
    cases parts with
    | nil => simpa [join] using hpart
    | cons next rest =>
      obtain ⟨hstrip, hne⟩ := ih hparts (List.cons_ne_nil next rest)
      rw [join_cons part (List.cons_ne_nil next rest), List.append_cons]
      exact ⟨strip_append_append hpart.1 hstrip hpart.2 hne [separator], by simp⟩

/-- Fewer parts make a shorter text. -/
theorem length_join_lt_of_sublist (separator : Char) {kept parts : List Text}
    (h : kept.Sublist parts) (hne : kept ≠ []) (hfewer : kept ≠ parts) :
    (join separator kept).length < (join separator parts).length := by
  have hcount : kept.length < parts.length :=
    lt_of_le_of_ne h.length_le fun heq => hfewer (h.eq_of_length heq)
  have hflatten := h.flatten.length_le
  have hkept := length_join_add_one separator hne
  have hpartsNe : parts ≠ [] := fun hnil => hne (List.sublist_nil.mp (hnil ▸ h))
  have hparts := length_join_add_one separator hpartsNe
  omega

/-- The parts of a stripped text are those of the text, but for white space at their ends. -/
theorem map_strip_split_strip {separator : Char} (hseparator : isSpace separator = false)
    (t : Text) : (split separator (strip t)).map strip = (split separator t).map strip := by
  have hne : ∀ c, isSpace c = true → c ≠ separator := fun c hc heq => by
    rw [heq, hseparator] at hc
    cases hc
  have hleft : ∀ t, (split separator (lstrip t)).map strip = (split separator t).map strip := by
    intro t
    induction t with
    | nil => rfl
    | cons c rest ih =>
      by_cases hc : isSpace c = true
      · obtain ⟨first, parts, hparts⟩ := List.exists_cons_of_ne_nil
          (List.splitOn_ne_nil separator rest)
        rw [lstrip, List.dropWhile_cons_of_pos hc, ← lstrip, ih, split, split,
          List.splitOn_cons_eq_if_modifyHead, if_neg (by simpa using hne c hc), hparts]
        simp [strip_cons hc]
      · rw [lstrip, List.dropWhile_cons_of_neg hc]
  have hright : ∀ t, (split separator (rstrip t)).map strip = (split separator t).map strip := by
    intro t
    induction t using List.reverseRecOn with
    | nil => rfl
    | append_singleton front c ih =>
      by_cases hc : isSpace c = true
      · obtain ⟨before, last, first, after, hfront, hsingle, happend⟩ :=
          split_append separator front [c]
        rw [split_eq_singleton (by simpa using (hne c hc).symm)] at hsingle
        obtain ⟨rfl, rfl⟩ := List.cons.inj hsingle
        rw [rstrip, List.rdropWhile_concat_pos _ _ _ hc, ← rstrip, ih, hfront, happend]
        simp [strip_concat hc]
      · rw [rstrip, List.rdropWhile_concat_neg _ _ _ hc]
  rw [strip, hright, hleft]

/-- Single characters, joined, are the characters with the separator between them. -/
theorem join_map_singleton (separator : Char) (chars : List Char) :
    join separator (chars.map ([·])) = chars.intersperse separator := by
  induction chars with
  | nil => rfl
  | cons c rest ih =>
    cases rest with
    | nil => exact List.append_nil [c]
    | cons d rest =>
      rw [List.map_cons, join_cons _ (by simp), ih, List.intersperse_cons_cons,
        List.singleton_append]

end Text

end FunasrApi.Core
