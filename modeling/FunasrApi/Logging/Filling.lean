import FunasrApi.Logging.Payload

/-!
# Payloads without their sensitive values

Two payloads are alike when they differ at most in values under sensitive keys, be it in a
mapping or in what an object exposes. They are compared by filling the same value in for
each of these. What is counted and what is asked of a payload here does not depend on its
sensitive values, and masking is filling stars in, but for what objects expose.
-/

namespace FunasrApi.Logging

open FunasrApi.Core Text

section Masking

variable (runtime : Runtime)

mutual

/-- A payload with other values under the sensitive keys: one outside of objects, one in what
they expose. -/
def filled (outer inner : Payload) : Payload → Payload
  | .scalar s => .scalar s
  | .other repr => .other repr
  | .dict entries => .dict (filledEntries outer inner entries)
  | .list items => .list (filledItems outer inner items)
  | .tuple items => .tuple (filledItems outer inner items)
  | .object cls exposed => .object cls (filledEntries inner inner exposed)

def filledItems (outer inner : Payload) : List Payload → List Payload
  | [] => []
  | item :: items => filled outer inner item :: filledItems outer inner items

def filledEntries (outer inner : Payload) : Entries → Entries
  | [] => []
  | (key, value) :: entries =>
    (key, if isSensitiveKey runtime key then outer else filled outer inner value) ::
      filledEntries outer inner entries

end

/-- What is in the place of every sensitive value when only the others are compared. -/
def blank : Payload := .scalar .none

/-- Payloads that differ at most in the values under sensitive keys. -/
def Alike (payload payload' : Payload) : Prop :=
  filled runtime blank blank payload = filled runtime blank blank payload'

mutual

/-- The sensitive values, counted: `outer` for one outside of objects, `inner` for one in what
they expose. -/
def sensitive (outer inner : ℕ) : Payload → ℕ
  | .dict entries => sensitiveEntries outer inner entries
  | .list items => sensitiveItems outer inner items
  | .tuple items => sensitiveItems outer inner items
  | .object _ exposed => sensitiveEntries inner inner exposed
  | _ => 0

def sensitiveItems (outer inner : ℕ) : List Payload → ℕ
  | [] => 0
  | item :: items => sensitive outer inner item + sensitiveItems outer inner items

def sensitiveEntries (outer inner : ℕ) : Entries → ℕ
  | [] => 0
  | (key, value) :: entries =>
    (if isSensitiveKey runtime key then outer else sensitive outer inner value) +
      sensitiveEntries outer inner entries

end

/-- How many sensitive values the objects expose. -/
def exposures (payload : Payload) : ℕ := sensitive runtime 0 1 payload

mutual

/-- A mapping that is not hidden has a key that JSON does not have. -/
def raises : Payload → Bool
  | .dict entries => raisesEntries entries
  | .list items => raisesItems items
  | .tuple items => raisesItems items
  | .object _ exposed => raisesEntries exposed
  | _ => false

def raisesItems : List Payload → Bool
  | [] => false
  | item :: items => raises item || raisesItems items

def raisesEntries : Entries → Bool
  | [] => false
  | (key, value) :: entries =>
    key.json.isNone || (!isSensitiveKey runtime key && raises value) || raisesEntries entries

end

mutual

/-- The `repr` of an object that is shown does not depend on the sensitive values that it
exposes. -/
def ReprsKeep : Payload → Prop
  | .dict entries => ReprsKeepEntries entries
  | .list items => ReprsKeepItems items
  | .tuple items => ReprsKeepItems items
  | .object cls exposed => ∀ exposed₁ exposed₂,
    filledEntries runtime blank blank exposed₁ = filledEntries runtime blank blank exposed →
    filledEntries runtime blank blank exposed₂ = filledEntries runtime blank blank exposed →
    runtime.objectRepr cls exposed₁ = runtime.objectRepr cls exposed₂
  | _ => True

def ReprsKeepItems : List Payload → Prop
  | [] => True
  | item :: items => ReprsKeep item ∧ ReprsKeepItems items

def ReprsKeepEntries : Entries → Prop
  | [] => True
  | (key, value) :: entries =>
    (isSensitiveKey runtime key = false → ReprsKeep value) ∧ ReprsKeepEntries entries

end

end Masking

section Filling

variable {runtime : Runtime}

mutual

/-- Filling a second time forgets the first. -/
@[simp] theorem filled_filled (outer inner outer' inner' : Payload) : ∀ payload,
    filled runtime outer' inner' (filled runtime outer inner payload) =
      filled runtime outer' inner' payload
  | .scalar _ => rfl
  | .other _ => rfl
  | .dict entries => congrArg Payload.dict (filledEntries_filled outer inner outer' inner' entries)
  | .list items => congrArg Payload.list (filledItems_filled outer inner outer' inner' items)
  | .tuple items => congrArg Payload.tuple (filledItems_filled outer inner outer' inner' items)
  | .object cls exposed =>
    congrArg (Payload.object cls) (filledEntries_filled inner inner inner' inner' exposed)

theorem filledItems_filled (outer inner outer' inner' : Payload) : ∀ items,
    filledItems runtime outer' inner' (filledItems runtime outer inner items) =
      filledItems runtime outer' inner' items
  | [] => rfl
  | item :: items => congrArg₂ List.cons (filled_filled outer inner outer' inner' item)
    (filledItems_filled outer inner outer' inner' items)

theorem filledEntries_filled (outer inner outer' inner' : Payload) : ∀ entries,
    filledEntries runtime outer' inner' (filledEntries runtime outer inner entries) =
      filledEntries runtime outer' inner' entries
  | [] => rfl
  | (key, value) :: entries => by
    have hentries := filledEntries_filled outer inner outer' inner' entries
    have hvalue := filled_filled outer inner outer' inner' value
    cases hkey : isSensitiveKey runtime key <;> simp [filledEntries, hkey, hentries, hvalue]

end

mutual

/-- A payload is masked as it is when filled with stars, but for what objects expose. -/
theorem maskSensitive_filled (outer inner : Payload) : ∀ payload,
    maskSensitive runtime (filled runtime outer inner payload) =
      filled runtime stars inner payload
  | .scalar _ => rfl
  | .other _ => rfl
  | .dict entries => congrArg Payload.dict (maskEntries_filled outer inner entries)
  | .list items => congrArg Payload.list (maskItems_filled outer inner items)
  | .tuple items => congrArg Payload.tuple (maskItems_filled outer inner items)
  | .object _ _ => rfl

theorem maskItems_filled (outer inner : Payload) : ∀ items,
    maskItems runtime (filledItems runtime outer inner items) =
      filledItems runtime stars inner items
  | [] => rfl
  | item :: items => congrArg₂ List.cons (maskSensitive_filled outer inner item)
    (maskItems_filled outer inner items)

theorem maskEntries_filled (outer inner : Payload) : ∀ entries,
    maskEntries runtime (filledEntries runtime outer inner entries) =
      filledEntries runtime stars inner entries
  | [] => rfl
  | (key, value) :: entries => by
    have hentries := maskEntries_filled outer inner entries
    have hvalue := maskSensitive_filled outer inner value
    cases hkey : isSensitiveKey runtime key <;>
      simp [filledEntries, maskEntries, hkey, hentries, hvalue]

end

mutual

/-- A masked payload is like the payload. -/
theorem filled_maskSensitive (outer inner : Payload) : ∀ payload,
    filled runtime outer inner (maskSensitive runtime payload) =
      filled runtime outer inner payload
  | .scalar _ => rfl
  | .other _ => rfl
  | .dict entries => congrArg Payload.dict (filledEntries_maskEntries outer inner entries)
  | .list items => congrArg Payload.list (filledItems_maskItems outer inner items)
  | .tuple items => congrArg Payload.tuple (filledItems_maskItems outer inner items)
  | .object _ _ => rfl

theorem filledItems_maskItems (outer inner : Payload) : ∀ items,
    filledItems runtime outer inner (maskItems runtime items) =
      filledItems runtime outer inner items
  | [] => rfl
  | item :: items => congrArg₂ List.cons (filled_maskSensitive outer inner item)
    (filledItems_maskItems outer inner items)

theorem filledEntries_maskEntries (outer inner : Payload) : ∀ entries,
    filledEntries runtime outer inner (maskEntries runtime entries) =
      filledEntries runtime outer inner entries
  | [] => rfl
  | (key, value) :: entries => by
    have hentries := filledEntries_maskEntries outer inner entries
    have hvalue := filled_maskSensitive outer inner value
    cases hkey : isSensitiveKey runtime key <;>
      simp [filledEntries, maskEntries, hkey, hentries, hvalue]

end

mutual

/-- How many sensitive values there are does not depend on them. -/
theorem sensitive_filled (m n : ℕ) (outer inner : Payload) : ∀ payload,
    sensitive runtime m n (filled runtime outer inner payload) = sensitive runtime m n payload
  | .scalar _ => rfl
  | .other _ => rfl
  | .dict entries => sensitiveEntries_filled m n outer inner entries
  | .list items => sensitiveItems_filled m n outer inner items
  | .tuple items => sensitiveItems_filled m n outer inner items
  | .object _ exposed => sensitiveEntries_filled n n inner inner exposed

theorem sensitiveItems_filled (m n : ℕ) (outer inner : Payload) : ∀ items,
    sensitiveItems runtime m n (filledItems runtime outer inner items) =
      sensitiveItems runtime m n items
  | [] => rfl
  | item :: items => congrArg₂ (· + ·) (sensitive_filled m n outer inner item)
    (sensitiveItems_filled m n outer inner items)

theorem sensitiveEntries_filled (m n : ℕ) (outer inner : Payload) : ∀ entries,
    sensitiveEntries runtime m n (filledEntries runtime outer inner entries) =
      sensitiveEntries runtime m n entries
  | [] => rfl
  | (key, value) :: entries => by
    have hentries := sensitiveEntries_filled m n outer inner entries
    have hvalue := sensitive_filled m n outer inner value
    cases hkey : isSensitiveKey runtime key <;>
      simp [filledEntries, sensitiveEntries, hkey, hentries, hvalue]

end

mutual

/-- Counting twice is counting with both weights. -/
theorem sensitive_add (m n m' n' : ℕ) : ∀ payload,
    sensitive runtime (m + m') (n + n') payload =
      sensitive runtime m n payload + sensitive runtime m' n' payload
  | .scalar _ => rfl
  | .other _ => rfl
  | .dict entries => sensitiveEntries_add m n m' n' entries
  | .list items => sensitiveItems_add m n m' n' items
  | .tuple items => sensitiveItems_add m n m' n' items
  | .object _ exposed => sensitiveEntries_add n n n' n' exposed

theorem sensitiveItems_add (m n m' n' : ℕ) : ∀ items,
    sensitiveItems runtime (m + m') (n + n') items =
      sensitiveItems runtime m n items + sensitiveItems runtime m' n' items
  | [] => rfl
  | item :: items => by
    simp only [sensitiveItems, sensitive_add m n m' n' item, sensitiveItems_add m n m' n' items]
    omega

theorem sensitiveEntries_add (m n m' n' : ℕ) : ∀ entries,
    sensitiveEntries runtime (m + m') (n + n') entries =
      sensitiveEntries runtime m n entries + sensitiveEntries runtime m' n' entries
  | [] => rfl
  | (key, value) :: entries => by
    simp only [sensitiveEntries, sensitive_add m n m' n' value,
      sensitiveEntries_add m n m' n' entries]
    split <;> omega

end

mutual

/-- What is hidden does not make the encoder raise. -/
theorem raises_filled (outer inner : Payload) : ∀ payload,
    raises runtime (filled runtime outer inner payload) = raises runtime payload
  | .scalar _ => rfl
  | .other _ => rfl
  | .dict entries => raisesEntries_filled outer inner entries
  | .list items => raisesItems_filled outer inner items
  | .tuple items => raisesItems_filled outer inner items
  | .object _ exposed => raisesEntries_filled inner inner exposed

theorem raisesItems_filled (outer inner : Payload) : ∀ items,
    raisesItems runtime (filledItems runtime outer inner items) = raisesItems runtime items
  | [] => rfl
  | item :: items => congrArg₂ (· || ·) (raises_filled outer inner item)
    (raisesItems_filled outer inner items)

theorem raisesEntries_filled (outer inner : Payload) : ∀ entries,
    raisesEntries runtime (filledEntries runtime outer inner entries) =
      raisesEntries runtime entries
  | [] => rfl
  | (key, value) :: entries => by
    have hentries := raisesEntries_filled outer inner entries
    have hvalue := raises_filled outer inner value
    cases hkey : isSensitiveKey runtime key <;>
      simp [filledEntries, raisesEntries, hkey, hentries, hvalue]

end

mutual

/-- Whether the objects keep their `repr` does not depend on the sensitive values. -/
theorem reprsKeep_filled (outer inner : Payload) : ∀ payload,
    ReprsKeep runtime (filled runtime outer inner payload) ↔ ReprsKeep runtime payload
  | .scalar _ => Iff.rfl
  | .other _ => Iff.rfl
  | .dict entries => reprsKeepEntries_filled outer inner entries
  | .list items => reprsKeepItems_filled outer inner items
  | .tuple items => reprsKeepItems_filled outer inner items
  | .object cls exposed => by
    simp only [filled, ReprsKeep, filledEntries_filled]

theorem reprsKeepItems_filled (outer inner : Payload) : ∀ items,
    ReprsKeepItems runtime (filledItems runtime outer inner items) ↔
      ReprsKeepItems runtime items
  | [] => Iff.rfl
  | item :: items => and_congr (reprsKeep_filled outer inner item)
    (reprsKeepItems_filled outer inner items)

theorem reprsKeepEntries_filled (outer inner : Payload) : ∀ entries,
    ReprsKeepEntries runtime (filledEntries runtime outer inner entries) ↔
      ReprsKeepEntries runtime entries
  | [] => Iff.rfl
  | (key, value) :: entries => by
    have hentries := reprsKeepEntries_filled outer inner entries
    have hvalue := reprsKeep_filled outer inner value
    cases hkey : isSensitiveKey runtime key <;>
      simp [filledEntries, ReprsKeepEntries, hkey, hentries, hvalue]

end

mutual

/-- Without sensitive values there is nothing to fill. -/
theorem filled_eq_self (outer inner : Payload) : ∀ payload, sensitive runtime 1 1 payload = 0 →
    filled runtime outer inner payload = payload
  | .scalar _, _ => rfl
  | .other _, _ => rfl
  | .dict entries, h => congrArg Payload.dict (filledEntries_eq_self outer inner entries h)
  | .list items, h => congrArg Payload.list (filledItems_eq_self outer inner items h)
  | .tuple items, h => congrArg Payload.tuple (filledItems_eq_self outer inner items h)
  | .object cls exposed, h =>
    congrArg (Payload.object cls) (filledEntries_eq_self inner inner exposed h)

theorem filledItems_eq_self (outer inner : Payload) : ∀ items,
    sensitiveItems runtime 1 1 items = 0 → filledItems runtime outer inner items = items
  | [], _ => rfl
  | item :: items, h => by
    obtain ⟨hitem, hitems⟩ := Nat.add_eq_zero_iff.mp h
    exact congrArg₂ List.cons (filled_eq_self outer inner item hitem)
      (filledItems_eq_self outer inner items hitems)

theorem filledEntries_eq_self (outer inner : Payload) : ∀ entries,
    sensitiveEntries runtime 1 1 entries = 0 → filledEntries runtime outer inner entries = entries
  | [], _ => rfl
  | (key, value) :: entries, h => by
    obtain ⟨hvalue, hentries⟩ := Nat.add_eq_zero_iff.mp h
    cases hkey : isSensitiveKey runtime key with
    | true => simp [hkey] at hvalue
    | false =>
      rw [hkey] at hvalue
      simp [filledEntries, hkey, filled_eq_self outer inner value hvalue,
        filledEntries_eq_self outer inner entries hentries]

end

mutual

/-- What masking gives when no object exposes a sensitive value. -/
theorem filled_stars_eq_maskSensitive (inner : Payload) : ∀ payload,
    exposures runtime payload = 0 →
    filled runtime stars inner payload = maskSensitive runtime payload
  | .scalar _, _ => rfl
  | .other _, _ => rfl
  | .dict entries, h => congrArg Payload.dict (filledEntries_stars_eq inner entries h)
  | .list items, h => congrArg Payload.list (filledItems_stars_eq inner items h)
  | .tuple items, h => congrArg Payload.tuple (filledItems_stars_eq inner items h)
  | .object cls exposed, h =>
    congrArg (Payload.object cls) (filledEntries_eq_self inner inner exposed h)

theorem filledItems_stars_eq (inner : Payload) : ∀ items, sensitiveItems runtime 0 1 items = 0 →
    filledItems runtime stars inner items = maskItems runtime items
  | [], _ => rfl
  | item :: items, h => by
    obtain ⟨hitem, hitems⟩ := Nat.add_eq_zero_iff.mp h
    exact congrArg₂ List.cons (filled_stars_eq_maskSensitive inner item hitem)
      (filledItems_stars_eq inner items hitems)

theorem filledEntries_stars_eq (inner : Payload) : ∀ entries,
    sensitiveEntries runtime 0 1 entries = 0 →
    filledEntries runtime stars inner entries = maskEntries runtime entries
  | [], _ => rfl
  | (key, value) :: entries, h => by
    obtain ⟨hvalue, hentries⟩ := Nat.add_eq_zero_iff.mp h
    have hrest := filledEntries_stars_eq inner entries hentries
    cases hkey : isSensitiveKey runtime key with
    | true => simp [filledEntries, maskEntries, hkey, hrest]
    | false =>
      rw [hkey] at hvalue
      simp [filledEntries, maskEntries, hkey, hrest,
        filled_stars_eq_maskSensitive inner value hvalue]

end

variable {payload payload' : Payload}

/-- Filling gives a payload that is alike. -/
theorem alike_filled (outer inner : Payload) (payload : Payload) :
    Alike runtime payload (filled runtime outer inner payload) :=
  (filled_filled outer inner blank blank payload).symm

theorem raises_of_alike (h : Alike runtime payload payload') :
    raises runtime payload' = raises runtime payload := by
  rw [← raises_filled blank blank payload', ← h, raises_filled]

theorem exposures_of_alike (h : Alike runtime payload payload') :
    exposures runtime payload' = exposures runtime payload := by
  unfold exposures
  rw [← sensitive_filled 0 1 blank blank payload', ← h, sensitive_filled]

theorem reprsKeep_of_alike (h : Alike runtime payload payload') :
    ReprsKeep runtime payload' ↔ ReprsKeep runtime payload := by
  rw [← reprsKeep_filled blank blank, ← h, reprsKeep_filled]

/-- Without exposures, payloads that are alike are masked alike. -/
theorem maskSensitive_of_alike (h : Alike runtime payload payload')
    (hexposures : exposures runtime payload = 0) :
    maskSensitive runtime payload' = maskSensitive runtime payload := by
  have hexposures' := (exposures_of_alike h).trans hexposures
  rw [← filled_stars_eq_maskSensitive blank payload' hexposures',
    ← filled_stars_eq_maskSensitive blank payload hexposures,
    ← maskSensitive_filled blank blank payload', ← h, maskSensitive_filled]

end Filling

end FunasrApi.Logging
