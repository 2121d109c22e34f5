import FunasrApi.Logging.Filling

/-!
# What masking hides

Masking does not reach what objects expose, which the encoder writes as it is. So the log
hides everything under sensitive keys exactly if no object exposes such a value, or if the
payload cannot be encoded and is shown as its `repr`, to which the objects give nothing away.
-/

namespace FunasrApi.Logging

open FunasrApi.Core Text

section Encoding

variable {runtime : Runtime}

mutual

/-- The encoder raises at a key that JSON does not have. -/
theorem dumps_eq_none : ∀ payload, raises runtime payload = true → dumps payload = none
  | .dict entries, h => by rw [dumps, dumpsEntries_eq_none entries h]; rfl
  | .list items, h => by rw [dumps, dumpsItems_eq_none items h]; rfl
  | .tuple items, h => by rw [dumps, dumpsItems_eq_none items h]; rfl
  | .object _ exposed, h => by rw [dumps, dumpsEntries_eq_none exposed h]; rfl

theorem dumpsItems_eq_none : ∀ items, raisesItems runtime items = true → dumpsItems items = none
  | item :: items, h => by
    obtain hitem | hitems := Bool.or_eq_true_iff.mp h
    · simp [dumpsItems, dumps_eq_none item hitem]
    · simp [dumpsItems, dumpsItems_eq_none items hitems]

theorem dumpsEntries_eq_none : ∀ entries, raisesEntries runtime entries = true →
    dumpsEntries entries = none
  | (key, value) :: entries, h => by
    obtain h | hentries := Bool.or_eq_true_iff.mp h
    · obtain hkey | hvalue := Bool.or_eq_true_iff.mp h
      · simp [dumpsEntries, Option.isNone_iff_eq_none.mp hkey]
      · simp [dumpsEntries, dumps_eq_none value (Bool.and_eq_true_iff.mp hvalue).2]
    · simp [dumpsEntries, dumpsEntries_eq_none entries hentries]

end

/-- A text that depends on two others is as much longer as `weight` says of their lengths. -/
def Weighs (text : Text → Text → Option Text) (weight : ℕ → ℕ → ℕ) : Prop :=
  ∃ base, ∀ outer inner, ∃ t, text outer inner = some t ∧
    t.length = base + weight (Scalar.jsonText outer).length (Scalar.jsonText inner).length

/-- So are parts, of which there are always as many. -/
def PartsWeigh (parts : Text → Text → Option (List Text)) (weight : ℕ → ℕ → ℕ) : Prop :=
  ∃ base count, ∀ outer inner, ∃ texts, parts outer inner = some texts ∧ texts.length = count ∧
    texts.flatten.length =
      base + weight (Scalar.jsonText outer).length (Scalar.jsonText inner).length

theorem PartsWeigh.enclosed {parts : Text → Text → Option (List Text)} {weight : ℕ → ℕ → ℕ}
    (h : PartsWeigh parts weight) (left right : Char) :
    Weighs (fun outer inner => (parts outer inner).map (enclosed left right)) weight := by
  obtain ⟨base, count, h⟩ := h
  refine ⟨base + 2 * (count - 1) + 2, fun outer inner => ?_⟩
  obtain ⟨texts, htexts, hcount, hlength⟩ := h outer inner
  refine ⟨Logging.enclosed left right texts, by simp [htexts], ?_⟩
  simp only [Logging.enclosed, List.length_append, List.length_cons, List.length_nil,
    length_commaJoin, hcount, hlength]
  omega

theorem PartsWeigh.cons {part : Text → Text → Option Text}
    {parts : Text → Text → Option (List Text)} {weight weights : ℕ → ℕ → ℕ}
    (hparts : PartsWeigh parts weights) (hpart : Weighs part weight) :
    PartsWeigh (fun outer inner => do return (← part outer inner) :: (← parts outer inner))
      (fun m n => weight m n + weights m n) := by
  obtain ⟨base, hpart⟩ := hpart
  obtain ⟨bases, count, hparts⟩ := hparts
  refine ⟨base + bases, count + 1, fun outer inner => ?_⟩
  obtain ⟨t, ht, hlength⟩ := hpart outer inner
  obtain ⟨texts, htexts, hcount, hlengths⟩ := hparts outer inner
  refine ⟨t :: texts, by simp [ht, htexts], by simp [hcount], ?_⟩
  rw [List.flatten_cons, List.length_append, hlength, hlengths]
  exact Nat.add_add_add_comm _ _ _ _

theorem Weighs.after {text : Text → Text → Option Text} {weight : ℕ → ℕ → ℕ}
    (h : Weighs text weight) (front : Text) :
    Weighs (fun outer inner => (text outer inner).map (front ++ ·)) weight := by
  obtain ⟨base, h⟩ := h
  refine ⟨front.length + base, fun outer inner => ?_⟩
  obtain ⟨t, ht, hlength⟩ := h outer inner
  refine ⟨front ++ t, by simp [ht], ?_⟩
  rw [List.length_append, hlength]
  omega

/-- A text as a payload. -/
def ofText (t : Text) : Payload := .scalar (.str t)

mutual

/-- What is written for a payload is longer by what is written for its sensitive values. -/
theorem dumps_filled_weighs : ∀ payload, raises runtime payload = false →
    Weighs (fun outer inner => dumps (filled runtime (ofText outer) (ofText inner) payload))
      (fun m n => sensitive runtime m n payload)
  | .scalar s, _ => ⟨s.json.length, fun _ _ => ⟨s.json, rfl, rfl⟩⟩
  | .other repr, _ =>
    ⟨(Scalar.jsonText repr).length, fun _ _ => ⟨Scalar.jsonText repr, rfl, rfl⟩⟩
  | .dict entries, h => (dumpsEntries_filled_weigh entries h).enclosed '{' '}'
  | .list items, h => (dumpsItems_filled_weigh items h).enclosed '[' ']'
  | .tuple items, h => (dumpsItems_filled_weigh items h).enclosed '[' ']'
  | .object _ exposed, h => by
    -- In what an object exposes, both values are the inner one.
    obtain ⟨base, hbase⟩ := (dumpsEntries_filled_weigh exposed h).enclosed '{' '}'
    exact ⟨base, fun _ inner => hbase inner inner⟩

theorem dumpsItems_filled_weigh : ∀ items, raisesItems runtime items = false →
    PartsWeigh (fun outer inner =>
        dumpsItems (filledItems runtime (ofText outer) (ofText inner) items))
      (fun m n => sensitiveItems runtime m n items)
  | [], _ => ⟨0, 0, fun _ _ => ⟨[], rfl, rfl, rfl⟩⟩
  | item :: items, h => by
    obtain ⟨hitem, hitems⟩ := Bool.or_eq_false_iff.mp h
    exact (dumpsItems_filled_weigh items hitems).cons (dumps_filled_weighs item hitem)

theorem dumpsEntries_filled_weigh : ∀ entries, raisesEntries runtime entries = false →
    PartsWeigh (fun outer inner =>
        dumpsEntries (filledEntries runtime (ofText outer) (ofText inner) entries))
      (fun m n => sensitiveEntries runtime m n entries)
  | [], _ => ⟨0, 0, fun _ _ => ⟨[], rfl, rfl, rfl⟩⟩
  | (key, value) :: entries, h => by
    obtain ⟨h, hentries⟩ := Bool.or_eq_false_iff.mp h
    obtain ⟨hjson, hvalue⟩ := Bool.or_eq_false_iff.mp h
    obtain ⟨text, htext⟩ := Option.isSome_iff_exists.mp (Option.isNone_eq_false_iff.mp hjson)
    have hpart : Weighs
        (fun outer inner => dumps (if isSensitiveKey runtime key then ofText outer
          else filled runtime (ofText outer) (ofText inner) value))
        (fun m n => if isSensitiveKey runtime key then m else sensitive runtime m n value) := by
      cases hkey : isSensitiveKey runtime key with
      | true => exact ⟨0, fun outer _ => ⟨Scalar.jsonText outer, rfl, (Nat.zero_add _).symm⟩⟩
      | false => exact dumps_filled_weighs value (by simpa [hkey] using hvalue)
    have hparts := (dumpsEntries_filled_weigh entries hentries).cons
      (hpart.after (text ++ ": ".toList))
    simpa [filledEntries, dumpsEntries, htext, sensitiveEntries, Option.bind_map,
      Function.comp_def] using hparts

end

end Encoding

section Showing

variable {runtime : Runtime}

mutual

/-- Where the objects keep their `repr`, a payload keeps its own. -/
theorem shown_filled : ∀ payload, ReprsKeep runtime payload →
    shown runtime (filled runtime stars blank payload) =
      shown runtime (maskSensitive runtime payload)
  | .scalar _, _ => rfl
  | .other _, _ => rfl
  | .dict entries, h => congrArg (enclosed '{' '}') (shownEntries_filled entries h)
  | .list items, h => congrArg (enclosed '[' ']') (shownItems_filled items h)
  | .tuple items, h => congrArg tupleText (shownItems_filled items h)
  | .object _ exposed, h => h _ _ (filledEntries_filled blank blank blank blank exposed) rfl

theorem shownItems_filled : ∀ items, ReprsKeepItems runtime items →
    shownItems runtime (filledItems runtime stars blank items) =
      shownItems runtime (maskItems runtime items)
  | [], _ => rfl
  | item :: items, h => congrArg₂ List.cons (shown_filled item h.1) (shownItems_filled items h.2)

theorem shownEntries_filled : ∀ entries, ReprsKeepEntries runtime entries →
    shownEntries runtime (filledEntries runtime stars blank entries) =
      shownEntries runtime (maskEntries runtime entries)
  | [], _ => rfl
  | (key, value) :: entries, h => by
    have hentries := shownEntries_filled entries h.2
    cases hkey : isSensitiveKey runtime key with
    | true => simp [filledEntries, maskEntries, shownEntries, hkey, hentries]
    | false =>
      have hvalue := shown_filled value (h.1 hkey)
      simp [filledEntries, maskEntries, shownEntries, hkey, hentries, hvalue]

end

/-- Texts between the same brackets are the same. -/
theorem commaJoin_eq_of_enclosed {left right : Char} {parts parts' : List Text}
    (h : enclosed left right parts = enclosed left right parts') :
    commaJoin parts = commaJoin parts' := by
  simpa [enclosed] using h

/-- So are those of tuples with as many items. -/
theorem commaJoin_eq_of_tupleText {parts parts' : List Text}
    (hlength : parts.length = parts'.length) (h : tupleText parts = tupleText parts') :
    commaJoin parts = commaJoin parts' := by
  simpa [tupleText, hlength] using h

theorem length_shownItems_maskItems (items : List Payload) :
    (shownItems runtime (maskItems runtime items)).length = items.length := by
  induction items with
  | nil => rfl
  | cons item items ih => simpa [maskItems, shownItems] using ih

theorem length_filledItems (outer inner : Payload) (items : List Payload) :
    (filledItems runtime outer inner items).length = items.length := by
  induction items with
  | nil => rfl
  | cons item items ih => simpa [filledItems] using ih

/-- Lists that are alike are shown with as many parts. -/
theorem length_shownItems_of_filled {items items' : List Payload}
    (h : filledItems runtime blank blank items = filledItems runtime blank blank items') :
    (shownItems runtime (maskItems runtime items')).length =
      (shownItems runtime (maskItems runtime items)).length := by
  have hlength := congrArg List.length h
  rw [length_filledItems, length_filledItems] at hlength
  rw [length_shownItems_maskItems, length_shownItems_maskItems, hlength]

mutual

/-- A payload that is shown the same whatever is under its sensitive keys has objects that keep
their `repr`. -/
theorem reprsKeep_of_shown : ∀ payload,
    (∀ payload', Alike runtime payload payload' →
      shown runtime (maskSensitive runtime payload') =
        shown runtime (maskSensitive runtime payload)) → ReprsKeep runtime payload
  | .scalar _, _ => trivial
  | .other _, _ => trivial
  | .dict entries, h => reprsKeepEntries_of_shown [] entries fun entries' halike =>
    commaJoin_eq_of_enclosed (h (.dict entries') (congrArg Payload.dict halike))
  | .list items, h => reprsKeepItems_of_shown [] items fun items' halike =>
    commaJoin_eq_of_enclosed (h (.list items') (congrArg Payload.list halike))
  | .tuple items, h => reprsKeepItems_of_shown [] items fun items' halike =>
    commaJoin_eq_of_tupleText (length_shownItems_of_filled halike)
      (h (.tuple items') (congrArg Payload.tuple halike))
  | .object cls _, h => fun exposed₁ exposed₂ h₁ h₂ =>
    (h (.object cls exposed₁) (congrArg (Payload.object cls) h₁.symm)).trans
      (h (.object cls exposed₂) (congrArg (Payload.object cls) h₂.symm)).symm

theorem reprsKeepItems_of_shown (before : List Text) : ∀ items,
    (∀ items', filledItems runtime blank blank items = filledItems runtime blank blank items' →
      commaJoin (before ++ shownItems runtime (maskItems runtime items')) =
        commaJoin (before ++ shownItems runtime (maskItems runtime items))) →
    ReprsKeepItems runtime items
  | [], _ => trivial
  | item :: items, h => by
    -- Only the first item is changed, and then only the others, behind what it shows.
    refine ⟨reprsKeep_of_shown item fun item' halike => commaJoin_inj
      (h (item' :: items) (congrArg₂ List.cons halike rfl)), ?_⟩
    refine reprsKeepItems_of_shown (before ++ [shown runtime (maskSensitive runtime item)]) items
      fun items' halike => ?_
    simpa [maskItems, shownItems] using h (item :: items') (congrArg₂ List.cons rfl halike)

theorem reprsKeepEntries_of_shown (before : List Text) : ∀ entries,
    (∀ entries', filledEntries runtime blank blank entries =
        filledEntries runtime blank blank entries' →
      commaJoin (before ++ shownEntries runtime (maskEntries runtime entries')) =
        commaJoin (before ++ shownEntries runtime (maskEntries runtime entries))) →
    ReprsKeepEntries runtime entries
  | [], _ => trivial
  | (key, value) :: entries, h => by
    refine ⟨fun hkey => reprsKeep_of_shown value fun value' halike => ?_, ?_⟩
    · have hpart := commaJoin_inj (h ((key, value') :: entries) (by
        simpa [filledEntries, hkey, Alike] using halike))
      simpa [hkey] using hpart
    · refine reprsKeepEntries_of_shown (before ++ [key.repr runtime ++ ": ".toList ++
        shown runtime (if isSensitiveKey runtime key then stars
          else maskSensitive runtime value)]) entries fun entries' halike => ?_
      simpa [maskEntries, shownEntries] using h ((key, value) :: entries')
        (congrArg₂ List.cons rfl halike)

end

end Showing

section Log

variable {runtime : Runtime} {payload payload' : Payload}

/-- Objects that keep their `repr` are shown alike. -/
theorem shown_of_alike (h : Alike runtime payload payload')
    (hkeep : ReprsKeep runtime payload) :
    shown runtime (maskSensitive runtime payload') =
      shown runtime (maskSensitive runtime payload) := by
  rw [← shown_filled payload' ((reprsKeep_of_alike h).mpr hkeep), ← shown_filled payload hkeep,
    ← maskSensitive_filled blank blank payload', ← h, maskSensitive_filled]

/-- What cannot be encoded is shown. -/
theorem jsonForLog_of_raises (h : raises runtime payload = true) :
    jsonForLog runtime payload = shown runtime (maskSensitive runtime payload) := by
  have hmasked : Alike runtime payload (maskSensitive runtime payload) :=
    (filled_maskSensitive blank blank payload).symm
  rw [jsonForLog, dumps_eq_none _ ((raises_of_alike hmasked).trans h), Option.getD_none]

/-- Texts of different lengths where objects expose a value give different logs. -/
theorem jsonForLog_filled_ne (h : raises runtime payload = false)
    (hexposures : exposures runtime payload ≠ 0) :
    jsonForLog runtime (filled runtime stars (ofText []) payload) ≠
      jsonForLog runtime (filled runtime stars (ofText ['x']) payload) := by
  obtain ⟨base, hbase⟩ := dumps_filled_weighs payload h
  obtain ⟨t, ht, hlength⟩ := hbase "***".toList []
  obtain ⟨t', ht', hlength'⟩ := hbase "***".toList ['x']
  have hlog : jsonForLog runtime (filled runtime stars (ofText []) payload) = t := by
    rw [jsonForLog, maskSensitive_filled]
    exact congrArg (Option.getD · _) ht
  have hlog' : jsonForLog runtime (filled runtime stars (ofText ['x']) payload) = t' := by
    rw [jsonForLog, maskSensitive_filled]
    exact congrArg (Option.getD · _) ht'
  rw [hlog, hlog']
  intro heq
  have hmore : sensitive runtime (Scalar.jsonText "***".toList).length 3 payload =
      sensitive runtime (Scalar.jsonText "***".toList).length 2 payload +
        exposures runtime payload := sensitive_add _ 2 0 1 payload
  have hnil : (Scalar.jsonText []).length = 2 := rfl
  have hx : (Scalar.jsonText ['x']).length = 3 := rfl
  rw [heq, hlength'] at hlength
  dsimp only at hlength
  rw [hnil, hx] at hlength
  omega

end Log

/-- The log of a payload hides what is under its sensitive keys exactly if no object exposes
such a value, or if the payload cannot be encoded and its objects keep their `repr`. -/
theorem jsonForLog_hides_iff (runtime : Runtime) (payload : Payload) :
    (∀ payload', Alike runtime payload payload' →
      jsonForLog runtime payload' = jsonForLog runtime payload) ↔
      exposures runtime payload = 0 ∨
        (raises runtime payload = true ∧ ReprsKeep runtime payload) := by
  constructor
  · intro h
    refine or_iff_not_imp_left.mpr fun hexposures => ?_
    have hraises : raises runtime payload = true := by
      -- An encoded payload is longer when an exposed value is.
      by_contra hnot
      exact jsonForLog_filled_ne (Bool.eq_false_iff.mpr hnot) hexposures
        ((h _ (alike_filled _ _ _)).trans (h _ (alike_filled _ _ _)).symm)
    refine ⟨hraises, reprsKeep_of_shown payload fun payload' halike => ?_⟩
    rw [← jsonForLog_of_raises hraises,
      ← jsonForLog_of_raises ((raises_of_alike halike).trans hraises)]
    exact h payload' halike
  · rintro (hexposures | ⟨hraises, hkeep⟩) payload' halike
    · unfold jsonForLog
      rw [maskSensitive_of_alike halike hexposures]
    · rw [jsonForLog_of_raises hraises,
        jsonForLog_of_raises ((raises_of_alike halike).trans hraises)]
      exact shown_of_alike halike hkeep

/-- A Python for ASCII texts, with objects of which only the class is shown. -/
def asciiRuntime : Runtime where
  lower t := t.map Char.toLower
  repr t := "'".toList ++ t ++ "'".toList
  objectRepr cls _ := '<' :: cls ++ " object>".toList

/-- A payload with an account, whose `to_dict()` gives its password. -/
def accountPayload (password : Text) : Payload :=
  .dict [(.scalar (.str "account".toList),
    .object "Account".toList [(.scalar (.str "password".toList), ofText password)])]

/-- The password of the account is in the log. -/
theorem accountPayload_logged :
    Alike asciiRuntime (accountPayload "secret".toList) (accountPayload "hidden".toList) ∧
      jsonForLog asciiRuntime (accountPayload "secret".toList) =
        "\x7b\"account\": \x7b\"password\": \"secret\"\x7d\x7d".toList ∧
      jsonForLog asciiRuntime (accountPayload "hidden".toList) ≠
        jsonForLog asciiRuntime (accountPayload "secret".toList) := by
  have hkey : isSensitiveKey asciiRuntime (.scalar (.str "password".toList)) = true := by
    decide +kernel
  refine ⟨?_, by decide +kernel, by decide +kernel⟩
  simp only [Alike, accountPayload, filled, filledEntries, hkey, if_true]

end FunasrApi.Logging
