import Recurrence.Frequency.Expression
import Recurrence.Proofs.FirstError
import Recurrence.Proofs.Frequency.Written

/-!
# The grammar of frequency expressions

Reading an expression takes two steps.  First it is **cut into pieces**: around its first slash, or else
at its commas and each item around the first dash after its first character.  Then the pieces are read
as values.  The first step fails on an expression that is blank or has a blank item, and the second one
on a piece that means no value.  Nothing else goes wrong, so the two relations here, from texts to parts
and from parts to descriptions, say of every text whether it is read, as what, and what is reported.

Pieces are read in the order of the text, except that **the step is read before the offset**.

## Main Definitions

* `FrequencySpec.MeansValue`, `IsValue`: the texts that mean a value
* `FrequencySpec.Parts`, `Parts.pieces`: what an expression is made of
* `FrequencySpec.HasParts`, `Malformed`: the texts that have parts, and those that have none
* `FrequencySpec.Means`: the description that parts stand for

## Main Statements

* `FrequencySpec.readValue_eq_ok`, `readValue_eq_error`: one value
* `FrequencySpec.Parts.read_eq_ok`, `Parts.read_eq_error`: the pieces of an expression
* `FrequencySpec.ofExpression_eq_iff`: what comes of an expression
-/

namespace Recurrence

open Text

namespace FrequencySpec

variable {table : Aliases} {expression : String} {n : Int} {s text item : List Char}
  {err : FrequencyError} {parts : Option (List Char)}

/-! ## Values -/

/-- The value that a text means, whatever blanks are around it: that of the first alias with its name,
or else the integer of the value range that it writes. -/
inductive MeansValue (table : Aliases) (s : List Char) : Int → Prop where
  | named {before after : Aliases} {name : String} {n : Int}
      (htable : table = before ++ (name, n) :: after)
      (hname : sameLetters name.toList (trim s) = true)
      (hfirst : ∀ entry ∈ before, sameLetters entry.1.toList (trim s) = false) : MeansValue table s n
  | literal {n : Int} (hnone : ∀ entry ∈ table, sameLetters entry.1.toList (trim s) = false)
      (hwrites : WritesLiteral n (trim s)) (hrange : InValueRange n) : MeansValue table s n

/-- The text means a value. -/
def IsValue (table : Aliases) (s : List Char) : Prop := ∃ n, MeansValue table s n

theorem value?_eq_none : table.value? s = none ↔
    ∀ entry ∈ table, sameLetters entry.1.toList s = false := by
  simp [Aliases.value?, List.find?_eq_none]

theorem value?_eq_some : table.value? s = some n ↔
    ∃ before name after, table = before ++ (name, n) :: after ∧
      sameLetters name.toList s = true ∧
        ∀ entry ∈ before, sameLetters entry.1.toList s = false := by
  rw [Aliases.value?, Option.map_eq_some_iff]
  constructor
  · rintro ⟨⟨name, n⟩, hfind, rfl⟩
    obtain ⟨hname, before, after, htable, hfirst⟩ := List.find?_eq_some_iff_append.1 hfind
    exact ⟨before, name, after, htable, hname, by simpa using hfirst⟩
  · rintro ⟨before, name, after, htable, hname, hfirst⟩
    exact ⟨(name, n), List.find?_eq_some_iff_append.2
      ⟨hname, before, after, htable, by simpa using hfirst⟩, rfl⟩

/-- A text means what it names, or else what it writes. -/
theorem or_value?_eq_some :
    (table.value? (trim s)).or (value? (trim s)) = some n ↔ MeansValue table s n := by
  rw [Option.or_eq_some_iff, value?_eq_some, value?_eq_none, value?_eq_some_iff]
  constructor
  · rintro (⟨before, name, after, htable, hname, hfirst⟩ | ⟨hnone, hwrites, hrange⟩)
    · exact .named htable hname hfirst
    · exact .literal hnone hwrites hrange
  · intro h
    cases h with
    | named htable hname hfirst => exact .inl ⟨_, _, _, htable, hname, hfirst⟩
    | literal hnone hwrites hrange => exact .inr ⟨hnone, hwrites, hrange⟩

/-- **A text is read as the value that it means.** -/
theorem readValue_eq_ok : readValue table expression s = .ok n ↔ MeansValue table s n := by
  rw [← or_value?_eq_some, readValue]
  cases (table.value? (trim s)).or (value? (trim s)) with
  | none => simp
  | some m => simp

/-- **A text that means no value is reported, without the blanks around it.** -/
theorem readValue_eq_error : readValue table expression s = .error err ↔
    ¬ IsValue table s ∧ err = .invalidValue (String.ofList (trim s)) expression := by
  have hvalue : IsValue table s ↔ ∃ n, (table.value? (trim s)).or (value? (trim s)) = some n :=
    exists_congr fun n => or_value?_eq_some.symm
  rw [hvalue, readValue]
  cases (table.value? (trim s)).or (value? (trim s)) with
  | none => simp [eq_comm]
  | some m => simp

/-! ## Parts -/

/-- The texts of the values in an expression.  A step may count from a star, and an item of a list may
have one bound or two. -/
inductive Parts where
  | star
  | stepped (offset : Option (List Char)) (step : List Char)
  | listed (items : List (List Char × Option (List Char)))

/-- The texts of the values, in the order in which they are read. -/
def Parts.pieces : Parts → List (List Char)
  | .star => []
  | .stepped offset step => step :: offset.toList
  | .listed items => items.flatMap fun item => item.1 :: item.2.toList

/-- An item is one value if it has no dash after its first character, and else two values around the
first such dash. -/
inductive CutsItem : List Char → List Char × Option (List Char) → Prop where
  | value {item : List Char} (hdash : '-' ∉ item.tail) : CutsItem item (item, none)
  | range {c : Char} {low high : List Char} (hdash : '-' ∉ low) :
      CutsItem (c :: low ++ '-' :: high) (c :: low, some high)

/-- What a text is made of: a star alone, an offset and a step around the first slash, or without any
slash the items between commas, none of them blank. -/
inductive HasParts : List Char → Parts → Prop where
  | star : HasParts ['*'] .star
  | starStepped {offset step : List Char} (hslash : '/' ∉ offset) (hstar : trim offset = ['*']) :
      HasParts (offset ++ '/' :: step) (.stepped none step)
  | stepped {offset step : List Char} (hslash : '/' ∉ offset) (hstar : trim offset ≠ ['*']) :
      HasParts (offset ++ '/' :: step) (.stepped (some offset) step)
  | listed {texts : List (List Char)} {items : List (List Char × Option (List Char))}
      (hstar : joinWith [','] texts ≠ ['*']) (hslash : '/' ∉ joinWith [','] texts)
      (hne : texts ≠ []) (hcomma : ∀ text ∈ texts, ',' ∉ text)
      (hfilled : ∀ text ∈ texts, ¬ AllBlank text)
      (hitems : List.Forall₂ (fun text item => CutsItem (trim text) item) texts items) :
      HasParts (joinWith [','] texts) (.listed items)

/-- The text is empty, or it has no slash and one of the items between its commas is blank. -/
def Malformed (text : List Char) : Prop :=
  text = [] ∨ '/' ∉ text ∧ ∃ texts, texts ≠ [] ∧ (∀ item ∈ texts, ',' ∉ item) ∧
    text = joinWith [','] texts ∧ ∃ item ∈ texts, AllBlank item

theorem exists_cutsItem (item : List Char) : ∃ bounds, CutsItem item bounds := by
  by_cases hdash : '-' ∈ item.tail
  · cases item with
    | nil => cases hdash
    | cons c rest =>
        obtain ⟨⟨low, high⟩, hcut⟩ := Option.ne_none_iff_exists'.1 (mt cut?_eq_none.1 (not_not.2 hdash))
        obtain ⟨hrest, hlow⟩ := cut?_eq_some hcut
        rw [show rest = low ++ '-' :: high from hrest]
        exact ⟨_, .range hlow⟩
  · exact ⟨_, .value hdash⟩

/-- **Every text has parts unless it is malformed.** -/
theorem malformed_or_hasParts (text : List Char) : Malformed text ∨ ∃ parts, HasParts text parts := by
  by_cases hnil : text = []
  · exact .inl (.inl hnil)
  by_cases hstar : text = ['*']
  · exact .inr ⟨.star, hstar ▸ .star⟩
  cases hcut : cut? '/' text with
  | some around =>
      obtain ⟨offset, step⟩ := around
      obtain ⟨rfl, hslash⟩ := cut?_eq_some hcut
      by_cases hoffset : trim offset = ['*']
      · exact .inr ⟨_, .starStepped hslash hoffset⟩
      · exact .inr ⟨_, .stepped hslash hoffset⟩
  | none =>
      have hslash := cut?_eq_none.1 hcut
      obtain ⟨hjoin, hcomma⟩ := joinWith_splitAll ',' text
      have hne := splitAll_ne_nil ',' text
      by_cases hblank : ∃ item ∈ splitAll ',' text, AllBlank item
      · exact .inl (.inr ⟨hslash, _, hne, hcomma, hjoin.symm, hblank⟩)
      · push Not at hblank
        obtain ⟨items, hitems⟩ := exists_forall₂ (l := splitAll ',' text)
          fun text _ => exists_cutsItem (trim text)
        refine .inr ⟨.listed items, ?_⟩
        rw [← hjoin] at hstar hslash ⊢
        exact .listed hstar hslash hne hcomma hblank hitems

/-! ## Reading the pieces -/

/-- The values of an item, read one after the other. -/
def readBounds (table : Aliases) (expression : String) (item : List Char × Option (List Char)) :
    Except FrequencyError (Int × Option Int) :=
  match item with
  | (text, none) => do
    let value ← readValue table expression text
    return (value, none)
  | (low, some high) => do
    let low ← readValue table expression low
    let high ← readValue table expression high
    return (low, some high)

/-- The description that parts stand for, their pieces being read in turn. -/
def Parts.read (table : Aliases) (expression : String) : Parts → Except FrequencyError FrequencySpec
  | .star => .ok .always
  | .stepped none count => do
    let count ← readValue table expression count
    return .every count 0
  | .stepped (some offset) count => do
    let count ← readValue table expression count
    let offset ← readValue table expression offset
    return .every count offset
  | .listed items => do
    let items ← items.mapM (readBounds table expression)
    return ofItems items

/-- An item is read as the values that it is cut into. -/
theorem readItem_of_cutsItem {bounds : List Char × Option (List Char)} (h : CutsItem item bounds) :
    readItem table expression item = readBounds table expression bounds := by
  cases h with
  | value hdash =>
      have hcut : splitRange? item = none := by
        cases item with
        | nil => rfl
        | cons c rest =>
            have hrest : cut? '-' rest = none := cut?_eq_none.2 hdash
            rw [splitRange?, hrest]
            rfl
      rw [readItem, hcut]
      rfl
  | @range c low high hdash =>
      have hcut : splitRange? (c :: low ++ '-' :: high) = some (c :: low, high) := by
        rw [List.cons_append, splitRange?, cut?_append_cons hdash]
        rfl
      rw [readItem, hcut]
      rfl

theorem mapM_readItem_of_cutsItem {texts : List (List Char)}
    {items : List (List Char × Option (List Char))}
    (h : List.Forall₂ (fun text item => CutsItem (trim text) item) texts items) :
    (texts.map trim).mapM (readItem table expression) = items.mapM (readBounds table expression) := by
  induction h with
  | nil => rfl
  | cons hcut _ ih => rw [List.map_cons, List.mapM_cons, List.mapM_cons, readItem_of_cutsItem hcut, ih]

theorem append_slash_ne_star (offset step : List Char) : offset ++ '/' :: step ≠ ['*'] := by
  intro h
  have hmem : '/' ∈ ['*'] := h ▸ List.mem_append_right offset List.mem_cons_self
  exact absurd hmem (by decide)

/-- **A text that has parts is read piece by piece.** -/
theorem ofExpression_of_hasParts {parts : Parts} (h : HasParts (trim expression.toList) parts) :
    ofExpression table expression = parts.read table expression := by
  unfold ofExpression
  generalize trim expression.toList = text at h ⊢
  cases h with
  | star => rfl
  | @starStepped offset step hslash hstar =>
      simp only [if_neg (List.append_ne_nil_of_right_ne_nil offset (List.cons_ne_nil '/' step)),
        if_neg (append_slash_ne_star offset step), cut?_append_cons hslash, readOffset, if_pos hstar]
      rfl
  | @stepped offset step hslash hstar =>
      simp only [if_neg (List.append_ne_nil_of_right_ne_nil offset (List.cons_ne_nil '/' step)),
        if_neg (append_slash_ne_star offset step), cut?_append_cons hslash, readOffset, if_neg hstar]
      rfl
  | @listed texts items hstar hslash hne hcomma hfilled hitems =>
      have hparts := map_trim_splitAll (by decide) hne hcomma (padded_refl _)
      have hnil : joinWith [','] texts ≠ [] := by
        intro hnil
        obtain ⟨text, htext⟩ := List.exists_mem_of_ne_nil _ hne
        refine hfilled text htext fun c hc => ?_
        have hmem := mem_joinWith_of_mem [','] htext hc
        rw [hnil] at hmem
        cases hmem
      have hany : ¬ (texts.map trim).any List.isEmpty = true := by
        rw [List.any_eq_true]
        rintro ⟨_, hmem, hempty⟩
        obtain ⟨text, htext, rfl⟩ := List.mem_map.1 hmem
        exact hfilled text htext (trim_eq_nil_iff.1 (List.isEmpty_iff.1 hempty))
      simp only [if_neg hnil, if_neg hstar, cut?_eq_none.2 hslash, hparts, if_neg hany,
        mapM_readItem_of_cutsItem hitems]
      rfl

/-- **A malformed text is reported as a whole.** -/
theorem ofExpression_of_malformed (h : Malformed (trim expression.toList)) :
    ofExpression table expression = .error (.invalidExpression expression) := by
  unfold ofExpression
  generalize trim expression.toList = text at h ⊢
  by_cases hnil : text = []
  · exact if_pos hnil
  · obtain ⟨hslash, texts, hne, hcomma, rfl, item, hitem, hblank⟩ := h.resolve_left hnil
    have hparts := map_trim_splitAll (by decide) hne hcomma (padded_refl _)
    have hmem : [] ∈ texts.map trim := trim_eq_nil_iff.2 hblank ▸ List.mem_map_of_mem hitem
    have hany : (texts.map trim).any List.isEmpty = true := List.any_eq_true.2 ⟨[], hmem, rfl⟩
    have hstar : joinWith [','] texts ≠ ['*'] := by
      intro hstar
      rw [← hparts, hstar] at hmem
      exact absurd hmem (by decide)
    simp only [if_neg hnil, if_neg hstar, cut?_eq_none.2 hslash, hparts, if_pos hany]

/-! ## What the pieces mean -/

/-- The values that an item means. -/
inductive MeansItem (table : Aliases) :
    List Char × Option (List Char) → Int × Option Int → Prop where
  | value {text : List Char} {n : Int} (h : MeansValue table text n) :
      MeansItem table (text, none) (n, none)
  | range {low high : List Char} {m n : Int} (hlow : MeansValue table low m)
      (hhigh : MeansValue table high n) : MeansItem table (low, some high) (m, some n)

/-- The description that parts stand for.  A list of items stands for ranges if one of them has two
bounds, and else for one value or for several, in the order of the text. -/
inductive Means (table : Aliases) : Parts → FrequencySpec → Prop where
  | always : Means table .star .always
  | starStepped {step : List Char} {n : Int} (hstep : MeansValue table step n) :
      Means table (.stepped none step) (.every n 0)
  | stepped {offset step : List Char} {n m : Int} (hstep : MeansValue table step n)
      (hoffset : MeansValue table offset m) : Means table (.stepped (some offset) step) (.every n m)
  | single {text : List Char} {n : Int} (h : MeansValue table text n) :
      Means table (.listed [(text, none)]) (.single n)
  | multiple {texts : List (List Char)} {values : List Int} (hlength : values.length ≠ 1)
      (h : List.Forall₂ (MeansValue table) texts values) :
      Means table (.listed (texts.map fun text => (text, none))) (.multiple values)
  | ranges {items : List (List Char × Option (List Char))} {bounds : List (Int × Option Int)}
      (hrange : ∃ item ∈ items, item.2.isSome = true)
      (h : List.Forall₂ (MeansItem table) items bounds) : Means table (.listed items) (.ranges bounds)

theorem readBounds_eq_ok {item : List Char × Option (List Char)} {bounds : Int × Option Int} :
    readBounds table expression item = .ok bounds ↔ MeansItem table item bounds := by
  obtain ⟨low, high⟩ := item
  cases high with
  | none =>
      rw [readBounds, bind_eq_ok]
      constructor
      · rintro ⟨n, hn, ⟨⟩⟩
        exact .value (readValue_eq_ok.1 hn)
      · intro h
        cases h with
        | value h => exact ⟨_, readValue_eq_ok.2 h, rfl⟩
  | some high =>
      rw [readBounds, bind_eq_ok]
      constructor
      · rintro ⟨m, hm, h⟩
        obtain ⟨n, hn, ⟨⟩⟩ := bind_eq_ok.1 h
        exact .range (readValue_eq_ok.1 hm) (readValue_eq_ok.1 hn)
      · intro h
        cases h with
        | range hlow hhigh =>
            exact ⟨_, readValue_eq_ok.2 hlow, bind_eq_ok.2 ⟨_, readValue_eq_ok.2 hhigh, rfl⟩⟩

/-- An item fails with the first error of its values. -/
theorem readBounds_eq_error {item : List Char × Option (List Char)} :
    readBounds table expression item = .error err ↔
      FirstError (readValue table expression) (item.1 :: item.2.toList) err := by
  obtain ⟨low, high⟩ := item
  cases high with
  | none => exact bind_pure_eq_error.trans firstError_singleton.symm
  | some high =>
      rw [readBounds, bind_eq_error, Option.toList_some, firstError_cons, firstError_singleton]
      simp only [bind_pure_eq_error, exists_and_right]

theorem exists_readBounds_eq_ok {item : List Char × Option (List Char)} :
    (∃ bounds, readBounds table expression item = .ok bounds) ↔
      ∀ text ∈ item.1 :: item.2.toList, ∃ n, readValue table expression text = .ok n := by
  simp only [readBounds_eq_ok, readValue_eq_ok]
  obtain ⟨low, high⟩ := item
  cases high with
  | none =>
      simp only [Option.toList_none, List.forall_mem_singleton]
      constructor
      · rintro ⟨_, ⟨h⟩⟩
        exact ⟨_, h⟩
      · rintro ⟨n, h⟩
        exact ⟨_, .value h⟩
  | some high =>
      simp only [Option.toList_some, List.forall_mem_cons, List.not_mem_nil, false_imp_iff,
        implies_true, and_true]
      constructor
      · rintro ⟨_, h⟩
        cases h with
        | range hlow hhigh => exact ⟨⟨_, hlow⟩, ⟨_, hhigh⟩⟩
      · rintro ⟨⟨m, hlow⟩, ⟨n, hhigh⟩⟩
        exact ⟨_, .range hlow hhigh⟩

/-- Items without a second bound are one value each. -/
theorem exists_values_of_forall₂ {items : List (List Char × Option (List Char))}
    {bounds : List (Int × Option Int)} (h : List.Forall₂ (MeansItem table) items bounds)
    (hone : ∀ item ∈ items, item.2.isSome = false) :
    ∃ texts values, items = texts.map (fun text => (text, none)) ∧
      bounds = values.map (fun n => (n, none)) ∧ List.Forall₂ (MeansValue table) texts values := by
  induction h with
  | nil => exact ⟨[], [], rfl, rfl, .nil⟩
  | cons hitem _ ih =>
      obtain ⟨hhead, hrest⟩ := List.forall_mem_cons.1 hone
      obtain ⟨texts, values, rfl, rfl, hvalues⟩ := ih hrest
      cases hitem with
      | value h => exact ⟨_ :: texts, _ :: values, rfl, rfl, .cons h hvalues⟩
      | range => cases hhead

theorem any_isSome_of_forall₂ {items : List (List Char × Option (List Char))}
    {bounds : List (Int × Option Int)} (h : List.Forall₂ (MeansItem table) items bounds) :
    (bounds.any fun b => b.2.isSome) = items.any fun item => item.2.isSome := by
  induction h with
  | nil => rfl
  | cons hitem _ ih =>
      rw [List.any_cons, List.any_cons, ih]
      cases hitem <;> rfl

/-- Values without ranges among them are listed. -/
theorem ofItems_map {values : List Int} (hlength : values.length ≠ 1) :
    ofItems (values.map fun n => (n, none)) = .multiple values := by
  match values, hlength with
  | [], _ => rfl
  | first :: second :: rest, _ =>
      unfold ofItems
      rw [if_neg (by simp)]
      simp [Function.comp_def]

/-- What a list of items stands for. -/
theorem means_listed_iff {items : List (List Char × Option (List Char))} {spec : FrequencySpec} :
    Means table (.listed items) spec ↔
      ∃ bounds, List.Forall₂ (MeansItem table) items bounds ∧ ofItems bounds = spec := by
  constructor
  · intro h
    cases h with
    | single h => exact ⟨[(_, none)], .cons (.value h) .nil, rfl⟩
    | multiple hlength h =>
        refine ⟨_, ?_, ofItems_map hlength⟩
        rw [List.forall₂_map_left_iff, List.forall₂_map_right_iff]
        exact h.imp fun _ _ h => .value h
    | ranges hrange h =>
        refine ⟨_, h, ?_⟩
        unfold ofItems
        rw [if_pos ((any_isSome_of_forall₂ h).trans (List.any_eq_true.2 hrange))]
  · rintro ⟨bounds, h, rfl⟩
    by_cases hrange : ∃ item ∈ items, item.2.isSome = true
    · unfold ofItems
      rw [if_pos ((any_isSome_of_forall₂ h).trans (List.any_eq_true.2 hrange))]
      exact .ranges hrange h
    · push Not at hrange
      obtain ⟨texts, values, rfl, rfl, hvalues⟩ :=
        exists_values_of_forall₂ h fun item hitem => Bool.eq_false_iff.2 (hrange item hitem)
      by_cases hlength : values.length = 1
      · obtain ⟨n, rfl⟩ := List.length_eq_one_iff.1 hlength
        obtain ⟨text, _, htext, hnil, rfl⟩ := List.forall₂_cons_right_iff.1 hvalues
        cases hnil
        exact .single htext
      · rw [ofItems_map hlength]
        exact .multiple hlength hvalues

/-! ## What comes of an expression -/

/-- **Parts are read as the description that they stand for.** -/
theorem Parts.read_eq_ok {parts : Parts} {spec : FrequencySpec} :
    parts.read table expression = .ok spec ↔ Means table parts spec := by
  cases parts with
  | star =>
      constructor
      · rintro ⟨⟩
        exact .always
      · rintro ⟨⟩
        rfl
  | stepped offset step =>
      cases offset with
      | none =>
          rw [Parts.read, bind_eq_ok]
          constructor
          · rintro ⟨n, hn, ⟨⟩⟩
            exact .starStepped (readValue_eq_ok.1 hn)
          · intro h
            cases h with
            | starStepped hstep => exact ⟨_, readValue_eq_ok.2 hstep, rfl⟩
      | some offset =>
          rw [Parts.read, bind_eq_ok]
          constructor
          · rintro ⟨n, hn, h⟩
            obtain ⟨m, hm, ⟨⟩⟩ := bind_eq_ok.1 h
            exact .stepped (readValue_eq_ok.1 hn) (readValue_eq_ok.1 hm)
          · intro h
            cases h with
            | stepped hstep hoffset =>
                exact ⟨_, readValue_eq_ok.2 hstep, bind_eq_ok.2 ⟨_, readValue_eq_ok.2 hoffset, rfl⟩⟩
  | listed items =>
      rw [Parts.read, bind_eq_ok, means_listed_iff]
      simp only [mapM_eq_ok, readBounds_eq_ok]
      refine exists_congr fun bounds => and_congr_right fun _ => ?_
      exact ⟨Except.ok.inj, congrArg Except.ok⟩

/-- **Parts fail with the first error of their pieces.** -/
theorem Parts.read_eq_error {parts : Parts} :
    parts.read table expression = .error err ↔
      FirstError (readValue table expression) parts.pieces err := by
  cases parts with
  | star => exact ⟨nofun, fun h => absurd h not_firstError_nil⟩
  | stepped offset step =>
      cases offset with
      | none => exact bind_pure_eq_error.trans firstError_singleton.symm
      | some offset =>
          rw [Parts.read, bind_eq_error, Parts.pieces, Option.toList_some, firstError_cons,
            firstError_singleton]
          simp only [bind_pure_eq_error, exists_and_right]
  | listed items =>
      rw [Parts.read, bind_pure_eq_error, mapM_eq_error, Parts.pieces]
      exact firstError_flatMap (fun _ => exists_readBounds_eq_ok) fun _ => readBounds_eq_error

/-- **What comes of an expression.**  It is read if it has parts whose pieces all mean values, as the
description that the parts stand for.  If it is blank or has a blank item in a list, it is reported as a
whole.  In every other case the first of its pieces that means no value is reported, without the blanks
around it, the step being read before the offset. -/
theorem ofExpression_eq_iff (table : Aliases) (expression : String) :
    (∀ spec, ofExpression table expression = .ok spec ↔
      ∃ parts, HasParts (trim expression.toList) parts ∧ Means table parts spec) ∧
    ∀ err, ofExpression table expression = .error err ↔
      (Malformed (trim expression.toList) ∧ err = .invalidExpression expression) ∨
        ∃ parts before piece after, HasParts (trim expression.toList) parts ∧
          parts.pieces = before ++ piece :: after ∧ (∀ text ∈ before, IsValue table text) ∧
          ¬ IsValue table piece ∧ err = .invalidValue (String.ofList (trim piece)) expression := by
  have herror : ∀ {parts : Parts} {err : FrequencyError}, parts.read table expression = .error err ↔
      ∃ before piece after, parts.pieces = before ++ piece :: after ∧
        (∀ text ∈ before, IsValue table text) ∧
        ¬ IsValue table piece ∧ err = .invalidValue (String.ofList (trim piece)) expression := by
    intro parts err
    simp only [Parts.read_eq_error, FirstError, readValue_eq_error, readValue_eq_ok, IsValue]
  refine ⟨fun spec => ⟨fun h => ?_, ?_⟩, fun err => ⟨fun h => ?_, ?_⟩⟩
  · rcases malformed_or_hasParts (trim expression.toList) with hmalformed | ⟨parts, hparts⟩
    · rw [ofExpression_of_malformed hmalformed] at h
      cases h
    · rw [ofExpression_of_hasParts hparts, Parts.read_eq_ok] at h
      exact ⟨parts, hparts, h⟩
  · rintro ⟨parts, hparts, h⟩
    rw [ofExpression_of_hasParts hparts, Parts.read_eq_ok]
    exact h
  · rcases malformed_or_hasParts (trim expression.toList) with hmalformed | ⟨parts, hparts⟩
    · rw [ofExpression_of_malformed hmalformed] at h
      cases h
      exact .inl ⟨hmalformed, rfl⟩
    · rw [ofExpression_of_hasParts hparts] at h
      obtain ⟨before, piece, after, h⟩ := herror.1 h
      exact .inr ⟨parts, before, piece, after, hparts, h⟩
  · rintro (⟨hmalformed, rfl⟩ | ⟨parts, before, piece, after, hparts, h⟩)
    · exact ofExpression_of_malformed hmalformed
    · rw [ofExpression_of_hasParts hparts]
      exact herror.2 ⟨before, piece, after, h⟩

/-- Of an offset and a step that both mean nothing, the step is reported. -/
example : ofExpression weekdayAliases " noon / day" = .error (.invalidValue "day" " noon / day") := by
  decide +kernel

end FrequencySpec

end Recurrence
