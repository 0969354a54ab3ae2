import Mathlib.Data.List.Forall2
import Recurrence.Frequency.Expression
import Recurrence.Proofs.Text.Token

/-!
# Frequencies as they are written

The grammar of frequency expressions, as a relation between a description and its texts: a value has
many texts, since zeros, names in either case and blanks around every part do not count.  **Whatever
text a description is written as, it is read as that description.**

The one place where that is not plain is the dash, which is the sign of a value and the separator of
a range.  A token has a dash at its beginning at most, and an item has no blanks before it when it is
cut; so the first dash after the first character of an item is the one between the bounds.

## Main Definitions

* `Aliases.WellNamed`: a table of names that are made of letters and do not contradict each other
* `FrequencySpec.WritesValue`, `WritesItem`, `WritesItems`: a value, an item and a list of items,
  written
* `FrequencySpec.Writes`: a description, written
* `FrequencySpec.IsWritable`: the descriptions that have a text

## Main Statements

* `Period.wellNamed_aliases`: the names that every rule may use are such a table
* `FrequencySpec.ofExpression_of_writes`: what is written is read
* `FrequencySpec.exists_writes`: a description of the written form has a text
-/

namespace Recurrence

open Text

/-! ## Related lists -/

section

variable {α β : Type} {R : α → β → Prop} {l : List α} {l' : List β}

theorem exists_rel_of_mem (h : List.Forall₂ R l l') {b : β} (hb : b ∈ l') : ∃ a, R a b := by
  induction h with
  | nil => cases hb
  | cons hrel _ ih =>
      rcases List.mem_cons.1 hb with rfl | hb
      · exact ⟨_, hrel⟩
      · exact ih hb

theorem exists_forall₂ (h : ∀ a ∈ l, ∃ b, R a b) : ∃ l', List.Forall₂ R l l' := by
  induction l with
  | nil => exact ⟨[], .nil⟩
  | cons a rest ih =>
      obtain ⟨b, hb⟩ := h a List.mem_cons_self
      obtain ⟨rest', hrest'⟩ := ih fun a ha => h a (List.mem_cons_of_mem _ ha)
      exact ⟨b :: rest', .cons hb hrest'⟩

end

/-! ## Names -/

/-- The names are made of letters, and names that agree but for their case stand for one value. -/
structure Aliases.WellNamed (table : Aliases) : Prop where
  ne_nil : ∀ entry ∈ table, entry.1.toList ≠ []
  all_isAlpha : ∀ entry ∈ table, entry.1.toList.all Char.isAlpha = true
  value_eq : ∀ entry ∈ table, ∀ entry' ∈ table,
    sameLetters entry.1.toList entry'.1.toList = true → entry.2 = entry'.2

theorem Aliases.WellNamed.isAlpha {table : Aliases} (h : table.WellNamed) {entry : String × Int}
    (hentry : entry ∈ table) : ∀ c ∈ entry.1.toList, c.isAlpha = true :=
  List.all_eq_true.1 (h.all_isAlpha entry hentry)

theorem wellNamed_weekdayAliases : weekdayAliases.WellNamed where
  ne_nil := by decide +kernel
  all_isAlpha := by decide +kernel
  value_eq := by decide +kernel

theorem wellNamed_monthAliases : monthAliases.WellNamed where
  ne_nil := by decide +kernel
  all_isAlpha := by decide +kernel
  value_eq := by decide +kernel

theorem Period.wellNamed_aliases (p : Period) : p.aliases.WellNamed := by
  cases p with
  | month => exact wellNamed_monthAliases
  | dayOfWeek => exact wellNamed_weekdayAliases
  | _ => exact ⟨nofun, nofun, nofun⟩

namespace FrequencySpec

variable {table : Aliases} {n : Int} {s text : List Char} {expression : String}

/-! ## Values -/

/-- The text is an integer of the value range in decimal digits, or a name of it in either case. -/
def WritesValue (table : Aliases) (n : Int) (s : List Char) : Prop :=
  InValueRange n ∧ WritesInteger n s ∨
    ∃ name, (name, n) ∈ table ∧ sameLetters name.toList s = true

/-- The text is a written value with blanks around it. -/
def WritesPadded (table : Aliases) (n : Int) (s : List Char) : Prop :=
  ∃ token, WritesValue table n token ∧ Padded token s

theorem WritesValue.isToken (htable : table.WellNamed) (h : WritesValue table n s) : IsToken s := by
  rcases h with ⟨-, h⟩ | ⟨name, hname, hletters⟩
  · exact h.isToken
  · refine isToken_of_isAlpha ?_ (isAlpha_of_sameLetters hletters (htable.isAlpha hname))
    rintro rfl
    have hnil : name.toList.map Char.toLower = [] := eq_of_beq hletters
    exact htable.ne_nil _ hname (List.map_eq_nil_iff.1 hnil)

/-- A name stands for its value, in either case. -/
theorem value?_of_name (htable : table.WellNamed) {name : String} (hname : (name, n) ∈ table)
    (hletters : sameLetters name.toList s = true) : table.value? s = some n := by
  rw [Aliases.value?, Option.map_eq_some_iff]
  cases hfind : table.find? fun entry => sameLetters entry.1.toList s with
  | none => exact absurd hletters (List.find?_eq_none.1 hfind _ hname)
  | some entry =>
      have hentry := List.find?_some hfind
      refine ⟨entry, rfl, htable.value_eq _ (List.mem_of_find?_eq_some hfind) _ hname ?_⟩
      exact beq_iff_eq.2 ((eq_of_beq hentry).trans (eq_of_beq hletters).symm)

/-- An integer is no name. -/
theorem value?_of_integer (htable : table.WellNamed) (h : WritesInteger n s) :
    table.value? s = none := by
  rw [Aliases.value?, Option.map_eq_none_iff, List.find?_eq_none]
  intro entry hentry hletters
  obtain ⟨c, rest, rfl, hc, -⟩ := h.exists_cons
  have halpha := isAlpha_of_sameLetters hletters (htable.isAlpha hentry) c List.mem_cons_self
  rw [isAlpha_iff] at halpha
  rcases hc with hdigit | rfl
  · simp only [Char.isDigit, ge_iff_le, Bool.and_eq_true, decide_eq_true_eq,
      UInt32.le_iff_toNat_le] at hdigit
    have hlast : c.toNat ≤ 57 := hdigit.2
    omega
  · exact absurd halpha (by decide)

/-- **A written value is read**, whatever blanks are around it. -/
theorem readValue_of_writes (htable : table.WellNamed) (h : WritesPadded table n s) :
    readValue table expression s = .ok n := by
  obtain ⟨token, hvalue, hpadded⟩ := h
  have htrim : trim s = token := hpadded.trim_eq (hvalue.isToken htable).isTrimmed
  have hread : (table.value? token).or (value? token) = some n := by
    rcases hvalue with ⟨hrange, h⟩ | ⟨name, hname, hletters⟩
    · rw [value?_of_integer htable h, value?_of_writes h hrange]
      rfl
    · rw [value?_of_name htable hname hletters]
      rfl
  rw [readValue, htrim]
  simp only [hread]

/-! ## Items -/

/-- An item of a list: a value, or two with a dash between them. -/
def WritesItem (table : Aliases) : Int × Option Int → List Char → Prop
  | (n, none), s => WritesPadded table n s
  | (low, some high), s =>
    ∃ x y, WritesPadded table low x ∧ WritesPadded table high y ∧ s = x ++ '-' :: y

/-- A list of items with commas between them. -/
def WritesItems (table : Aliases) (items : List (Int × Option Int)) (s : List Char) : Prop :=
  items ≠ [] ∧ ∃ texts, List.Forall₂ (WritesItem table) items texts ∧ s = joinWith [','] texts

/-- The characters of items: blanks and those of tokens. -/
def IsItemChar (c : Char) : Prop := isBlank c = true ∨ c.isAlphanum = true ∨ c = '-'

instance (c : Char) : Decidable (IsItemChar c) :=
  inferInstanceAs (Decidable (isBlank c = true ∨ c.isAlphanum = true ∨ c = '-'))

theorem WritesPadded.isItemChar (htable : table.WellNamed) (h : WritesPadded table n s) {c : Char}
    (hc : c ∈ s) : IsItemChar c := by
  obtain ⟨token, hvalue, hpadded⟩ := h
  rcases hpadded.mem hc with hmem | hblank
  · exact .inr ((hvalue.isToken htable).mem hmem)
  · exact .inl hblank

theorem WritesItem.isItemChar (htable : table.WellNamed) {item : Int × Option Int}
    (h : WritesItem table item s) {c : Char} (hc : c ∈ s) : IsItemChar c := by
  obtain ⟨low, high⟩ := item
  cases high with
  | none => exact WritesPadded.isItemChar htable h hc
  | some high =>
      obtain ⟨x, y, hx, hy, rfl⟩ := h
      rcases List.mem_append.1 hc with hc | hc
      · exact hx.isItemChar htable hc
      · rcases List.mem_cons.1 hc with rfl | hc
        · exact .inr (.inr rfl)
        · exact hy.isItemChar htable hc

theorem WritesPadded.not_allBlank (htable : table.WellNamed) (h : WritesPadded table n s) :
    ¬ AllBlank s := by
  obtain ⟨token, hvalue, hpadded⟩ := h
  have htoken := hvalue.isToken htable
  rw [← trim_eq_nil_iff, hpadded.trim_eq htoken.isTrimmed]
  exact htoken.ne_nil

theorem WritesItem.not_allBlank (htable : table.WellNamed) {item : Int × Option Int}
    (h : WritesItem table item s) : ¬ AllBlank s := by
  obtain ⟨low, high⟩ := item
  cases high with
  | none => exact WritesPadded.not_allBlank htable h
  | some high =>
      obtain ⟨x, y, hx, -, rfl⟩ := h
      intro hblank
      exact hx.not_allBlank htable fun c hc => hblank c (List.mem_append_left _ hc)

/-- Fewer blanks do not change what is written. -/
theorem WritesPadded.of_padded (htable : table.WellNamed) (h : WritesPadded table n text)
    (hs : Padded s text) : WritesPadded table n s := by
  obtain ⟨token, hvalue, hpadded⟩ := h
  have htrim : trim s = token := by
    rw [← hs.trim_congr, hpadded.trim_eq (hvalue.isToken htable).isTrimmed]
  exact ⟨token, hvalue, htrim ▸ padded_trim s⟩

/-- A token is not cut. -/
theorem splitRange?_of_isToken (h : IsToken s) : splitRange? s = none := by
  obtain ⟨c, rest, rfl, -, hrest⟩ := h
  have hnot : '-' ∉ rest := fun hmem => absurd (hrest '-' hmem) (by decide)
  rw [splitRange?, cut?_eq_none.2 hnot]
  rfl

/-- A token and a dash are cut at that dash, even if the token begins with another one. -/
theorem splitRange?_of_token_append {token after rest : List Char} (h : IsToken token)
    (hafter : AllBlank after) :
    splitRange? (token ++ after ++ '-' :: rest) = some (token ++ after, rest) := by
  obtain ⟨c, letters, rfl, -, hletters⟩ := h
  have hnot : '-' ∉ letters ++ after := by
    intro hmem
    rcases List.mem_append.1 hmem with hmem | hmem
    · exact absurd (hletters '-' hmem) (by decide)
    · exact hafter.not_mem (by decide) hmem
  show splitRange? (c :: (letters ++ after ++ '-' :: rest)) = _
  rw [splitRange?, cut?_append_cons hnot]
  rfl

/-- **A written item is read**, once it is trimmed. -/
theorem readItem_of_writes (htable : table.WellNamed) {item : Int × Option Int}
    (h : WritesItem table item s) : readItem table expression (trim s) = .ok item := by
  obtain ⟨low, high⟩ := item
  cases high with
  | none =>
      obtain ⟨token, hvalue, hpadded⟩ := h
      have htoken := hvalue.isToken htable
      have hread : readValue table expression token = .ok low :=
        readValue_of_writes htable ⟨token, hvalue, padded_refl token⟩
      rw [hpadded.trim_eq htoken.isTrimmed, readItem, splitRange?_of_isToken htoken]
      simp only [hread]
      rfl
  | some high =>
      obtain ⟨_, _, ⟨first, hfirst, before, after, hbefore, hafter, rfl⟩,
        ⟨last, hlast, before', after', hbefore', hafter', rfl⟩, rfl⟩ := h
      -- trimmed, the item begins with its first token, whose own dash is not looked at
      have htrim : trim (before ++ first ++ after ++ '-' :: (before' ++ last ++ after')) =
          first ++ after ++ '-' :: (before' ++ last) := by
        refine Padded.trim_eq ⟨before, after', hbefore, hafter', by simp⟩ ?_
        exact (hfirst.isToken htable).isTrimmed_append (hlast.isToken htable) (after ++ '-' :: before')
          (by simp)
      have hlow : readValue table expression (first ++ after) = .ok low :=
        readValue_of_writes htable ⟨first, hfirst, [], after, allBlank_nil, hafter, rfl⟩
      have hhigh : readValue table expression (before' ++ last) = .ok high :=
        readValue_of_writes htable
          ⟨last, hlast, before', [], hbefore', allBlank_nil, (List.append_nil _).symm⟩
      rw [htrim, readItem, splitRange?_of_token_append (hfirst.isToken htable) hafter]
      simp only [hlow, hhigh]
      rfl

/-! ## Descriptions -/

/-- The text is a written value, or a star for zero. -/
def WritesOffset (table : Aliases) (n : Int) (s : List Char) : Prop :=
  WritesPadded table n s ∨ n = 0 ∧ Padded ['*'] s

/-- The texts that a description is written as.  Several values are at least two, and ranges are
those of which one has two bounds: what has fewer is written like the simpler description. -/
def Writes (table : Aliases) : FrequencySpec → List Char → Prop
  | .always, s => Padded ['*'] s
  | .single n, s => WritesItems table [(n, none)] s
  | .multiple values, s => 2 ≤ values.length ∧ WritesItems table (values.map fun n => (n, none)) s
  | .every step offset, s =>
    ∃ x y, WritesOffset table offset x ∧ WritesPadded table step y ∧ s = x ++ '/' :: y
  | .ranges bounds, s => (∃ b ∈ bounds, b.2.isSome = true) ∧ WritesItems table bounds s

theorem mapM_readItem (htable : table.WellNamed) {items : List (Int × Option Int)}
    {texts : List (List Char)} (h : List.Forall₂ (WritesItem table) items texts) :
    (texts.map trim).mapM (readItem table expression) = .ok items := by
  induction h with
  | nil => rfl
  | cons hitem _ ih =>
      rw [List.map_cons, List.mapM_cons, readItem_of_writes htable hitem, ih]
      rfl

theorem WritesItems.mem (htable : table.WellNamed) {items : List (Int × Option Int)}
    (h : WritesItems table items s) {c : Char} (hc : c ∈ s) : c = ',' ∨ IsItemChar c := by
  obtain ⟨-, texts, htexts, rfl⟩ := h
  rcases mem_joinWith hc with hc | ⟨text, htext, hc⟩
  · exact .inl (List.mem_singleton.1 hc)
  · obtain ⟨item, hwrites⟩ := exists_rel_of_mem htexts htext
    exact .inr (hwrites.isItemChar htable hc)

/-- **A written list of items is read.** -/
theorem ofExpression_of_items (htable : table.WellNamed) {items : List (Int × Option Int)}
    (h : WritesItems table items s) (htrim : trim expression.toList = trim s) :
    ofExpression table expression = .ok (ofItems items) := by
  have hchars : ∀ c ∈ s, c = ',' ∨ IsItemChar c := fun c hc => h.mem htable hc
  obtain ⟨hne, texts, htexts, rfl⟩ := h
  have hitem : ∀ text ∈ texts, ∃ item, WritesItem table item text := by
    intro text htext
    exact exists_rel_of_mem htexts htext
  have hcomma : ∀ text ∈ texts, ',' ∉ text := by
    intro text htext hmem
    obtain ⟨item, hwrites⟩ := hitem text htext
    exact absurd (hwrites.isItemChar htable hmem) (by decide)
  have hfilled : ∀ text ∈ texts, trim text ≠ [] := by
    intro text htext
    obtain ⟨item, hwrites⟩ := hitem text htext
    exact mt trim_eq_nil_iff.1 (hwrites.not_allBlank htable)
  have hne' : texts ≠ [] := by
    rintro rfl
    exact hne (List.forall₂_nil_right_iff.1 htexts)
  -- trimmed, the text is neither empty nor a star, and no slash is in it
  have htrimmed : ∀ c ∈ trim (joinWith [','] texts), c = ',' ∨ IsItemChar c :=
    fun c hc => hchars c ((padded_trim _).subset hc)
  have hnil : trim (joinWith [','] texts) ≠ [] := by
    obtain ⟨text, htext⟩ := List.exists_mem_of_ne_nil _ hne'
    intro hnil
    refine hfilled text htext (trim_eq_nil_iff.2 fun c hc => ?_)
    exact trim_eq_nil_iff.1 hnil c (mem_joinWith_of_mem _ htext hc)
  have hstar : trim (joinWith [','] texts) ≠ ['*'] := by
    intro hstar
    exact absurd (htrimmed '*' (hstar ▸ List.mem_cons_self)) (by decide)
  have hslash : '/' ∉ trim (joinWith [','] texts) :=
    fun hmem => absurd (htrimmed '/' hmem) (by decide)
  have hparts : (splitAll ',' (trim (joinWith [','] texts))).map trim = texts.map trim :=
    map_trim_splitAll (by decide) hne' hcomma (padded_trim _)
  have hany : ¬ (texts.map trim).any List.isEmpty = true := by
    rw [List.any_eq_true]
    rintro ⟨_, hmem, hempty⟩
    obtain ⟨text, htext, rfl⟩ := List.mem_map.1 hmem
    exact hfilled text htext (List.isEmpty_iff.1 hempty)
  unfold ofExpression
  simp only [htrim, if_neg hnil, if_neg hstar, cut?_eq_none.2 hslash, hparts, if_neg hany,
    mapM_readItem htable htexts]
  rfl

theorem WritesOffset.of_padded (htable : table.WellNamed) (h : WritesOffset table n text)
    (hs : Padded s text) : WritesOffset table n s := by
  rcases h with h | ⟨hzero, h⟩
  · exact .inl (h.of_padded htable hs)
  · have htrim : trim s = ['*'] := by rw [← hs.trim_congr, h.trim_eq (isTrimmed_singleton rfl)]
    exact .inr ⟨hzero, htrim ▸ padded_trim s⟩

theorem WritesOffset.mem (htable : table.WellNamed) (h : WritesOffset table n s) {c : Char}
    (hc : c ∈ s) : c = '*' ∨ IsItemChar c := by
  rcases h with h | ⟨-, h⟩
  · exact .inr (h.isItemChar htable hc)
  · rcases h.mem hc with hstar | hblank
    · exact .inl (List.mem_singleton.1 hstar)
    · exact .inr (.inl hblank)

theorem readOffset_of_writes (htable : table.WellNamed) (h : WritesOffset table n s) :
    readOffset table expression s = .ok n := by
  rw [readOffset]
  rcases h with h | ⟨rfl, h⟩
  · have hnot : trim s ≠ ['*'] := by
      intro hstar
      have hmem : '*' ∈ s := (padded_trim s).subset (hstar ▸ List.mem_cons_self)
      exact absurd (h.isItemChar htable hmem) (by decide)
    rw [if_neg hnot, readValue_of_writes htable h]
  · rw [if_pos (h.trim_eq (isTrimmed_singleton rfl))]

/-- A written offset and a written step with a slash between them are read. -/
theorem ofExpression_of_step (htable : table.WellNamed) {step offset : Int} {x y : List Char}
    (hoffset : WritesOffset table offset x) (hstep : WritesPadded table step y)
    (htrim : trim expression.toList = trim (x ++ '/' :: y)) :
    ofExpression table expression = .ok (.every step offset) := by
  obtain ⟨x', y', hparts, hx, hy⟩ := (padded_trim (x ++ '/' :: y)).exists_parts (by decide)
  have hoffset' := hoffset.of_padded htable hx
  have hslash : '/' ∉ x' := fun hmem => absurd (hoffset'.mem htable hmem) (by decide)
  have hnil : x' ++ '/' :: y' ≠ [] := by simp
  have hstar : x' ++ '/' :: y' ≠ ['*'] := by
    intro hstar
    have hmem : '/' ∈ ['*'] := hstar ▸ List.mem_append_right x' List.mem_cons_self
    exact absurd hmem (by decide)
  have hread : readOffset table expression x' = .ok offset := readOffset_of_writes htable hoffset'
  have hread' : readValue table expression y' = .ok step :=
    readValue_of_writes htable (hstep.of_padded htable hy)
  unfold ofExpression
  simp only [htrim, hparts, if_neg hnil, if_neg hstar, cut?_append_cons hslash, hread, hread']
  rfl

/-- **What is written is read**: every text that a description is written as is read as it. -/
theorem ofExpression_of_writes (htable : table.WellNamed) {spec : FrequencySpec}
    (h : spec.Writes table s) (htrim : trim expression.toList = trim s) :
    ofExpression table expression = .ok spec := by
  cases spec with
  | always =>
      have hstar : trim s = ['*'] := Padded.trim_eq h (isTrimmed_singleton rfl)
      rw [ofExpression, htrim, hstar]
      rfl
  | single n =>
      rw [ofExpression_of_items htable h htrim]
      rfl
  | multiple values =>
      obtain ⟨hlength, hitems⟩ := h
      rw [ofExpression_of_items htable hitems htrim]
      match values, hlength with
      | first :: second :: rest, _ =>
        have hsingle : ¬ (((first :: second :: rest).map fun n => (n, (none : Option Int))).any
            fun item => item.2.isSome) = true := by
          simp
        unfold ofItems
        rw [if_neg hsingle]
        simp [Function.comp_def]
  | every step offset =>
      obtain ⟨x, y, hoffset, hstep, rfl⟩ := h
      exact ofExpression_of_step htable hoffset hstep htrim
  | ranges bounds =>
      obtain ⟨⟨b, hb, hsome⟩, hitems⟩ := h
      rw [ofExpression_of_items htable hitems htrim]
      unfold ofItems
      rw [if_pos (List.any_eq_true.2 ⟨b, hb, hsome⟩)]

/-- A written description does not end the field it is written in. -/
theorem Writes.semicolon_not_mem (htable : table.WellNamed) {spec : FrequencySpec}
    (h : spec.Writes table s) : ';' ∉ s := by
  have hitems {items : List (Int × Option Int)} (hitems : WritesItems table items s) : ';' ∉ s :=
    fun hmem => absurd (hitems.mem htable hmem) (by decide)
  cases spec with
  | always =>
      intro hmem
      rcases Padded.mem h hmem with hstar | hblank
      · exact absurd hstar (by decide)
      · exact absurd hblank (by decide)
  | single n => exact hitems h
  | multiple values => exact hitems h.2
  | every step offset =>
      obtain ⟨x, y, hoffset, hstep, rfl⟩ := h
      intro hmem
      rcases List.mem_append.1 hmem with hmem | hmem
      · exact absurd (hoffset.mem htable hmem) (by decide)
      · rcases List.mem_cons.1 hmem with heq | hmem
        · cases heq
        · exact absurd (hstep.isItemChar htable hmem) (by decide)
  | ranges bounds => exact hitems h.2

/-! ## The descriptions that have a text -/

/-- The description is of the form that is written: its numbers are values, several values are at
least two, and one of the ranges has two bounds. -/
def IsWritable : FrequencySpec → Prop
  | .always => True
  | .single n => InValueRange n
  | .multiple values => 2 ≤ values.length ∧ ∀ n ∈ values, InValueRange n
  | .every step offset => InValueRange step ∧ InValueRange offset
  | .ranges bounds =>
    (∃ b ∈ bounds, b.2.isSome = true) ∧
      ∀ b ∈ bounds, InValueRange b.1 ∧ ∀ high ∈ b.2, InValueRange high

theorem writesPadded_toString (hn : InValueRange n) :
    WritesPadded table n (toString n).toList :=
  ⟨_, .inl ⟨hn, writesInteger_toString n⟩, padded_refl _⟩

theorem exists_writesItem (table : Aliases) {item : Int × Option Int} (hlow : InValueRange item.1)
    (hhigh : ∀ high ∈ item.2, InValueRange high) : ∃ s, WritesItem table item s := by
  obtain ⟨low, high⟩ := item
  cases high with
  | none => exact ⟨_, writesPadded_toString hlow⟩
  | some high =>
      exact ⟨_, _, _, writesPadded_toString hlow, writesPadded_toString (hhigh high rfl), rfl⟩

theorem exists_writesItems (table : Aliases) {items : List (Int × Option Int)} (hne : items ≠ [])
    (h : ∀ item ∈ items, InValueRange item.1 ∧ ∀ high ∈ item.2, InValueRange high) :
    ∃ s, WritesItems table items s := by
  obtain ⟨texts, htexts⟩ := exists_forall₂ fun item hitem =>
    exists_writesItem table (h item hitem).1 (h item hitem).2
  exact ⟨_, hne, texts, htexts, rfl⟩

/-- **A description of this form has a text**, whatever the names are. -/
theorem exists_writes (table : Aliases) {spec : FrequencySpec} (h : spec.IsWritable) :
    ∃ s, spec.Writes table s := by
  cases spec with
  | always => exact ⟨['*'], padded_refl _⟩
  | single n =>
      refine exists_writesItems table (List.cons_ne_nil _ _) fun item hitem => ?_
      rcases List.mem_singleton.1 hitem with rfl
      exact ⟨h, nofun⟩
  | multiple values =>
      obtain ⟨hlength, hvalues⟩ := h
      have hne : values.map (fun n => (n, (none : Option Int))) ≠ [] := by
        intro hnil
        rw [List.map_eq_nil_iff.1 hnil] at hlength
        cases hlength
      obtain ⟨s, hs⟩ := exists_writesItems table hne fun item hitem => by
        obtain ⟨n, hn, rfl⟩ := List.mem_map.1 hitem
        exact ⟨hvalues n hn, nofun⟩
      exact ⟨s, hlength, hs⟩
  | every step offset =>
      exact ⟨_, _, _, .inl (writesPadded_toString h.2), writesPadded_toString h.1, rfl⟩
  | ranges bounds =>
      obtain ⟨⟨b, hb, hsome⟩, hbounds⟩ := h
      obtain ⟨s, hs⟩ := exists_writesItems table (List.ne_nil_of_mem hb) hbounds
      exact ⟨s, ⟨b, hb, hsome⟩, hs⟩

end FrequencySpec

end Recurrence
