import Recurrence.Pattern.Basic
import Recurrence.Proofs.Frequency.Written
import Recurrence.Proofs.Pattern.Fields

/-!
# Rules as they are written

A rule is written field by field, and it has many texts: the order of its fields, blanks around any
part, blank fields, the spelling of names and fields that a later one replaces do not show.
**Whatever text a rule is written as, it compiles to what the rule itself compiles to**, under all
options: to the same pattern, or to the same error, since a step that is not positive is found only
when a description is compiled.

Three readers follow each other, and each is cut off from the next by a character that no token has:
fields end at semicolons, names at an equals sign, items at commas.  An expression that is replaced
later is never read, so it need not be one.

## Main Definitions

* `Period.WritesName`: the spellings of a name
* `PatternInput.WritesField`, `PatternInput.WritesFields`: fields, written
* `PatternInput.Writes`: a rule, written

## Main Statements

* `Period.ofName?_of_writes`, `PatternInput.ofText_of_writes`: what is written is read
* `PatternInput.exists_writes`: every rule of descriptions has a text
* `Pattern.compile_of_writes`: a written rule compiles to what the rule compiles to
-/

namespace Recurrence

open Text

/-! ## Names of periods -/

namespace Period

variable {p : Period} {s name : List Char}

/-- The text is the name of the period in letters of either case, with joiners anywhere. -/
def WritesName (p : Period) (s : List Char) : Prop :=
  sameLetters p.name.toList (s.filter fun c => !isJoiner c) = true

instance (p : Period) (s : List Char) : Decidable (p.WritesName s) :=
  inferInstanceAs (Decidable (sameLetters p.name.toList _ = true))

theorem isAlpha_name (p : Period) : ∀ c ∈ p.name.toList, c.isAlpha = true := by
  have hall : ∀ p ∈ all, p.name.toList.all Char.isAlpha = true := by decide +kernel
  exact List.all_eq_true.1 (hall p (mem_all p))

/-- A name belongs to one period, in either case. -/
theorem eq_of_sameLetters_name {q : Period}
    (h : sameLetters p.name.toList q.name.toList = true) : p = q := by
  have hall : ∀ p ∈ all, ∀ q ∈ all, sameLetters p.name.toList q.name.toList = true → p = q := by
    decide +kernel
  exact hall p (mem_all p) q (mem_all q) h

/-- A name is spelled with letters and joiners. -/
theorem WritesName.mem (h : p.WritesName s) {c : Char} (hc : c ∈ s) :
    c.isAlpha = true ∨ isJoiner c = true := by
  by_cases hjoiner : isJoiner c = true
  · exact .inr hjoiner
  · refine .inl (isAlpha_of_sameLetters h p.isAlpha_name c (List.mem_filter.2 ⟨hc, ?_⟩))
    rw [Bool.not_eq_true] at hjoiner
    rw [hjoiner]
    rfl

theorem WritesName.not_blank (h : p.WritesName s) {c : Char} (hc : c ∈ s) :
    isBlank c = false := by
  rcases h.mem hc with halpha | hjoiner
  · exact isBlank_of_isAlphanum (by rw [Char.isAlphanum, halpha, Bool.true_or])
  · rcases Bool.or_eq_true_iff.1 hjoiner with hc | hc
    · rw [eq_of_beq hc]
      rfl
    · rw [eq_of_beq hc]
      rfl

theorem writesName_name (p : Period) : p.WritesName p.name.toList := by
  have hall : ∀ p ∈ all, p.WritesName p.name.toList := by decide +kernel
  exact hall p (mem_all p)

theorem WritesName.isTrimmed (h : p.WritesName s) : IsTrimmed s :=
  ⟨fun _ hc => h.not_blank (List.mem_of_head? hc), fun _ hc => h.not_blank (List.mem_of_getLast? hc)⟩

/-- **A written name is read as its period.** -/
theorem ofName?_of_writes (h : p.WritesName name) (hpadded : Padded name s) :
    ofName? s = some p := by
  rw [ofName?, hpadded.trim_eq h.isTrimmed]
  cases hfind : all.find? fun q => sameLetters q.name.toList (name.filter fun c => !isJoiner c) with
  | none => exact absurd h (List.find?_eq_none.1 hfind p (mem_all p))
  | some q =>
      have hq := List.find?_some hfind
      rw [eq_of_sameLetters_name (beq_iff_eq.2 ((eq_of_beq hq).trans (eq_of_beq h).symm))]

end Period

/-! ## Fields -/

/-- The texts of a description.  An expression is none. -/
def FrequencyInput.Writes (table : Aliases) : FrequencyInput → List Char → Prop
  | .spec description, s => description.Writes table s
  | .text _, _ => False

namespace PatternInput

variable {p : Period} {expression segment : List Char} {fields : List (Period × List Char)}
  {segments : List (List Char)}

/-- The text is a name of the period, an equals sign and an expression, which may be any text that
does not end the field. -/
def WritesField (p : Period) (expression segment : List Char) : Prop :=
  ∃ name x, p.WritesName name ∧ Padded name x ∧ segment = x ++ '=' :: expression ∧
    ';' ∉ expression

/-- The texts are those of the fields in turn, with blank ones among them. -/
inductive WritesFields : List (Period × List Char) → List (List Char) → Prop where
  | nil : WritesFields [] []
  | blank {fields : List (Period × List Char)} {segment : List Char}
      {segments : List (List Char)} (hblank : AllBlank segment)
      (hrest : WritesFields fields segments) : WritesFields fields (segment :: segments)
  | field {p : Period} {expression segment : List Char} {fields : List (Period × List Char)}
      {segments : List (List Char)} (hfield : WritesField p expression segment)
      (hrest : WritesFields fields segments) :
      WritesFields ((p, expression) :: fields) (segment :: segments)

/-- The text is made of fields with semicolons between them, and the last field of each period
writes what the rule binds to it. -/
def Writes (rule : PatternInput) (text : List Char) : Prop :=
  ∃ fields segments, WritesFields fields segments ∧ text = joinWith [';'] segments ∧
    ∀ p : Period, Option.Rel (FrequencyInput.Writes p.aliases) (rule.get? p)
      (FieldMap.lastBinding? p fields)

theorem WritesField.not_mem (h : WritesField p expression segment) : ';' ∉ segment := by
  obtain ⟨name, x, hname, hx, rfl, hexpression⟩ := h
  intro hmem
  rcases List.mem_append.1 hmem with hmem | hmem
  · rcases hx.mem hmem with hmem | hblank
    · exact absurd (hname.mem hmem) (by decide)
    · exact absurd hblank (by decide)
  · rcases List.mem_cons.1 hmem with heq | hmem
    · cases heq
    · exact hexpression hmem

theorem WritesFields.not_mem (h : WritesFields fields segments) :
    ∀ segment ∈ segments, ';' ∉ segment := by
  induction h with
  | nil => nofun
  | blank hblank _ ih => exact List.forall_mem_cons.2 ⟨hblank.not_mem (by decide), ih⟩
  | field hfield _ ih => exact List.forall_mem_cons.2 ⟨hfield.not_mem, ih⟩

/-- **A written field is read**, once it is trimmed. -/
theorem readField_of_writes (h : WritesField p expression segment) :
    readField (trim segment) = .ok (p, .text (String.ofList (trim expression))) := by
  obtain ⟨name, x, hname, hx, rfl, -⟩ := h
  obtain ⟨x', expression', hparts, hx', hexpression⟩ :=
    (padded_trim (x ++ '=' :: expression)).exists_parts (by decide)
  have htrim : trim x' = name := by
    rw [← hx'.trim_congr, hx.trim_eq hname.isTrimmed]
  have hequals : '=' ∉ x' := by
    intro hmem
    rcases hx.mem (hx'.subset hmem) with hmem | hblank
    · exact absurd (hname.mem hmem) (by decide)
    · exact absurd hblank (by decide)
  have hread : Period.ofName? x' = some p :=
    Period.ofName?_of_writes hname (htrim ▸ padded_trim x')
  rw [hparts, readField, cut?_append_cons hequals]
  simp only [hread, hexpression.trim_congr]

/-- The bindings that written fields make, their expressions trimmed. -/
def bindingsOf (fields : List (Period × List Char)) : List (Period × FrequencyInput) :=
  fields.map fun field => (field.1, .text (String.ofList (trim field.2)))

theorem lastBinding?_bindingsOf (p : Period) (fields : List (Period × List Char)) :
    FieldMap.lastBinding? p (bindingsOf fields) =
      (FieldMap.lastBinding? p fields).map fun s => .text (String.ofList (trim s)) :=
  FieldMap.lastBinding?_map (fun s => FrequencyInput.text (String.ofList (trim s))) fields

theorem mapM_readField (h : WritesFields fields segments) :
    ((segments.map trim).filter fun field => !field.isEmpty).mapM readField =
      .ok (bindingsOf fields) := by
  induction h with
  | nil => rfl
  | blank hblank _ ih =>
      rw [List.map_cons, trim_eq_nil_iff.2 hblank]
      exact ih
  | @field _ _ segment _ rest hfield _ ih =>
      have hfilled : (!(trim segment).isEmpty) = true := by
        have hread := readField_of_writes hfield
        cases htrim : trim segment with
        | nil =>
            rw [htrim] at hread
            cases hread
        | cons c rest => rfl
      have hfilter : ((segment :: rest).map trim).filter (fun field => !field.isEmpty) =
          trim segment :: (rest.map trim).filter fun field => !field.isEmpty :=
        List.filter_cons_of_pos hfilled
      rw [hfilter, List.mapM_cons, readField_of_writes hfield, ih]
      rfl

theorem fieldsOf_joinWith (h : WritesFields fields segments) :
    fieldsOf (joinWith [';'] segments) =
      (segments.map trim).filter fun field => !field.isEmpty := by
  have hsemicolon : isBlank ';' = false := by decide
  rw [fieldsOf]
  by_cases hne : segments = []
  · subst hne
    rfl
  · rw [map_trim_splitAll hsemicolon hne h.not_mem (padded_refl _)]

/-- **A written rule is read.** -/
theorem ofText_of_writes {text : String} (h : WritesFields fields segments)
    (htext : text.toList = joinWith [';'] segments) :
    ofText text = .ok (FieldMap.ofList (bindingsOf fields)) := by
  rw [ofText, htext, fieldsOf_joinWith h, mapM_readField h]
  rfl

/-- An expression that writes a description compiles to what the description compiles to. -/
theorem compile_text_of_writes {table : Aliases} (htable : table.WellNamed)
    {input : FrequencyInput} (h : input.Writes table expression) :
    (FrequencyInput.text (String.ofList (trim expression))).compile table =
      input.compile table := by
  cases input with
  | text _ => exact absurd h id
  | spec description =>
      have htrim : trim (String.ofList (trim expression)).toList = trim expression := by
        rw [String.toList_ofList, (padded_refl _).trim_eq (isTrimmed_trim expression)]
      have hread : (FrequencyInput.text (String.ofList (trim expression))).resolve table =
          (FrequencyInput.spec description).resolve table :=
        FrequencySpec.ofExpression_of_writes htable h htrim
      rw [FrequencyInput.compile, hread]
      rfl

/-- A field without blanks, its name as it is in the table of periods. -/
def plainField (field : Period × List Char) : List Char :=
  field.1.name.toList ++ '=' :: field.2

theorem writesFields_plain (h : ∀ field ∈ fields, ';' ∉ field.2) :
    WritesFields fields (fields.map plainField) := by
  induction fields with
  | nil => exact .nil
  | cons field rest ih =>
      have hfield : WritesField field.1 field.2 (plainField field) :=
        ⟨_, _, field.1.writesName_name, padded_refl _, rfl, h field List.mem_cons_self⟩
      exact .field hfield (ih fun field hmem => h field (List.mem_cons_of_mem _ hmem))

/-- The text is one of the frequency, and it does not end the field. -/
def WritesBinding (binding : Period × FrequencyInput) (field : Period × List Char) : Prop :=
  binding.1 = field.1 ∧ binding.2.Writes binding.1.aliases field.2 ∧ ';' ∉ field.2

theorem rel_lastBinding? {bindings : List (Period × FrequencyInput)}
    (h : List.Forall₂ WritesBinding bindings fields) :
    Option.Rel (FrequencyInput.Writes p.aliases) (FieldMap.lastBinding? p bindings)
      (FieldMap.lastBinding? p fields) := by
  induction h with
  | nil => exact .none
  | @cons _ _ bindings fields hhead _ ih =>
      obtain ⟨hperiod, hwrites, -⟩ := hhead
      rw [FieldMap.lastBinding?, FieldMap.lastBinding?, ← hperiod]
      generalize FieldMap.lastBinding? p bindings = bound,
        FieldMap.lastBinding? p fields = written at ih ⊢
      cases ih with
      | some hrel => exact .some hrel
      | none =>
          rw [Option.none_or, Option.none_or]
          split
          · next heq => exact .some (heq ▸ hwrites)
          · exact .none

/-- **Every rule of descriptions in the form that is written has a text.** -/
theorem exists_writes (rule : PatternInput)
    (h : ∀ binding ∈ rule.entries, ∃ description, binding.2 = .spec description ∧
      description.IsWritable) : ∃ text : String, Writes rule text.toList := by
  obtain ⟨fields, hfields⟩ : ∃ fields, List.Forall₂ WritesBinding rule.entries fields := by
    refine exists_forall₂ fun binding hbinding => ?_
    obtain ⟨description, hdescription, hwritable⟩ := h binding hbinding
    obtain ⟨s, hs⟩ := FrequencySpec.exists_writes binding.1.aliases hwritable
    refine ⟨(binding.1, s), rfl, ?_, hs.semicolon_not_mem binding.1.wellNamed_aliases⟩
    rw [hdescription]
    exact hs
  have hsemicolon : ∀ field ∈ fields, ';' ∉ field.2 := by
    intro field hfield
    obtain ⟨binding, -, -, hnot⟩ := exists_rel_of_mem hfields hfield
    exact hnot
  refine ⟨String.ofList (joinWith [';'] (fields.map plainField)), fields, _,
    writesFields_plain hsemicolon, String.toList_ofList, fun p => ?_⟩
  rw [← FieldMap.lastBinding?_entries]
  exact rel_lastBinding? hfields

end PatternInput

/-! ## Rules -/

namespace Pattern

/-- **A written rule compiles to what the rule compiles to.**  The text is read, and under all
options it gives the same pattern or the same error. -/
theorem compile_of_writes (rule : PatternInput) (text : String)
    (h : PatternInput.Writes rule text.toList) :
    ∃ input, PatternInput.ofText text = .ok input ∧
      ∀ options, Pattern.compile input options = Pattern.compile rule options := by
  obtain ⟨fields, segments, hfields, htext, hbinds⟩ := h
  refine ⟨_, PatternInput.ofText_of_writes hfields htext, fun options => ?_⟩
  rw [compile, compile, compileWith, compileWith]
  congr 1
  refine FieldMap.traverse_congr fun p => ?_
  rw [FieldMap.get?_ofList, PatternInput.lastBinding?_bindingsOf]
  have hbind := hbinds p
  generalize rule.get? p = bound, FieldMap.lastBinding? p fields = written at hbind ⊢
  cases hbind with
  | none => exact .none
  | some hwrites =>
      refine .some ?_
      rw [PatternInput.compile_text_of_writes p.wellNamed_aliases hwrites]

/-- Seven o'clock on weekdays and on the days -4 to -1, written with names, signs and blanks, and with
an hour that is replaced and was no expression. -/
theorem compile_of_writes_weekdays :
    ∃ input, PatternInput.ofText "hour = never;; Day_Of_Week= mon - FRI , -4--1 ;hour= 007" =
        .ok input ∧
      ∀ options, Pattern.compile input options = Pattern.compile
        ⟨[(.dayOfWeek, .spec (.ranges [(1, some 5), (-4, some (-1))])), (.hour, .spec (.single 7))],
          by decide⟩ options := by
  have hpadded : ∀ s before after : List Char, before.all isBlank = true →
      after.all isBlank = true → Padded s (before ++ s ++ after) :=
    fun s before after hbefore hafter =>
      ⟨before, after, List.all_eq_true.1 hbefore, List.all_eq_true.1 hafter, rfl⟩
  have hmonday : FrequencySpec.WritesPadded weekdayAliases 1 " mon ".toList :=
    ⟨"mon".toList, .inr ⟨"MON", by decide, by decide⟩, hpadded _ [' '] [' '] rfl rfl⟩
  have hfriday : FrequencySpec.WritesPadded weekdayAliases 5 " FRI ".toList :=
    ⟨"FRI".toList, .inr ⟨"FRI", by decide, by decide⟩, hpadded _ [' '] [' '] rfl rfl⟩
  have hfirst : FrequencySpec.WritesPadded weekdayAliases (-4) " -4".toList :=
    ⟨"-4".toList, .inl ⟨by decide, .inr ⟨4, ['4'], rfl, rfl, nofun, by decide, by decide⟩⟩,
      hpadded _ [' '] [] rfl rfl⟩
  have hlast : FrequencySpec.WritesPadded weekdayAliases (-1) "-1 ".toList :=
    ⟨"-1".toList, .inl ⟨by decide, .inr ⟨1, ['1'], rfl, rfl, nofun, by decide, by decide⟩⟩,
      hpadded _ [] [' '] rfl rfl⟩
  have hhour : FrequencySpec.WritesPadded [] 7 " 007".toList :=
    ⟨"007".toList, .inl ⟨by decide, .inl ⟨7, rfl, by decide, by decide, by decide⟩⟩,
      hpadded _ [' '] [] rfl rfl⟩
  have hreplaced : PatternInput.WritesField .hour " never".toList "hour = never".toList :=
    ⟨"hour".toList, _, by decide, hpadded _ [] [' '] rfl rfl, rfl, by decide⟩
  have hweekdays : PatternInput.WritesField .dayOfWeek " mon - FRI , -4--1 ".toList
      " Day_Of_Week= mon - FRI , -4--1 ".toList :=
    ⟨"Day_Of_Week".toList, _, by decide, hpadded _ [' '] [] rfl rfl, rfl, by decide⟩
  have hlater : PatternInput.WritesField .hour " 007".toList "hour= 007".toList :=
    ⟨"hour".toList, _, by decide, padded_refl _, rfl, by decide⟩
  refine compile_of_writes _ _ ⟨_, _,
    .field hreplaced (.blank allBlank_nil (.field hweekdays (.field hlater .nil))), by decide,
    fun p => ?_⟩
  cases p with
  | dayOfWeek =>
      have hitems : FrequencySpec.WritesItems weekdayAliases [(1, some 5), (-4, some (-1))]
          " mon - FRI , -4--1 ".toList :=
        ⟨nofun, [" mon - FRI ".toList, " -4--1 ".toList],
          .cons ⟨_, _, hmonday, hfriday, rfl⟩ (.cons ⟨_, _, hfirst, hlast, rfl⟩ .nil), rfl⟩
      exact .some ⟨⟨(1, some 5), by decide, rfl⟩, hitems⟩
  | hour => exact .some ⟨nofun, [" 007".toList], .cons hhour .nil, rfl⟩
  | week scope numbering => cases scope <;> cases numbering <;> exact .none
  | _ => exact .none

end Pattern

end Recurrence
