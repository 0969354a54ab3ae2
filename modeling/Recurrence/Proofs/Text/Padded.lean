import Mathlib.Data.List.DropRight
import Recurrence.Text.Blank
import Recurrence.Text.Split

/-!
# Blanks around parts

Texts are cut at separators and the parts are trimmed, and in a rule this is done three times over:
fields, expressions, items.  **Blanks never decide where a text is cut.**  A text padded with blanks
has the separators of the text itself, and the parts between them are padded parts.  So it makes no
difference whether a text is trimmed before it is cut or the parts are afterwards.

## Main Definitions

* `AllBlank`: a text of blanks
* `Padded`: a text with blanks around it

## Main Statements

* `Padded.trim_eq`, `Padded.trim_congr`: trimming undoes padding
* `Padded.exists_parts`: the parts of a padded text around a separator are padded
* `joinWith_splitAll`: the parts between separators make up the text
* `map_trim_splitAll`: the parts of a padded text, trimmed
-/

namespace Recurrence.Text

variable {a b s text part : List Char} {sep : Char}

/-! ## Padding -/

/-- A text of blanks. -/
def AllBlank (s : List Char) : Prop := ∀ c ∈ s, isBlank c = true

/-- The text `s` with blanks before and after it. -/
def Padded (s text : List Char) : Prop :=
  ∃ before after, AllBlank before ∧ AllBlank after ∧ text = before ++ s ++ after

theorem allBlank_nil : AllBlank [] := by
  intro c hc
  cases hc

theorem AllBlank.append (ha : AllBlank a) (hb : AllBlank b) : AllBlank (a ++ b) := by
  intro c hc
  rcases List.mem_append.1 hc with hc | hc
  · exact ha c hc
  · exact hb c hc

theorem AllBlank.not_mem (h : AllBlank s) (hsep : isBlank sep = false) : sep ∉ s := by
  intro hmem
  rw [h sep hmem] at hsep
  cases hsep

theorem padded_refl (s : List Char) : Padded s s :=
  ⟨[], [], allBlank_nil, allBlank_nil, (List.append_nil s).symm⟩

theorem Padded.trans (h : Padded a b) (h' : Padded b text) : Padded a text := by
  obtain ⟨before, after, hbefore, hafter, rfl⟩ := h
  obtain ⟨before', after', hbefore', hafter', rfl⟩ := h'
  refine ⟨before' ++ before, after ++ after', hbefore'.append hbefore, hafter.append hafter', ?_⟩
  simp only [List.append_assoc]

/-- The characters of a padded text are its own and blanks. -/
theorem Padded.mem (h : Padded s text) {c : Char} (hc : c ∈ text) : c ∈ s ∨ isBlank c = true := by
  obtain ⟨before, after, hbefore, hafter, rfl⟩ := h
  simp only [List.mem_append] at hc
  rcases hc with (hc | hc) | hc
  · exact .inr (hbefore c hc)
  · exact .inl hc
  · exact .inr (hafter c hc)

theorem Padded.subset (h : Padded s text) : s ⊆ text := by
  obtain ⟨before, after, -, -, rfl⟩ := h
  intro c hc
  simp [hc]

theorem trimLeft_eq_self (h : ∀ c, s.head? = some c → isBlank c = false) : trimLeft s = s := by
  cases s with
  | nil => rfl
  | cons c s => exact List.dropWhile_cons_of_neg (by simp [h c rfl])

theorem trimLeft_append (h : AllBlank a) : trimLeft (a ++ s) = trimLeft s :=
  List.dropWhile_append_of_pos h

/-- **Trimming a padded text gives the text**, if it neither begins nor ends with a blank. -/
theorem Padded.trim_eq (h : Padded s text) (hs : IsTrimmed s) : trim text = s := by
  obtain ⟨before, after, hbefore, hafter, rfl⟩ := h
  have hafter' : AllBlank after.reverse := fun c hc => hafter c (List.mem_reverse.1 hc)
  rw [trim, List.append_assoc, trimLeft_append hbefore]
  cases s with
  | nil =>
      have hnil : trimLeft after = [] := List.dropWhile_eq_nil_iff.2 hafter
      rw [List.nil_append, hnil]
      rfl
  | cons c s =>
      have hleft : trimLeft (c :: s ++ after) = c :: s ++ after :=
        trimLeft_eq_self fun c' hc' => hs.1 c' hc'
      rw [hleft, List.reverse_append, trimLeft_append hafter']
      rw [trimLeft_eq_self fun c' hc' => hs.2 c' (by rwa [List.head?_reverse] at hc'),
        List.reverse_reverse]

theorem trim_eq_rdropWhile (s : List Char) :
    trim s = (s.dropWhile isBlank).rdropWhile isBlank := rfl

theorem isTrimmed_singleton {c : Char} (h : isBlank c = false) : IsTrimmed [c] := by
  refine ⟨fun d hd => ?_, fun d hd => ?_⟩
  · cases hd
    exact h
  · cases hd
    exact h

theorem isTrimmed_trim (s : List Char) : IsTrimmed (trim s) := by
  rw [trim_eq_rdropWhile]
  refine ⟨fun c hc => ?_, fun c hc => ?_⟩
  · have hprefix := List.rdropWhile_prefix isBlank (l := s.dropWhile isBlank)
    have hhead : (s.dropWhile isBlank).head? = some c := by
      obtain ⟨rest, hrest⟩ := List.head?_eq_some_iff.1 hc
      rw [hrest] at hprefix
      obtain ⟨suffix, hsuffix⟩ := hprefix
      rw [← hsuffix]
      rfl
    have hnot := List.head?_dropWhile_not isBlank s
    rw [hhead] at hnot
    exact hnot
  · obtain ⟨init, hinit⟩ := List.getLast?_eq_some_iff.1 hc
    have hne : (s.dropWhile isBlank).rdropWhile isBlank ≠ [] := by
      rw [hinit]
      exact List.concat_ne_nil c init
    have hnot := List.rdropWhile_last_not isBlank _ hne
    simp only [hinit, List.getLast_append_singleton] at hnot
    exact Bool.eq_false_iff.2 hnot

theorem padded_trim (s : List Char) : Padded (trim s) s := by
  refine ⟨s.takeWhile isBlank, (s.dropWhile isBlank).rtakeWhile isBlank,
    fun c hc => List.mem_takeWhile_imp hc, fun c hc => List.mem_rtakeWhile_imp hc, ?_⟩
  rw [trim_eq_rdropWhile, List.append_assoc, List.rdropWhile_append_rtakeWhile,
    List.takeWhile_append_dropWhile]

/-- Padding does not show once it is trimmed. -/
theorem Padded.trim_congr (h : Padded s text) : trim text = trim s :=
  ((padded_trim s).trans h).trim_eq (isTrimmed_trim s)

theorem trim_eq_nil_iff : trim s = [] ↔ AllBlank s := by
  constructor
  · intro h c hc
    rcases (padded_trim s).mem hc with hmem | hblank
    · rw [h] at hmem
      cases hmem
    · exact hblank
  · intro h
    have hpadded : Padded [] s := ⟨s, [], h, allBlank_nil, by simp⟩
    exact hpadded.trim_eq ⟨nofun, nofun⟩

/-! ## Separators -/

theorem cut?_append_cons (h : sep ∉ a) : cut? sep (a ++ sep :: b) = some (a, b) := by
  induction a with
  | nil => simp [cut?]
  | cons c a ih =>
      obtain ⟨hc, ha⟩ := not_or.1 (mt List.mem_cons.2 h)
      rw [List.cons_append, cut?, if_neg (Ne.symm hc), ih ha]
      rfl

theorem splitAll_of_not_mem (h : sep ∉ s) : splitAll sep s = [s] := by
  induction s with
  | nil => rfl
  | cons c s ih =>
      obtain ⟨hc, hs⟩ := not_or.1 (mt List.mem_cons.2 h)
      rw [splitAll, if_neg (Ne.symm hc), ih hs]

theorem splitAll_append_cons (h : sep ∉ a) : splitAll sep (a ++ sep :: b) = a :: splitAll sep b := by
  induction a with
  | nil => simp [splitAll]
  | cons c a ih =>
      obtain ⟨hc, ha⟩ := not_or.1 (mt List.mem_cons.2 h)
      rw [List.cons_append, splitAll, if_neg (Ne.symm hc), ih ha]

/-- Parts that are joined are the parts of what they make up, if the separator is in none of them. -/
theorem splitAll_intercalate {parts : List (List Char)} (hne : parts ≠ [])
    (h : ∀ part ∈ parts, sep ∉ part) : splitAll sep (List.intercalate [sep] parts) = parts := by
  induction parts with
  | nil => exact absurd rfl hne
  | cons part rest ih =>
      obtain ⟨hpart, hrest⟩ := List.forall_mem_cons.1 h
      cases rest with
      | nil => rw [List.intercalate_singleton, splitAll_of_not_mem hpart]
      | cons next rest =>
          rw [List.intercalate_cons_cons, List.append_assoc, List.singleton_append,
            splitAll_append_cons hpart, ih (List.cons_ne_nil next rest) hrest]

/-- **The parts with the separator between them make up the text**, and it is in none of them. -/
theorem joinWith_splitAll (sep : Char) (s : List Char) :
    joinWith [sep] (splitAll sep s) = s ∧ ∀ part ∈ splitAll sep s, sep ∉ part := by
  induction s with
  | nil => exact ⟨rfl, by simp [splitAll]⟩
  | cons c s ih =>
      obtain ⟨hjoin, hparts⟩ := ih
      obtain ⟨part, parts, hsplit⟩ := List.exists_cons_of_ne_nil (splitAll_ne_nil sep s)
      rw [hsplit] at hjoin hparts
      rw [splitAll, hsplit]
      split
      · next hc =>
          refine ⟨?_, List.forall_mem_cons.2 ⟨List.not_mem_nil, hparts⟩⟩
          show sep :: joinWith [sep] (part :: parts) = c :: s
          rw [hjoin, hc]
      · next hc =>
          obtain ⟨hpart, hparts⟩ := List.forall_mem_cons.1 hparts
          refine ⟨?_, List.forall_mem_cons.2 ⟨List.not_mem_cons_of_ne_of_not_mem (Ne.symm hc) hpart,
            hparts⟩⟩
          rw [← hjoin]
          cases parts <;> rfl

theorem mem_joinWith {sep : List Char} {parts : List (List Char)} {c : Char}
    (h : c ∈ joinWith sep parts) : c ∈ sep ∨ ∃ part ∈ parts, c ∈ part := by
  induction parts with
  | nil => cases h
  | cons part rest ih =>
      cases rest with
      | nil => exact .inr ⟨part, List.mem_cons_self, h⟩
      | cons next rest =>
          have hjoin : c ∈ part ++ sep ++ joinWith sep (next :: rest) := h
          rcases List.mem_append.1 hjoin with hc | hc
          · rcases List.mem_append.1 hc with hc | hc
            · exact .inr ⟨part, List.mem_cons_self, hc⟩
            · exact .inl hc
          · obtain hc | ⟨q, hq, hc⟩ := ih hc
            · exact .inl hc
            · exact .inr ⟨q, List.mem_cons_of_mem _ hq, hc⟩

theorem mem_joinWith_of_mem (sep : List Char) {parts : List (List Char)} (hpart : part ∈ parts)
    {c : Char} (hc : c ∈ part) : c ∈ joinWith sep parts := by
  induction parts with
  | nil => cases hpart
  | cons head rest ih =>
      cases rest with
      | nil =>
          rw [List.mem_singleton] at hpart
          exact hpart ▸ hc
      | cons next rest =>
          show c ∈ head ++ sep ++ joinWith sep (next :: rest)
          rcases List.mem_cons.1 hpart with rfl | hpart
          · simp [hc]
          · exact List.mem_append_right _ (ih hpart)

/-- **The parts of a padded text around a separator are padded.** -/
theorem Padded.exists_parts (h : Padded text (a ++ sep :: b)) (hsep : isBlank sep = false) :
    ∃ a' b', text = a' ++ sep :: b' ∧ Padded a' a ∧ Padded b' b := by
  obtain ⟨before, after, hbefore, hafter, heq⟩ := h
  rw [List.append_assoc] at heq
  -- the separator lies neither in the blanks before the text nor in those after it
  obtain ⟨a', rfl, hrest⟩ : ∃ a', a = before ++ a' ∧ text ++ after = a' ++ sep :: b := by
    rcases List.append_eq_append_iff.1 heq with ⟨c, hc, hrest⟩ | ⟨c, hc, hrest⟩
    · cases c with
      | nil => exact ⟨[], by simpa using hc.symm, hrest.symm⟩
      | cons x c =>
          obtain ⟨rfl, -⟩ := List.cons.inj hrest
          exact absurd (hc ▸ List.mem_append_right a List.mem_cons_self) (hbefore.not_mem hsep)
    · exact ⟨c, hc, hrest⟩
  obtain ⟨b', rfl, htext⟩ : ∃ b', b = b' ++ after ∧ text = a' ++ sep :: b' := by
    rcases List.append_eq_append_iff.1 hrest with ⟨c, hc, hrest'⟩ | ⟨c, hc, hrest'⟩
    · have hmem : sep ∈ after := hrest' ▸ List.mem_append_right c List.mem_cons_self
      exact absurd hmem (hafter.not_mem hsep)
    · cases c with
      | nil =>
          have hmem : sep ∈ after := by
            rw [List.nil_append] at hrest'
            rw [← hrest']
            exact List.mem_cons_self
          exact absurd hmem (hafter.not_mem hsep)
      | cons x c =>
          obtain ⟨rfl, hb⟩ := List.cons.inj hrest'
          exact ⟨c, hb, hc⟩
  exact ⟨a', b', htext, ⟨before, [], hbefore, allBlank_nil, by simp⟩,
    ⟨[], after, allBlank_nil, hafter, rfl⟩⟩

/-- **The parts of a padded text, trimmed, are those of the text.** -/
theorem map_trim_splitAll {parts : List (List Char)} (hsep : isBlank sep = false)
    (hne : parts ≠ []) (hparts : ∀ part ∈ parts, sep ∉ part)
    (h : Padded text (joinWith [sep] parts)) :
    (splitAll sep text).map trim = parts.map trim := by
  induction parts generalizing text with
  | nil => exact absurd rfl hne
  | cons part rest ih =>
      have hpart := hparts part List.mem_cons_self
      cases rest with
      | nil =>
          have hsingle : Padded text part := h
          have hnot : sep ∉ text := fun hmem => hpart (hsingle.subset hmem)
          rw [splitAll_of_not_mem hnot, List.map_singleton, List.map_singleton, hsingle.trim_congr]
      | cons next rest =>
          have hjoin : joinWith [sep] (part :: next :: rest) =
              part ++ sep :: joinWith [sep] (next :: rest) := List.append_assoc _ _ _
          rw [hjoin] at h
          obtain ⟨part', text', rfl, hpart', htext'⟩ := h.exists_parts hsep
          have hnot : sep ∉ part' := fun hmem => hpart (hpart'.subset hmem)
          rw [splitAll_append_cons hnot, List.map_cons, List.map_cons, ← hpart'.trim_congr,
            ih (List.cons_ne_nil _ _) (fun p hp => hparts p (List.mem_cons_of_mem _ hp)) htext']

end Recurrence.Text
