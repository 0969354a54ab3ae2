import Mathlib.Data.List.Forall2
import Recurrence.Pattern.Fields

/-!
# What a field map binds

A field map is told by what it binds to each period, `FieldMap.get?`: its entries are in order, so
**there is one list of entries for each such function**.  Bindings made in turn bind to a period what
the last of them does, and what is computed from the entries one by one is fixed by the bindings.

## Main Definitions

* `FieldMap.lastBinding?`: what the last of some bindings of a period binds to it

## Main Statements

* `FieldMap.get?_insert`, `FieldMap.get?_ofList`
* `FieldMap.forall₂_entries`: field maps that bind related values have related entries
* `FieldMap.traverse_congr`: the results of a function that may fail are fixed by the bindings
-/

namespace Recurrence

namespace FieldMap

variable {α β γ ε : Type} {p q : Period} {a : α}

/-! ## Bindings made in turn -/

/-- What a list of entries binds to a period. -/
def find? (p : Period) (entries : List (Period × α)) : Option α :=
  (entries.find? fun e => e.1 = p).map Prod.snd

theorem find?_cons (e : Period × α) (entries : List (Period × α)) :
    find? p (e :: entries) = if e.1 = p then some e.2 else find? p entries := by
  unfold find?
  by_cases h : e.1 = p
  · rw [List.find?_cons_of_pos (by simpa using h), if_pos h]
    rfl
  · rw [List.find?_cons_of_neg (by simpa using h), if_neg h]

theorem find?_insertEntry (entries : List (Period × α)) :
    find? q (insertEntry p a entries) = if p = q then some a else find? q entries := by
  induction entries with
  | nil => exact find?_cons (p, a) []
  | cons e rest ih =>
      unfold insertEntry
      split
      · exact find?_cons (p, a) (e :: rest)
      · split
        · next heq =>
            subst heq
            rw [find?_cons, find?_cons]
            split
            · rfl
            · rfl
        · next hne =>
            rw [find?_cons, find?_cons, ih]
            split
            · next heq =>
                subst heq
                rw [if_neg (Ne.symm hne)]
            · rfl

/-- **Binding a period replaces what is bound to it**, and nothing else. -/
theorem get?_insert (m : FieldMap α) :
    (m.insert p a).get? q = if p = q then some a else m.get? q :=
  find?_insertEntry m.entries

/-- What the last of some bindings of a period binds to it. -/
def lastBinding? (p : Period) : List (Period × α) → Option α
  | [] => none
  | binding :: later =>
    (lastBinding? p later).or (if binding.1 = p then some binding.2 else none)

theorem get?_insertAll (m : FieldMap α) (bindings : List (Period × α)) :
    (m.insertAll bindings).get? p = (lastBinding? p bindings).or (m.get? p) := by
  induction bindings generalizing m with
  | nil => rfl
  | cons binding later ih =>
      have hstep : m.insertAll (binding :: later) =
          (m.insert binding.1 binding.2).insertAll later := rfl
      rw [hstep, ih, get?_insert, lastBinding?]
      split
      · cases lastBinding? p later <;> rfl
      · cases lastBinding? p later <;> rfl

/-- **Of bindings made in turn the last one holds.** -/
theorem get?_ofList (bindings : List (Period × α)) :
    (ofList bindings).get? p = lastBinding? p bindings := by
  rw [ofList, get?_insertAll]
  exact Option.or_none

theorem lastBinding?_map (f : α → β) (bindings : List (Period × α)) :
    lastBinding? p (bindings.map fun b => (b.1, f b.2)) = (lastBinding? p bindings).map f := by
  induction bindings with
  | nil => rfl
  | cons binding later ih =>
      rw [List.map_cons, lastBinding?, lastBinding?, ih, Option.map_or]
      split <;> rfl

/-! ## Related bindings -/

theorem find?_eq_none_of_lt {entries : List (Period × α)}
    (h : ∀ q ∈ entries.map Prod.fst, q.priority < p.priority) : find? p entries = none := by
  induction entries with
  | nil => rfl
  | cons e rest ih =>
      rw [find?_cons, if_neg]
      · exact ih fun q hq => h q (List.mem_cons_of_mem _ hq)
      · rintro rfl
        exact Nat.lt_irrefl _ (h e.1 List.mem_cons_self)

/-- A period that is coarser than the coarsest bound one is not bound. -/
theorem find?_cons_eq_none {e : Period × α} {rest : List (Period × α)}
    (hhead : ∀ q ∈ rest.map Prod.fst, q.priority < e.1.priority) (h : e.1.priority < p.priority) :
    find? p (e :: rest) = none := by
  refine find?_eq_none_of_lt fun q hq => ?_
  rcases List.mem_cons.1 hq with rfl | hq
  · exact h
  · exact Nat.lt_trans (hhead q hq) h

/-- **Sorted entries that bind related values to each period are related one by one.** -/
theorem forall₂_entries {R : Period → α → β → Prop} {entries : List (Period × α)}
    {entries' : List (Period × β)}
    (hsorted : (entries.map Prod.fst).Pairwise fun p q => q.priority < p.priority)
    (hsorted' : (entries'.map Prod.fst).Pairwise fun p q => q.priority < p.priority)
    (h : ∀ p, Option.Rel (R p) (find? p entries) (find? p entries')) :
    List.Forall₂ (fun e e' => e.1 = e'.1 ∧ R e.1 e.2 e'.2) entries entries' := by
  induction entries generalizing entries' with
  | nil =>
      cases entries' with
      | nil => exact .nil
      | cons e' rest' =>
          have hrel := h e'.1
          rw [find?_cons, if_pos rfl] at hrel
          cases hrel
  | cons e rest ih =>
      cases entries' with
      | nil =>
          have hrel := h e.1
          rw [find?_cons, if_pos rfl] at hrel
          cases hrel
      | cons e' rest' =>
          obtain ⟨hhead, hrest⟩ := List.pairwise_cons.1 hsorted
          obtain ⟨hhead', hrest'⟩ := List.pairwise_cons.1 hsorted'
          -- the coarsest period of one list is bound in the other, and so it is the coarsest there
          have heq : e.1 = e'.1 := by
            refine Period.priority_inj (Nat.le_antisymm ?_ ?_)
            · by_contra hlt
              have hrel := h e.1
              rw [find?_cons, if_pos rfl, find?_cons_eq_none hhead' (Nat.not_le.1 hlt)] at hrel
              cases hrel
            · by_contra hlt
              have hrel := h e'.1
              rw [find?_cons e', if_pos rfl, find?_cons_eq_none hhead (Nat.not_le.1 hlt)] at hrel
              cases hrel
          have hvalue := h e.1
          rw [find?_cons, if_pos rfl, find?_cons, if_pos heq.symm] at hvalue
          refine .cons ⟨heq, ?_⟩ (ih hrest hrest' fun p => ?_)
          · cases hvalue with
            | some hrel => exact hrel
          · by_cases hp : e.1 = p
            · subst hp
              rw [find?_eq_none_of_lt hhead, find?_eq_none_of_lt (heq ▸ hhead')]
              exact .none
            · have hrel := h p
              rwa [find?_cons, if_neg hp, find?_cons, if_neg (heq ▸ hp)] at hrel

/-- The entries of a field map, bound in turn, bind what it binds. -/
theorem lastBinding?_entries (m : FieldMap α) : lastBinding? p m.entries = m.get? p := by
  have hlast {entries : List (Period × α)}
      (hsorted : (entries.map Prod.fst).Pairwise fun p q => q.priority < p.priority) :
      lastBinding? p entries = find? p entries := by
    induction entries with
    | nil => rfl
    | cons e rest ih =>
        obtain ⟨hhead, hrest⟩ := List.pairwise_cons.1 hsorted
        rw [lastBinding?, find?_cons, ih hrest]
        split
        · next heq => rw [find?_eq_none_of_lt (heq ▸ hhead), Option.none_or]
        · exact Option.or_none
  exact hlast m.pairwise_priority

variable {f : Period → α → Except ε γ} {g : Period → β → Except ε γ}

theorem traverseEntries_congr {entries : List (Period × α)} {entries' : List (Period × β)}
    (h : List.Forall₂ (fun e e' => e.1 = e'.1 ∧ f e.1 e.2 = g e.1 e'.2) entries entries') :
    traverseEntries f entries = traverseEntries g entries' := by
  induction h with
  | nil => rfl
  | cons hhead _ ih =>
      obtain ⟨hperiod, hresult⟩ := hhead
      rw [traverseEntries, traverseEntries, hresult, ih, hperiod]

/-- The results are fixed by the results for the entries. -/
theorem traverse_congr_entries {m : FieldMap α} {m' : FieldMap β}
    (h : traverseEntries f m.entries = traverseEntries g m'.entries) :
    m.traverse f = m'.traverse g := by
  unfold traverse
  split
  · next err herr =>
      split
      · next err' herr' =>
          rw [← h, herr] at herr'
          cases herr'
          rfl
      · next hok =>
          rw [← h, herr] at hok
          cases hok
  · next results hok =>
      split
      · next herr =>
          rw [← h, hok] at herr
          cases herr
      · next results' hok' =>
          rw [← h, hok] at hok'
          cases hok'
          rfl

/-- **What is computed from the bindings one by one is fixed by the bindings.** -/
theorem traverse_congr {m : FieldMap α} {m' : FieldMap β}
    (h : ∀ p, Option.Rel (fun a b => f p a = g p b) (m.get? p) (m'.get? p)) :
    m.traverse f = m'.traverse g :=
  traverse_congr_entries (traverseEntries_congr (forall₂_entries m.pairwise_priority m'.pairwise_priority h))

end FieldMap

end Recurrence
