import Recurrence.Period.Basic

/-!
# Values bound to periods

A rule binds something to each of some periods: first the input for a frequency, then the frequency
compiled from it.  `FieldMap α` is such a set of bindings, **in the order in which the periods are
declared** and one binding for each period.  Binding a period again replaces what was bound to it, and
the order in which periods are bound does not show.

A search wants the bindings sorted by priority, the coarsest period first: these are `Bindings α`.
**Sorting changes nothing**, since the periods are declared from the coarsest to the finest.

## Main Definitions

* `FieldMap`, `FieldMap.empty`, `FieldMap.insert`, `FieldMap.get?`
* `FieldMap.insertAll`: several bindings in turn
* `FieldMap.traverse`: a function that may fail, applied to every binding from the first on
* `Bindings`, `FieldMap.byPriority`: bindings sorted by priority

## Main Statements

* `sortByPriority_eq_self`: bindings of decreasing priority are sorted
-/

namespace Recurrence

/-- Bindings of periods, in the order in which the periods are declared. -/
structure FieldMap (α : Type) where
  entries : List (Period × α)
  sorted : (entries.map Prod.fst).Pairwise fun p q => p.place < q.place

namespace FieldMap

variable {α β ε : Type}

instance [DecidableEq α] : DecidableEq (FieldMap α) := fun a b =>
  decidable_of_iff (a.entries = b.entries)
    ⟨fun h => by cases a; cases b; cases h; rfl, fun h => h ▸ rfl⟩

/-- No period is bound. -/
def empty : FieldMap α := ⟨[], by simp⟩

instance : Inhabited (FieldMap α) := ⟨empty⟩

/-- The bound periods, in the order in which they are declared. -/
def periods (m : FieldMap α) : List Period := m.entries.map Prod.fst

/-- The number of bound periods. -/
def size (m : FieldMap α) : Nat := m.entries.length

/-- Is no period bound? -/
def isEmpty (m : FieldMap α) : Bool := m.entries.isEmpty

/-- What is bound to a period. -/
def get? (m : FieldMap α) (p : Period) : Option α :=
  (m.entries.find? fun e => e.1 = p).map Prod.snd

/-- Puts a binding in its place, instead of the one that the period has. -/
def insertEntry (p : Period) (a : α) : List (Period × α) → List (Period × α)
  | [] => [(p, a)]
  | e :: rest =>
    if p.place < e.1.place then (p, a) :: e :: rest
    else if e.1 = p then (p, a) :: rest
    else e :: insertEntry p a rest

theorem mem_keys_insertEntry {p q : Period} {a : α} {entries : List (Period × α)} :
    q ∈ (insertEntry p a entries).map Prod.fst ↔ q = p ∨ q ∈ entries.map Prod.fst := by
  induction entries with
  | nil => simp [insertEntry]
  | cons e rest ih =>
    unfold insertEntry
    split
    · simp
    · split
      · next h => simp [h]
      · rw [List.map_cons, List.mem_cons, ih, List.map_cons, List.mem_cons, or_left_comm]

theorem pairwise_insertEntry {p : Period} {a : α} {entries : List (Period × α)}
    (h : (entries.map Prod.fst).Pairwise fun p q => p.place < q.place) :
    ((insertEntry p a entries).map Prod.fst).Pairwise fun p q => p.place < q.place := by
  induction entries with
  | nil => simp [insertEntry]
  | cons e rest ih =>
    obtain ⟨hhead, hrest⟩ := List.pairwise_cons.1 h
    unfold insertEntry
    split
    · next hlt =>
      refine List.pairwise_cons.2 ⟨fun q hq => ?_, h⟩
      rcases List.mem_cons.1 hq with rfl | hq
      · exact hlt
      · exact Nat.lt_trans hlt (hhead q hq)
    · next hnlt =>
      split
      · next heq =>
        subst heq
        exact List.pairwise_cons.2 ⟨hhead, hrest⟩
      · next hne =>
        refine List.pairwise_cons.2 ⟨fun q hq => ?_, ih hrest⟩
        rcases mem_keys_insertEntry.1 hq with rfl | hq
        · have := mt Period.place_inj hne
          omega
        · exact hhead q hq

/-- Binds `a` to `p`, instead of what is bound to it. -/
def insert (m : FieldMap α) (p : Period) (a : α) : FieldMap α :=
  ⟨insertEntry p a m.entries, pairwise_insertEntry m.sorted⟩

/-- Makes several bindings in turn. -/
def insertAll (m : FieldMap α) (bindings : List (Period × α)) : FieldMap α :=
  bindings.foldl (fun m b => m.insert b.1 b.2) m

/-- The bindings made in turn, from none. -/
def ofList (bindings : List (Period × α)) : FieldMap α := empty.insertAll bindings

/-- The results for the bindings from the first on, up to the first failure. -/
def traverseEntries (f : Period → α → Except ε β) :
    List (Period × α) → Except ε (List (Period × β))
  | [] => .ok []
  | e :: rest =>
    match f e.1 e.2 with
    | .error err => .error err
    | .ok b =>
      match traverseEntries f rest with
      | .error err => .error err
      | .ok results => .ok ((e.1, b) :: results)

theorem keys_traverseEntries {f : Period → α → Except ε β} {entries : List (Period × α)}
    {results : List (Period × β)} (h : traverseEntries f entries = .ok results) :
    results.map Prod.fst = entries.map Prod.fst := by
  induction entries generalizing results with
  | nil =>
    cases h
    rfl
  | cons e rest ih =>
    unfold traverseEntries at h
    split at h
    · cases h
    · split at h
      · cases h
      · next hrest =>
        cases h
        simp [ih hrest]

/-- Applies `f` to every binding in turn.  The first failure is the result. -/
def traverse (m : FieldMap α) (f : Period → α → Except ε β) : Except ε (FieldMap β) :=
  match h : traverseEntries f m.entries with
  | .error err => .error err
  | .ok results => .ok ⟨results, by rw [keys_traverseEntries h]; exact m.sorted⟩

/-- The periods of a field map are of decreasing priority. -/
theorem pairwise_priority (m : FieldMap α) :
    (m.entries.map Prod.fst).Pairwise fun p q => q.priority < p.priority :=
  m.sorted.imp Period.place_lt_iff.1

end FieldMap

/-! ## Bindings sorted by priority -/

/-- Bindings of periods, the coarsest first. -/
structure Bindings (α : Type) where
  entries : List (Period × α)
  sorted : (entries.map Prod.fst).Pairwise fun p q => q.priority < p.priority

/-- Puts a binding before the first one whose priority is not higher. -/
def insertByPriority {α : Type} (e : Period × α) : List (Period × α) → List (Period × α)
  | [] => [e]
  | e' :: rest =>
    if e'.1.priority ≤ e.1.priority then e :: e' :: rest else e' :: insertByPriority e rest

/-- Sorts bindings by priority, the highest first.  Those of one priority keep their order. -/
def sortByPriority {α : Type} : List (Period × α) → List (Period × α)
  | [] => []
  | e :: rest => insertByPriority e (sortByPriority rest)

/-- **Bindings of decreasing priority are sorted.** -/
theorem sortByPriority_eq_self {α : Type} {entries : List (Period × α)}
    (h : (entries.map Prod.fst).Pairwise fun p q => q.priority < p.priority) :
    sortByPriority entries = entries := by
  induction entries with
  | nil => rfl
  | cons e rest ih =>
    obtain ⟨hhead, hrest⟩ := List.pairwise_cons.1 h
    rw [sortByPriority, ih hrest]
    cases rest with
    | nil => rfl
    | cons e' rest => exact if_pos (Nat.le_of_lt (hhead e'.1 List.mem_cons_self))

/-- The bindings of a field map sorted by priority. -/
def FieldMap.byPriority {α : Type} (m : FieldMap α) : Bindings α :=
  ⟨sortByPriority m.entries, by
    rw [sortByPriority_eq_self m.pairwise_priority]
    exact m.pairwise_priority⟩

namespace Bindings

variable {α : Type}

instance [DecidableEq α] : DecidableEq (Bindings α) := fun a b =>
  decidable_of_iff (a.entries = b.entries)
    ⟨fun h => by cases a; cases b; cases h; rfl, fun h => h ▸ rfl⟩

/-- The bound periods, the coarsest first. -/
def periods (b : Bindings α) : List Period := b.entries.map Prod.fst

/-- Is no period bound? -/
def isEmpty (b : Bindings α) : Bool := b.entries.isEmpty

/-- What is bound to a period. -/
def get? (b : Bindings α) (p : Period) : Option α :=
  (b.entries.find? fun e => e.1 = p).map Prod.snd

end Bindings

end Recurrence
