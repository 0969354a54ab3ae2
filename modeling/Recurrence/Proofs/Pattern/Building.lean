import Mathlib.Data.List.Sort
import Recurrence.Pattern.Basic
import Recurrence.Proofs.FirstError
import Recurrence.Proofs.Pattern.Fields

/-!
# Building patterns

A rule is put together by binding periods, one at a time or several at once, and then it is compiled.
**What comes of it is told by the last binding of each period.**  If all of them compile, the pattern has
the compiled ones from the coarsest period on, and this is the order in which the periods are listed.  If
some do not, the coarsest of these is reported with its own error.

A rule keeps its bindings in the order in which the periods are declared, and a pattern sorts them by
priority.  The two orders are one: the first binding that fails is the coarsest one, and what is sorted is
what was compiled.

## Main Definitions

* `PatternInput.Operation`, `PatternInput.build`: the ways to bind periods, and a rule put together

## Main Statements

* `FieldMap.periods_eq_filter`: the bound periods, in the order in which periods are listed
* `FieldMap.traverse_eq_ok`, `FieldMap.traverse_eq_error`: a function that may fail, applied to bindings
* `FieldMap.get?_byPriority`: sorting by priority changes no binding
* `PatternInput.get?_build`: of all the bindings made the last one holds
* `Pattern.compileWith_eq_ok`, `Pattern.compileWith_eq_error`: what comes of a rule
-/

namespace Recurrence

/-! ## Bindings -/

namespace FieldMap

variable {α β ε : Type} {f : Period → α → Except ε β} {err : ε} {p : Period} {a : α}

theorem find?_eq_some_iff {entries : List (Period × α)}
    (hsorted : (entries.map Prod.fst).Pairwise fun p q => q.priority < p.priority) :
    find? p entries = some a ↔ (p, a) ∈ entries := by
  induction entries with
  | nil => exact ⟨nofun, nofun⟩
  | cons e rest ih =>
      obtain ⟨hhead, hrest⟩ := List.pairwise_cons.1 hsorted
      rw [find?_cons, List.mem_cons]
      by_cases hp : e.1 = p
      · subst hp
        have hnot : (e.1, a) ∉ rest := fun hmem =>
          Nat.lt_irrefl _ (hhead e.1 (List.mem_map.2 ⟨_, hmem, rfl⟩))
        rw [if_pos rfl, or_iff_left hnot, Option.some_inj, Prod.ext_iff]
        exact ⟨fun h => ⟨rfl, h.symm⟩, fun h => h.2.symm⟩
      · rw [if_neg hp, ih hrest, or_iff_right]
        rintro rfl
        exact hp rfl

/-- The entries are the bindings. -/
theorem get?_eq_some_iff (m : FieldMap α) : m.get? p = some a ↔ (p, a) ∈ m.entries :=
  find?_eq_some_iff m.pairwise_priority

/-- A field map is told by what it binds to each period. -/
theorem ext_get? {m m' : FieldMap α} (h : ∀ p, m.get? p = m'.get? p) : m = m' := by
  have hentries := forall₂_entries (R := fun _ a b => a = b) m.pairwise_priority
      m'.pairwise_priority fun p => by
    show Option.Rel _ (m.get? p) (m'.get? p)
    rw [h p]
    cases m'.get? p with
    | none => exact .none
    | some a => exact .some rfl
  have heq : m.entries = m'.entries :=
    List.forall₂_eq_eq_eq ▸ hentries.imp fun _ _ he => Prod.ext he.1 he.2
  cases m
  cases m'
  cases heq
  rfl

theorem mem_periods_iff (m : FieldMap α) : p ∈ m.periods ↔ (m.get? p).isSome = true := by
  rw [Option.isSome_iff_exists, periods, List.mem_map]
  simp only [get?_eq_some_iff, Prod.exists, exists_and_right, exists_eq_right]

/-- **The bound periods stand in the order of all periods**, from the coarsest on. -/
theorem periods_eq_filter (m : FieldMap α) :
    m.periods = Period.all.filter fun p => (m.get? p).isSome := by
  have : Std.Irrefl fun p q : Period => q.priority < p.priority := ⟨fun _ => Nat.lt_irrefl _⟩
  have : Std.Antisymm fun p q : Period => q.priority < p.priority :=
    ⟨fun _ _ h h' => absurd h (Nat.lt_asymm h')⟩
  refine m.pairwise_priority.eq_of_mem_iff (Period.pairwise_priority_all.filter _) fun p => ?_
  rw [List.mem_filter]
  exact m.mem_periods_iff.trans (and_iff_right p.mem_all).symm

/-! ## Functions that may fail -/

theorem traverseEntries_eq_mapM (entries : List (Period × α)) :
    traverseEntries f entries = entries.mapM fun e => do
      let b ← f e.1 e.2
      return (e.1, b) := by
  induction entries with
  | nil => rfl
  | cons e rest ih =>
      rw [traverseEntries, List.mapM_cons, ← ih]
      cases f e.1 e.2 with
      | error err => rfl
      | ok b => cases traverseEntries f rest <;> rfl

theorem map_entries_traverse (m : FieldMap α) :
    (m.traverse f).map entries = traverseEntries f m.entries := by
  unfold traverse
  split
  · next herr => exact herr.symm
  · next hresults => exact hresults.symm

theorem rel_find?_of_forall₂ {R : Period → α → β → Prop} {entries : List (Period × α)}
    {entries' : List (Period × β)}
    (h : List.Forall₂ (fun e e' => e.1 = e'.1 ∧ R e.1 e.2 e'.2) entries entries') (p : Period) :
    Option.Rel (R p) (find? p entries) (find? p entries') := by
  induction h with
  | nil => exact .none
  | @cons e e' _ _ hhead _ ih =>
      obtain ⟨hperiod, hrel⟩ := hhead
      rw [find?_cons, find?_cons, ← hperiod]
      split
      · next hp => exact .some (hp ▸ hrel)
      · exact ih

/-- **A function is applied to each binding.** -/
theorem traverse_eq_ok {m : FieldMap α} {m' : FieldMap β} :
    m.traverse f = .ok m' ↔
      ∀ p, Option.Rel (fun a b => f p a = .ok b) (m.get? p) (m'.get? p) := by
  have hentries : m.traverse f = .ok m' ↔ traverseEntries f m.entries = .ok m'.entries := by
    rw [← map_entries_traverse]
    cases m.traverse f with
    | error err => exact ⟨nofun, nofun⟩
    | ok results =>
        constructor
        · rintro ⟨⟩
          rfl
        · intro h
          cases results
          cases m'
          cases h
          rfl
  have hentry : ∀ (e : Period × α) (e' : Period × β),
      (do let b ← f e.1 e.2; return (e.1, b)) = Except.ok e' ↔
        e.1 = e'.1 ∧ f e.1 e.2 = .ok e'.2 := by
    rintro ⟨p, a⟩ ⟨q, b⟩
    rw [bind_eq_ok]
    constructor
    · rintro ⟨_, hb, ⟨⟩⟩
      exact ⟨rfl, hb⟩
    · rintro ⟨rfl, hb⟩
      exact ⟨b, hb, rfl⟩
  rw [hentries, traverseEntries_eq_mapM, mapM_eq_ok]
  simp only [hentry]
  exact ⟨rel_find?_of_forall₂ (R := fun p a b => f p a = .ok b),
    forall₂_entries m.pairwise_priority m'.pairwise_priority⟩

/-- A function that fails does so with the error of the first entry for which it fails. -/
theorem traverse_eq_error_iff_entries {m : FieldMap α} :
    m.traverse f = .error err ↔ FirstError (fun e => f e.1 e.2) m.entries err := by
  have hentries : m.traverse f = .error err ↔ traverseEntries f m.entries = .error err := by
    rw [← map_entries_traverse]
    cases m.traverse f with
    | error err' => rw [Except.map, Except.error.injEq, Except.error.injEq]
    | ok results => exact ⟨nofun, nofun⟩
  rw [hentries, traverseEntries_eq_mapM, mapM_eq_error]
  simp only [FirstError, bind_pure_eq_error, exists_bind_pure_eq_ok]

/-- **The coarsest binding for which the function fails gives the error.** -/
theorem traverse_eq_error {m : FieldMap α} :
    m.traverse f = .error err ↔
      ∃ p a, m.get? p = some a ∧ f p a = .error err ∧
        ∀ q b, p.priority < q.priority → m.get? q = some b → ∃ c, f q b = .ok c := by
  rw [traverse_eq_error_iff_entries]
  simp only [get?_eq_some_iff]
  have hsorted := m.pairwise_priority
  constructor
  · rintro ⟨before, ⟨p, a⟩, after, hsplit, hbefore, ha⟩
    rw [hsplit] at hsorted ⊢
    refine ⟨p, a, by simp, ha, fun q b hcoarser hb => hbefore (q, b) ?_⟩
    rw [List.map_append, List.map_cons, List.pairwise_append, List.pairwise_cons] at hsorted
    rcases List.mem_append.1 hb with hb | hb
    · exact hb
    · -- what comes after `p` is finer
      rcases List.mem_cons.1 hb with hb | hb
      · cases hb
        exact absurd hcoarser (Nat.lt_irrefl _)
      · exact absurd hcoarser (Nat.lt_asymm (hsorted.2.1.1 q (List.mem_map_of_mem hb)))
  · rintro ⟨p, a, ha, herror, hcoarser⟩
    obtain ⟨before, after, hsplit⟩ := List.append_of_mem ha
    refine ⟨before, (p, a), after, hsplit, fun x hx => ?_, herror⟩
    rw [hsplit, List.map_append, List.map_cons, List.pairwise_append] at hsorted
    refine hcoarser x.1 x.2 (hsorted.2.2 x.1 (List.mem_map_of_mem hx) p List.mem_cons_self) ?_
    rw [hsplit]
    exact List.mem_append_left _ hx

end FieldMap

/-! ## Sorting -/

namespace Bindings

variable {α : Type}

/-- Sorted bindings as a field map: the order is the same. -/
def toFieldMap (b : Bindings α) : FieldMap α := ⟨b.entries, b.sorted.imp Period.place_lt_iff.2⟩

theorem byPriority_toFieldMap (b : Bindings α) : b.toFieldMap.byPriority = b := by
  unfold FieldMap.byPriority toFieldMap
  simp only [sortByPriority_eq_self b.sorted]

/-- **The bound periods stand in the order of all periods**, from the coarsest on. -/
theorem periods_eq_filter (b : Bindings α) :
    b.periods = Period.all.filter fun p => (b.get? p).isSome := b.toFieldMap.periods_eq_filter

end Bindings

/-- **Sorting the bindings by priority changes none of them.** -/
theorem FieldMap.get?_byPriority {α : Type} (m : FieldMap α) (p : Period) :
    m.byPriority.get? p = m.get? p := by
  unfold byPriority Bindings.get? get?
  simp only [sortByPriority_eq_self m.pairwise_priority]

/-! ## Rules -/

namespace PatternInput

/-- A way to bind periods of a rule. -/
inductive Operation where
  /-- Binds one period. -/
  | bind (p : Period) (frequency : FrequencyInput)
  /-- Binds several periods in turn. -/
  | extend (bindings : List (Period × FrequencyInput))

/-- The bindings that an operation makes, in turn. -/
def Operation.bindings : Operation → List (Period × FrequencyInput)
  | .bind p frequency => [(p, frequency)]
  | .extend bindings => bindings

/-- The rule after an operation. -/
def Operation.apply (input : PatternInput) : Operation → PatternInput
  | .bind p frequency => input.insert p frequency
  | .extend bindings => input.insertAll bindings

/-- The rule that operations put together, from one that binds nothing. -/
def build (operations : List Operation) : PatternInput := operations.foldl Operation.apply .empty

/-- The frequency that the last of the bindings of a period gives it. -/
def lastFrequency? (operations : List Operation) (p : Period) : Option FrequencyInput :=
  FieldMap.lastBinding? p (operations.flatMap Operation.bindings)

theorem Operation.apply_eq_insertAll (input : PatternInput) (operation : Operation) :
    operation.apply input = input.insertAll operation.bindings := by
  cases operation with
  | bind p frequency => rfl
  | extend bindings => rfl

theorem foldl_apply_eq_insertAll (input : PatternInput) (operations : List Operation) :
    operations.foldl Operation.apply input =
      input.insertAll (operations.flatMap Operation.bindings) := by
  induction operations generalizing input with
  | nil => rfl
  | cons operation rest ih =>
      rw [List.foldl_cons, ih, Operation.apply_eq_insertAll, List.flatMap_cons, FieldMap.insertAll,
        FieldMap.insertAll, FieldMap.insertAll, List.foldl_append]

/-- **Of all the bindings of a period the last one holds.** -/
theorem get?_build (operations : List Operation) (p : Period) :
    (build operations).get? p = lastFrequency? operations p := by
  rw [build, foldl_apply_eq_insertAll]
  exact FieldMap.get?_ofList _

/-- **The order of the operations does not show**, as long as the last bindings are the same. -/
theorem build_congr {operations operations' : List Operation}
    (h : ∀ p, lastFrequency? operations p = lastFrequency? operations' p) :
    build operations = build operations' :=
  FieldMap.ext_get? fun p => by rw [get?_build, get?_build, h p]

end PatternInput

/-! ## Compiled rules -/

namespace Pattern

variable {input : PatternInput} {options : CalendarOptions} {aliases : Period → Aliases}

/-- **A pattern has what the bindings of its rule compile to.** -/
theorem compileWith_eq_ok {pattern : Pattern} :
    compileWith input options aliases = .ok pattern ↔
      pattern.options = options ∧
        ∀ p, Option.Rel (fun frequency compiled => frequency.compile (aliases p) = .ok compiled)
          (input.get? p) (pattern.bindings.get? p) := by
  rw [compileWith, bind_eq_ok]
  simp only [FieldMap.traverse_eq_ok, mapError_eq_ok]
  constructor
  · rintro ⟨compiled, h, ⟨⟩⟩
    refine ⟨rfl, fun p => ?_⟩
    rw [FieldMap.get?_byPriority]
    exact h p
  · rintro ⟨rfl, h⟩
    refine ⟨pattern.bindings.toFieldMap, h, ?_⟩
    rw [Bindings.byPriority_toFieldMap]
    rfl

/-- **The coarsest binding that does not compile is reported**, with its own error. -/
theorem compileWith_eq_error {err : FieldError} :
    compileWith input options aliases = .error err ↔
      ∃ frequency, input.get? err.period = some frequency ∧
        frequency.compile (aliases err.period) = .error err.cause ∧
          ∀ q coarser, err.period.priority < q.priority → input.get? q = some coarser →
            ∃ compiled, coarser.compile (aliases q) = .ok compiled := by
  rw [compileWith, bind_pure_eq_error, FieldMap.traverse_eq_error]
  simp only [mapError_eq_error, mapError_eq_ok]
  constructor
  · rintro ⟨p, frequency, hp, ⟨cause, hcause, rfl⟩, hcoarser⟩
    exact ⟨frequency, hp, hcause, hcoarser⟩
  · rintro ⟨frequency, hp, hcause, hcoarser⟩
    exact ⟨err.period, frequency, hp, ⟨err.cause, hcause, rfl⟩, hcoarser⟩

/-- A rule compiles if all of its bindings do. -/
theorem exists_compileWith_eq_ok :
    (∃ pattern, compileWith input options aliases = .ok pattern) ↔
      ∀ p frequency, input.get? p = some frequency →
        ∃ compiled, frequency.compile (aliases p) = .ok compiled := by
  constructor
  · rintro ⟨pattern, h⟩ p frequency hp
    have hrel := (compileWith_eq_ok.1 h).2 p
    rw [hp] at hrel
    generalize pattern.bindings.get? p = bound at hrel
    cases hrel with
    | some hcompiled => exact ⟨_, hcompiled⟩
  · intro h
    cases hresult : compileWith input options aliases with
    | ok pattern => exact ⟨pattern, rfl⟩
    | error err =>
        obtain ⟨frequency, hp, hcause, -⟩ := compileWith_eq_error.1 hresult
        obtain ⟨compiled, hcompiled⟩ := h err.period frequency hp
        rw [hcause] at hcompiled
        cases hcompiled

/-- The periods of a pattern are those of its rule. -/
theorem periods_eq_filter_of_compileWith {pattern : Pattern}
    (h : compileWith input options aliases = .ok pattern) :
    pattern.periods = Period.all.filter fun p => (input.get? p).isSome := by
  refine pattern.bindings.periods_eq_filter.trans (List.filter_congr fun p _ => ?_)
  have hrel := (compileWith_eq_ok.1 h).2 p
  generalize pattern.bindings.get? p = bound at hrel ⊢
  generalize input.get? p = frequency at hrel ⊢
  cases hrel <;> rfl

end Pattern

end Recurrence
