import Recurrence.CommandLine.Command
import Recurrence.Proofs.Text.Padded

/-!
# Options with their values

A value is given to an option after an equals sign, or as the next argument unless it begins with a
dash.  **What is given is what is read**: the value reaches the option as it stands, whatever
characters it has, since only the first equals sign of an argument counts.  Values of an option that
may be given several times are collected in their order.

## Main Definitions

* `assign`: the argument that gives a value to an option
* `Gives`: the ways to give a value to an option
* `ArgumentLevel.Knows`: the long name of an option with a value

## Main Statements

* `ArgumentLevel.readArguments_assign`, `ArgumentLevel.readArguments_assignAll`: one value and several
* `Invocation.ofArguments_next`: the rules and the start that the program is asked for
-/

namespace Recurrence

/-- The argument that gives a value to the option with a long name. -/
def assign (name value : String) : String := "--" ++ name ++ "=" ++ value

/-- The arguments that give a value to the option with a long name. -/
inductive Gives (name value : String) : List String → Prop where
  /-- The value stands after an equals sign. -/
  | attached : Gives name value [assign name value]
  /-- The value is the next argument. -/
  | next (h : value.toList.head? ≠ some '-') : Gives name value ["--" ++ name, value]

namespace ArgumentLevel

variable {level : ArgumentLevel} {o : OptionSpec} {name value : String} {given given' : GivenOptions}
  {st st' : ArgumentState} {rest : List String}

/-- The long name is that of this option, which has a value. -/
structure Knows (level : ArgumentLevel) (name : String) (o : OptionSpec) : Prop where
  find : level.options.find? (fun o => o.long.toList = name.toList) = some o
  long : o.long = name
  takesValue : o.takesValue = true
  noEquals : '=' ∉ name.toList
  ne_empty : name.toList ≠ []
  noCommands : level.commands = []

theorem readLong_attached (h : level.Knows name o) (value : String) (given : GivenOptions) :
    level.readLong (name.toList ++ '=' :: value.toList) ⟨given, none⟩ =
      ArgumentState.accept o value ⟨given, none⟩ := by
  rw [readLong, Text.cut?_append_cons h.noEquals]
  simp only [h.find, String.ofList_toList, h.takesValue, Bool.not_true, Bool.and_false,
    Bool.false_eq_true, if_false]
  rw [ArgumentState.useOption, h.takesValue]
  rfl

theorem readLong_awaits (h : level.Knows name o) (given : GivenOptions) :
    level.readLong name.toList ⟨given, none⟩ = .ok ⟨given, some (o, none)⟩ := by
  rw [readLong, Text.cut?_eq_none.2 h.noEquals]
  simp only [h.find]
  rw [ArgumentState.useOption, h.takesValue]
  rfl

/-- An argument that begins with two dashes names an option. -/
theorem readArguments_long {argument : String} {c : Char} {letters : List Char}
    (hcommands : level.commands = []) (htext : argument.toList = '-' :: '-' :: c :: letters)
    (hread : level.readLong (c :: letters) st = .ok st') (rest : List String) :
    level.readArguments st (argument :: rest) = level.readArguments st' rest := by
  conv_lhs => unfold readArguments
  simp only [htext, hcommands, hread]
  rw [if_neg (by simp)]

/-- An argument that does not begin with a dash is the value that is awaited. -/
theorem readArguments_awaited (hcommands : level.commands = [])
    (hdash : value.toList.head? ≠ some '-') (rest : List String) :
    level.readArguments ⟨given, some (o, none)⟩ (value :: rest) =
      level.readArguments ⟨given, some (o, some value)⟩ rest := by
  conv_lhs => unfold readArguments
  simp only [hcommands]
  rw [if_neg (by simp)]
  cases hvalue : value.toList with
  | nil => rfl
  | cons c letters =>
      have hc : c ≠ '-' := by
        rintro rfl
        exact hdash (by rw [hvalue, List.head?_cons])
      simp [hc]

/-- **A value after an equals sign reaches its option.** -/
theorem readArguments_assign (h : level.Knows name o)
    (haccept : ArgumentState.accept o value ⟨given, none⟩ = .ok st) (rest : List String) :
    level.readArguments ⟨given, none⟩ (assign name value :: rest) = level.readArguments st rest := by
  obtain ⟨c, letters, hname⟩ := List.exists_cons_of_ne_nil h.ne_empty
  have hdashes : "--".toList = ['-', '-'] := rfl
  have hequals : "=".toList = ['='] := rfl
  have htext : (assign name value).toList = '-' :: '-' :: c :: (letters ++ '=' :: value.toList) := by
    simp only [assign, String.toList_append, hdashes, hequals, hname, List.append_assoc,
      List.cons_append, List.nil_append]
  have hread := readLong_attached h value given
  rw [haccept, hname, List.cons_append] at hread
  exact readArguments_long h.noCommands htext hread rest

/-- **The values of an option that may be given several times are collected.** -/
theorem readArguments_assignAll {check : String → Option UsageError} {values : List String}
    (h : level.Knows name o) (hkind : o.kind = .several check)
    (hvalues : ∀ value ∈ values, check value = none) (given : GivenOptions) (rest : List String) :
    level.readArguments ⟨given, none⟩ (values.map (assign name) ++ rest) =
      level.readArguments ⟨given ++ values.map fun value => (name, value), none⟩ rest := by
  induction values generalizing given with
  | nil => rw [List.map_nil, List.map_nil, List.nil_append, List.append_nil]
  | cons value values ih =>
      obtain ⟨hvalue, hvalues⟩ := List.forall_mem_cons.1 hvalues
      have haccept : ArgumentState.accept o value ⟨given, none⟩ =
          .ok ⟨given ++ [(name, value)], none⟩ := by
        simp only [ArgumentState.accept, hkind, hvalue, h.long]
      rw [List.map_cons, List.cons_append, readArguments_assign h haccept, ih hvalues, List.map_cons,
        List.append_assoc, List.singleton_append]

/-- **A value that is given at the end of the arguments is read**, in either way. -/
theorem exists_readArguments_gives {check : String → Option UsageError} {arguments : List String}
    (h : level.Knows name o) (hkind : o.kind = .single check) (hcheck : check value = none)
    (hnew : given.lookup name = none) (hgives : Gives name value arguments) :
    ∃ st, level.readArguments ⟨given, none⟩ arguments = .ok (st, none) ∧
      st.release = .ok ⟨given ++ [(name, value)], none⟩ := by
  have haccept : ArgumentState.accept o value ⟨given, none⟩ =
      .ok ⟨given ++ [(name, value)], none⟩ := by
    simp [ArgumentState.accept, hkind, hcheck, h.long, hnew]
  cases hgives with
  | attached => exact ⟨_, readArguments_assign h haccept [], rfl⟩
  | next hdash =>
      obtain ⟨c, letters, hname⟩ := List.exists_cons_of_ne_nil h.ne_empty
      have hdashes : "--".toList = ['-', '-'] := rfl
      have htext : ("--" ++ name).toList = '-' :: '-' :: c :: letters := by
        rw [String.toList_append, hdashes, hname, List.cons_append, List.cons_append,
          List.nil_append]
      have hread := readLong_awaits h given
      rw [hname] at hread
      refine ⟨⟨given, some (o, some value)⟩, ?_, haccept⟩
      rw [readArguments_long h.noCommands htext hread, readArguments_awaited h.noCommands hdash]
      rfl

end ArgumentLevel

namespace Invocation

variable {on off values : List String} {text : String} {t : Instant} {arguments : List String}

theorem knows_on : nextLevel.Knows "on" ⟨"on", none, .several (refuse readRule), true⟩ :=
  ⟨rfl, rfl, rfl, by decide, by decide, rfl⟩

theorem knows_not : nextLevel.Knows "not" ⟨"not", none, .several (refuse readRule), false⟩ :=
  ⟨rfl, rfl, rfl, by decide, by decide, rfl⟩

theorem knows_from : nextLevel.Knows "from" ⟨"from", none, .single (refuse readInstant), false⟩ :=
  ⟨rfl, rfl, rfl, by decide, by decide, rfl⟩

theorem refuse_eq_none {α : Type} {read : String → Option α} (h : (read text).isSome = true) :
    refuse read text = none := if_pos h

/-! ### The options that are given -/

theorem lookup_values_ne {name other : String} (h : other ≠ name) (values : List String) :
    (values.map fun value => (name, value)).lookup other = none := by
  rw [List.lookup_eq_none_iff]
  intro p hp
  obtain ⟨value, -, rfl⟩ := List.mem_map.1 hp
  exact bne_iff_ne.2 h

theorem valuesOf_values (name : String) (values : List String) :
    valuesOf name (values.map fun value => (name, value)) = values := by
  rw [valuesOf, List.filter_eq_self.2, List.map_map]
  · exact List.map_id values
  · intro p hp
    obtain ⟨value, -, rfl⟩ := List.mem_map.1 hp
    exact decide_eq_true rfl

theorem valuesOf_values_ne {name other : String} (h : other ≠ name) (values : List String) :
    valuesOf other (values.map fun value => (name, value)) = [] := by
  rw [valuesOf, List.filter_eq_nil_iff.2, List.map_nil]
  intro p hp
  obtain ⟨value, -, rfl⟩ := List.mem_map.1 hp
  exact fun hname => h (of_decide_eq_true hname).symm

theorem valuesOf_append (name : String) (a b : GivenOptions) :
    valuesOf name (a ++ b) = valuesOf name a ++ valuesOf name b := by
  rw [valuesOf, List.filter_append, List.map_append]
  rfl

/-- The options of a command that asks for the occurrences after an instant. -/
def givenNext (on off : List String) (text : String) : GivenOptions :=
  on.map (fun value => ("on", value)) ++ off.map (fun value => ("not", value)) ++ [("from", text)]

/-- What is not among these options is not given. -/
theorem lookup_givenNext_ne {name : String} (hon : name ≠ "on") (hnot : name ≠ "not")
    (hfrom : name ≠ "from") : (givenNext on off text).lookup name = none := by
  have hlast : [("from", text)].lookup name = none := lookup_values_ne hfrom [text]
  rw [givenNext, List.lookup_append, List.lookup_append, lookup_values_ne hon, lookup_values_ne hnot,
    hlast]
  rfl

theorem lookup_givenNext_from : (givenNext on off text).lookup "from" = some text := by
  rw [givenNext, List.lookup_append, List.lookup_append, lookup_values_ne (by decide),
    lookup_values_ne (by decide)]
  rfl

theorem rulesOf_givenNext :
    rulesOf (givenNext on off text) = ⟨on.filterMap readRule, off.filterMap readRule⟩ := by
  have hlast {name : String} (h : name ≠ "from") : valuesOf name [("from", text)] = [] :=
    valuesOf_values_ne h [text]
  rw [rulesOf, givenNext]
  simp only [valuesOf_append, valuesOf_values]
  rw [valuesOf_values_ne (by decide), valuesOf_values_ne (by decide), hlast (by decide),
    hlast (by decide)]
  simp only [List.append_nil, List.nil_append]

/-- Only rules have to be there. -/
theorem long_of_required : ∀ o ∈ nextLevel.options, o.required = true → o.long = "on" := by
  simp [nextLevel, globalOptions, ruleOptions]

theorem finishArguments_givenNext {st : ArgumentState} (hon : on ≠ [])
    (hrelease : st.release = .ok ⟨givenNext on off text, none⟩) :
    nextLevel.finishArguments st = .ok (givenNext on off text) := by
  have hrules : ((givenNext on off text).lookup "on").isSome = true := by
    obtain ⟨rule, rest, rfl⟩ := List.exists_cons_of_ne_nil hon
    rfl
  have hall : (nextLevel.options.all fun o =>
      !o.required || ((givenNext on off text).lookup o.long).isSome) = true := by
    rw [List.all_eq_true]
    intro o ho
    cases hneeded : o.required with
    | false => rfl
    | true => rw [long_of_required o ho hneeded, hrules, Bool.or_true]
  rw [ArgumentLevel.finishArguments, hrelease]
  show (if (nextLevel.options.all fun o =>
    !o.required || ((givenNext on off text).lookup o.long).isSome) = true then _ else _) = _
  rw [if_pos hall]
  rfl

/-! ### The command -/

section Next

variable (hon : on ≠ []) (hrules : ∀ rule ∈ on ++ off, (readRule rule).isSome = true)
  (ht : readInstant text = some t) (hgives : Gives "from" text arguments)
include hon hrules ht hgives

theorem readCommand_next :
    readCommand "next" (on.map (assign "on") ++ (off.map (assign "not") ++ arguments)) =
      .ok (.next ⟨on.filterMap readRule, off.filterMap readRule⟩ (some t) none none false,
        givenNext on off text) := by
  have hvalues : ∀ rule ∈ on ++ off, refuse readRule rule = none :=
    fun rule hrule => refuse_eq_none (hrules rule hrule)
  have hinstant : refuse readInstant text = none := refuse_eq_none (by rw [ht, Option.isSome_some])
  have hnew : (on.map (fun value => ("on", value)) ++
      off.map (fun value => ("not", value))).lookup "from" = none := by
    rw [List.lookup_append, lookup_values_ne (by decide), lookup_values_ne (by decide)]
    rfl
  obtain ⟨st, hread, hrelease⟩ :=
    ArgumentLevel.exists_readArguments_gives knows_from rfl hinstant hnew hgives
  have hgiven : nextLevel.readArguments ArgumentState.start
      (on.map (assign "on") ++ (off.map (assign "not") ++ arguments)) = .ok (st, none) := by
    rw [ArgumentState.start, ArgumentLevel.readArguments_assignAll knows_on rfl
      fun rule hrule => hvalues rule (List.mem_append_left off hrule),
      ArgumentLevel.readArguments_assignAll knows_not rfl
      fun rule hrule => hvalues rule (List.mem_append_right on hrule), List.nil_append, hread]
  have hfinish := finishArguments_givenNext hon hrelease
  have hstart : valueOf? readInstant "from" (givenNext on off text) = some t := by
    rw [valueOf?, lookup_givenNext_from, Option.bind_some, ht]
  have hcount : valueOf? readCount "count" (givenNext on off text) = none := by
    rw [valueOf?, lookup_givenNext_ne (by decide) (by decide) (by decide), Option.bind_none]
  have hbudget : valueOf? readCount "max-tries" (givenNext on off text) = none := by
    rw [valueOf?, lookup_givenNext_ne (by decide) (by decide) (by decide), Option.bind_none]
  have hjson : ((givenNext on off text).lookup "json").isSome = false := by
    rw [lookup_givenNext_ne (by decide) (by decide) (by decide), Option.isSome_none]
  rw [readCommand]
  simp only [nextName, if_true, bind, Except.bind, hgiven, hfinish, rulesOf_givenNext, hstart, hcount,
    hbudget, hjson]
  rfl

/-- **The program is asked for what its arguments say**: the occurrences of the rules after the instant
that is given, in either way. -/
theorem ofArguments_next :
    ofArguments ("next" :: (on.map (assign "on") ++ (off.map (assign "not") ++ arguments))) =
      .ok ⟨0, none, .next ⟨on.filterMap readRule, off.filterMap readRule⟩ (some t) none none
        false⟩ := by
  have hbefore : topLevel.finishArguments ArgumentState.start = .ok [] := rfl
  have htop (rest : List String) : topLevel.readArguments ArgumentState.start ("next" :: rest) =
      .ok (ArgumentState.start, some ("next", rest)) := rfl
  have hverbose : (givenNext on off text).lookup "verbose" = none :=
    lookup_givenNext_ne (by decide) (by decide) (by decide)
  have hconfig : (givenNext on off text).lookup "config" = none :=
    lookup_givenNext_ne (by decide) (by decide) (by decide)
  rw [ofArguments, htop]
  simp only [bind, Except.bind, readCommand_next hon hrules ht hgives, hbefore]
  rw [if_neg (by decide), ofOptions, hverbose, hconfig]
  rfl

end Next

end Invocation

end Recurrence
