import CommandRoutes.Proofs.Invocation.Contributions
import Mathlib.Data.List.DropRight
import Mathlib.Tactic.SplitIfs

/-!
# No argument is lost

An argument that is a dash with `=` right behind it names no switch, so there is
nothing that could have its value, and nothing is kept of it. Every other
argument but the first `--` is accounted for: it is among the commands or it names
a switch that is there, and what is recorded as values are the texts behind the
first `=` of these arguments, each once.
-/
namespace CommandRoutes

namespace Argument

/-- A dash with `=` right behind it. -/
def Nameless (argument : String) : Prop := ['-', '='] <+: argument.toList

instance : DecidablePred Nameless :=
  fun argument => inferInstanceAs (Decidable (_ <+: argument.toList))

theorem not_nameless_long (text : List Char) :
    ¬Nameless (String.ofList ('-' :: '-' :: text)) := by
  simp [Nameless, -String.ofList_cons]

theorem nameless_short_iff (c : Char) (text : List Char) :
    Nameless (String.ofList ('-' :: c :: text)) ↔ c = '=' := by
  unfold Nameless
  rw [String.toList_ofList, List.cons_prefix_cons, List.cons_prefix_cons]
  simp [eq_comm]

/-- A switch names something unless it is nameless. -/
theorem exists_name_iff {argument : String} (h : ¬IsCommand argument) :
    (∃ kind name, name ∈ names argument kind) ↔ ¬Nameless argument := by
  cases form argument with
  | command hcommand => exact absurd hcommand h
  | long text =>
      have hnames := names_long text
      constructor
      · intro _
        exact not_nameless_long text
      · intro _
        exact ⟨.long, _, hnames ▸ List.mem_singleton_self _⟩
  | short c text hc =>
      have hnames := names_short text hc
      have hlong := names_long_of_short text hc
      rw [nameless_short_iff]
      constructor
      · rintro ⟨kind, name, hname⟩ rfl
        cases kind with
        | short =>
            rw [hnames] at hname
            simp at hname
        | long =>
            rw [hlong] at hname
            simp at hname
      · intro hne
        refine ⟨.short, c.toString, ?_⟩
        rw [hnames]
        simp [hne]

/-- The value of an argument is the text behind its first `=`. -/
theorem value?_eq_some_iff {argument value : String} :
    value? argument = some value ↔
      ∃ before, argument.toList = before ++ '=' :: value.toList ∧ '=' ∉ before := by
  unfold value?
  constructor
  · intro h
    have hsplit := List.takeWhile_append_dropWhile (p := (· ≠ '=')) (l := argument.toList)
    have hstop := List.head?_dropWhile_not (· ≠ '=') argument.toList
    cases hrest : argument.toList.dropWhile (· ≠ '=') with
    | nil =>
        rw [hrest] at h
        cases h
    | cons c rest =>
        rw [hrest] at h hsplit hstop
        have hc : c = '=' := by simpa using hstop
        obtain rfl : String.ofList rest = value := Option.some.inj h
        refine ⟨argument.toList.takeWhile (· ≠ '='), ?_, ?_⟩
        · rw [String.toList_ofList, ← hc]
          exact hc ▸ hsplit.symm
        · intro hmem
          simpa using List.mem_takeWhile_imp hmem
  · rintro ⟨before, htext, hbefore⟩
    have hdrop : argument.toList.dropWhile (· ≠ '=') = '=' :: value.toList := by
      rw [htext, List.dropWhile_append_of_pos]
      · simp
      · intro c hc
        have hne : c ≠ '=' := fun heq => hbefore (heq ▸ hc)
        simpa using hne
    rw [hdrop]
    simp

theorem isSome_value?_iff {argument : String} :
    (value? argument).isSome = true ↔ '=' ∈ argument.toList := by
  unfold value?
  cases hrest : argument.toList.dropWhile (· ≠ '=') with
  | nil =>
      rw [List.dropWhile_eq_nil_iff] at hrest
      constructor
      · intro h
        cases h
      · intro hmem
        simpa using hrest '=' hmem
  | cons c rest =>
      have hstop := List.head?_dropWhile_not (· ≠ '=') argument.toList
      rw [hrest] at hstop
      have hc : c = '=' := by simpa using hstop
      have hmem : c ∈ argument.toList :=
        (List.dropWhile_suffix _).subset (hrest ▸ List.mem_cons_self)
      simpa using hc ▸ hmem

end Argument

/-! ## Recorded values -/

/-- All values, whatever switch they belong to. -/
def Supplied.recorded (m : Supplied) : List String := m.values.flatten

theorem Supplied.recorded_append (m : Supplied) (name : String) (values : List String) :
    (m.append name values).recorded.Perm (m.recorded ++ values) := by
  change ((NameMap.alterEntries name (fun old => old.getD [] ++ values) m.entries).map
    Prod.snd).flatten.Perm ((m.entries.map Prod.snd).flatten ++ values)
  induction m.entries with
  | nil => simp [NameMap.alterEntries]
  | cons e rest ih =>
      obtain ⟨key, own⟩ := e
      unfold NameMap.alterEntries
      split_ifs with hlt heq
      · simpa using (List.perm_append_comm : (values ++ (own ++ _)).Perm _)
      · simp only [List.map_cons, List.flatten_cons, Option.getD_some, List.append_assoc]
        exact List.perm_append_comm.append_left own
      · simp only [List.map_cons, List.flatten_cons, List.append_assoc]
        exact ih.append_left own

namespace Invocation
open Argument

/-- All values of an invocation, those of short names first. -/
def recorded (input : Invocation) : List String := input.short.recorded ++ input.long.recorded

theorem recorded_addLong (input : Invocation) (name : List Char) (values : List String) :
    (input.addLong name values).recorded.Perm (input.recorded ++ values) := by
  unfold recorded
  rw [List.append_assoc]
  exact (input.long.recorded_append _ values).append_left input.short.recorded

/-- A cluster records its value, unless it has no character to record it under. -/
theorem recorded_addCluster (input : Invocation) (cs : List Char) (values : List String) :
    (input.addCluster cs values).recorded.Perm
      (input.recorded ++ if cs = [] then [] else values) := by
  induction cs generalizing input with
  | nil => simp [addCluster]
  | cons c rest ih =>
      have added (values : List String) :
          ({ input with short := input.short.append c.toString values } : Invocation).recorded.Perm
            (input.recorded ++ values) := by
        unfold recorded
        have moved := (input.short.recorded_append c.toString values).append_right
          input.long.recorded
        apply moved.trans
        rw [List.append_assoc, List.append_assoc]
        exact List.perm_append_comm.append_left _
      cases rest with
      | nil => exact added values
      | cons d rest =>
          have hstep : input.addCluster (c :: d :: rest) values =
              { input with short := input.short.append c.toString [] }.addCluster (d :: rest)
                values := rfl
          rw [hstep]
          have first := added []
          rw [List.append_nil] at first
          exact (ih _).trans (first.append_right _)

/-- What an argument leaves behind as values. -/
theorem recorded_addArgument (input : Invocation) (argument : String) :
    (input.addArgument argument).recorded.Perm (input.recorded ++
      if ¬IsCommand argument ∧ ¬Nameless argument then (value? argument).toList else []) := by
  cases form argument with
  | command h =>
      rw [addArgument_command input h]
      simp [h, recorded, addCommand]
  | long text =>
      rw [addArgument_long, if_pos ⟨not_isCommand_long text, not_nameless_long text⟩, value?_dash,
        value?_dash]
      exact input.recorded_addLong _ _
  | short c text hc =>
      rw [addArgument_short input text hc, value?_dash]
      apply (input.recorded_addCluster _ _).trans
      have hnameless := nameless_short_iff c text
      by_cases hequals : c = '='
      · rw [if_pos (by simp [hequals]), if_neg fun h => h.2 (hnameless.mpr hequals)]
      · rw [if_neg (by simp [hequals]),
          if_pos ⟨not_isCommand_short text c, mt hnameless.mp hequals⟩]

theorem recorded_addAll (input : Invocation) (arguments : List String) :
    (input.addAll arguments).recorded.Perm (input.recorded ++
      (arguments.filter fun a => ¬IsCommand a ∧ ¬Nameless a).filterMap value?) := by
  induction arguments generalizing input with
  | nil => simp [addAll]
  | cons argument rest ih =>
      apply (ih (input.addArgument argument)).trans
      apply ((input.recorded_addArgument argument).append_right _).trans
      rw [List.append_assoc]
      split_ifs with h
      · rw [List.filter_cons_of_pos (by simpa using h), List.filterMap_cons]
        cases value? argument <;> simp
      · rw [List.filter_cons_of_neg (by simpa using h), List.nil_append]

/-! ## The whole result -/

/-- The argument list in full, the commands and the switches with their values. -/
structure Accounts (arguments : List String) (input : Invocation) : Prop where
  arguments_eq :
    arguments = front arguments ++ if "--" ∈ arguments then "--" :: behind arguments else []
  commands_eq : input.commands = (front arguments).filter (IsCommand ·) ++ behind arguments
  named_iff : ∀ argument ∈ switches arguments,
    (∃ kind name, name ∈ names argument kind ∧ (input.supplied kind).contains name = true) ↔
      ¬Nameless argument
  contains_iff : ∀ kind name, (input.supplied kind).contains name = true ↔
    ∃ argument ∈ switches arguments, name ∈ names argument kind
  valuesOf_eq : ∀ kind name, (input.supplied kind).valuesOf name =
    (switches arguments).flatMap (valuesFor · kind name)
  recorded_perm : input.recorded.Perm
    (((switches arguments).filter (¬Nameless ·)).filterMap value?)
  length_recorded : input.recorded.length =
    (switches arguments).countP fun argument => '=' ∈ argument.toList ∧ ¬Nameless argument
  text_of_recorded : ∀ value ∈ input.recorded, ∃ argument ∈ switches arguments,
    ∃ before, argument.toList = before ++ '=' :: value.toList ∧ '=' ∉ before

theorem arguments_eq_front_behind (arguments : List String) :
    arguments = front arguments ++ if "--" ∈ arguments then "--" :: behind arguments else [] := by
  by_cases h : "--" ∈ arguments
  · obtain ⟨before, after, rfl, hbefore⟩ := List.eq_append_cons_of_mem h
    rw [if_pos h, front_cut hbefore, behind_cut hbefore]
  · have hfront := front_append h []
    rw [List.append_nil] at hfront
    rw [if_neg h, hfront]
    simp [front]

theorem recorded_ofArguments (arguments : List String) : (ofArguments arguments).recorded.Perm
    (((switches arguments).filter (¬Nameless ·)).filterMap value?) := by
  have hfilter : (switches arguments).filter (¬Nameless ·) =
      (front arguments).filter fun a => ¬IsCommand a ∧ ¬Nameless a := by
    unfold switches
    rw [List.filter_filter]
    apply List.filter_congr
    intro argument _
    simp [Bool.and_comm]
  rw [hfilter, ofArguments, addArguments_eq]
  exact recorded_addAll {} (front arguments)

/-- Nothing but nameless arguments is lost. -/
theorem ofArguments_accounts (arguments : List String) :
    Accounts arguments (ofArguments arguments) := by
  have hrecorded := recorded_ofArguments arguments
  constructor
  · exact arguments_eq_front_behind arguments
  · exact commands_ofArguments arguments
  · intro argument hmem
    have hswitch : ¬IsCommand argument := by simpa using (List.mem_filter.mp hmem).2
    rw [← exists_name_iff hswitch]
    constructor
    · intro ⟨kind, name, hname, _⟩
      exact ⟨kind, name, hname⟩
    · intro ⟨kind, name, hname⟩
      have hthere := (contains_ofArguments arguments kind name).mpr ⟨argument, hmem, hname⟩
      exact ⟨kind, name, hname, hthere⟩
  · exact contains_ofArguments arguments
  · exact valuesOf_ofArguments arguments
  · exact hrecorded
  · rw [hrecorded.length_eq, List.length_filterMap_eq_countP, List.countP_filter]
    apply List.countP_congr
    intro argument _
    simp [isSome_value?_iff]
  · intro value hmem
    obtain ⟨argument, hargument, hvalue⟩ := List.mem_filterMap.mp (hrecorded.mem_iff.mp hmem)
    exact ⟨argument, List.mem_of_mem_filter hargument, value?_eq_some_iff.mp hvalue⟩

/-- Of a nameless argument nothing is kept, neither a name nor the text behind its `=`. -/
theorem nameless_argument_dropped :
    "-=x" ∈ switches ["-=x"] ∧ '=' ∈ "-=x".toList ∧ ofArguments ["-=x"] = {} ∧
      (ofArguments ["-=x"]).recorded = [] := by
  decide +kernel

end Invocation
end CommandRoutes
