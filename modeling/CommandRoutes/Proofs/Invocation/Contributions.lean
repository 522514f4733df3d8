import CommandRoutes.Invocation
import CommandRoutes.Proofs.Verification.Rules

/-!
# What an argument contributes

In front of the first `--` every argument counts by itself. A command is kept as
it is. Any other argument names switches, a long one a single switch and a short
one a switch for each character in front of its first `=`, and the text behind
the first `=` is a value of the last switch that it names. What the arguments
come to together is read off name by name: a name is there if some argument gives
it, and its values are those of the arguments, in their order.
-/
namespace CommandRoutes

/-! ## One argument -/

namespace Argument

/-- A lone dash, or a text that does not begin with a dash. -/
def IsCommand (argument : String) : Prop :=
  argument = "-" ∨ argument.toList.head? ≠ some '-'

instance : DecidablePred IsCommand :=
  fun argument => inferInstanceAs (Decidable (argument = "-" ∨ _))

/-- The switches of one kind that an argument names, in the order in which it names them. -/
def names (argument : String) : NameKind → List String
  | .long =>
    match argument.toList with
    | '-' :: '-' :: text => [String.ofList (text.takeWhile (· ≠ '='))]
    | _ => []
  | .short =>
    match argument.toList with
    | '-' :: '-' :: _ => []
    | '-' :: text => (text.takeWhile (· ≠ '=')).map Char.toString
    | _ => []

/-- The text behind the first `=`, if there is one. -/
def value? (argument : String) : Option String :=
  match argument.toList.dropWhile (· ≠ '=') with
  | [] => none
  | _ :: value => some (String.ofList value)

/-- What an argument gives to the switch of this name. -/
def valuesFor (argument : String) (kind : NameKind) (name : String) : List String :=
  if (names argument kind).getLast? = some name then (value? argument).toList else []

theorem valuesFor_of_names_eq_nil {argument : String} {kind : NameKind}
    (h : names argument kind = []) : valuesFor argument kind = fun _ => [] := by
  funext name
  unfold valuesFor
  rw [h]
  rfl

/-- What an argument looks like. -/
inductive Form : String → Prop
  | command {argument : String} : IsCommand argument → Form argument
  | long (text : List Char) : Form (String.ofList ('-' :: '-' :: text))
  | short (c : Char) (text : List Char) : c ≠ '-' → Form (String.ofList ('-' :: c :: text))

theorem form (argument : String) : Form argument := by
  rw [← String.ofList_toList (s := argument)]
  generalize argument.toList = text
  match text with
  | [] => exact .command (by decide)
  | [c] =>
      by_cases hc : c = '-'
      · subst hc
        exact .command (by decide)
      · exact .command (.inr (by simpa using hc))
  | c :: d :: text =>
      by_cases hc : c = '-'
      · subst hc
        by_cases hd : d = '-'
        · subst hd
          exact .long text
        · exact .short d text hd
      · exact .command (.inr (by simpa using hc))

theorem names_of_isCommand {argument : String} (h : IsCommand argument) (kind : NameKind) :
    names argument kind = [] := by
  rcases h with rfl | hhead
  · cases kind <;> decide
  · cases hlist : argument.toList with
    | nil => cases kind <;> simp [names, hlist]
    | cons c text =>
        have hc : c ≠ '-' := by simpa [hlist] using hhead
        cases kind <;> simp [names, hlist, hc]

section
variable (text : List Char)

theorem names_long : names (String.ofList ('-' :: '-' :: text)) .long =
    [String.ofList (text.takeWhile (· ≠ '='))] := by
  simp [names]

theorem not_isCommand_long : ¬IsCommand (String.ofList ('-' :: '-' :: text)) := by
  simp [IsCommand]

theorem names_short_of_long : names (String.ofList ('-' :: '-' :: text)) .short = [] := by
  simp [names]

theorem not_isCommand_short (c : Char) : ¬IsCommand (String.ofList ('-' :: c :: text)) := by
  simp [IsCommand]

variable {c : Char} (hc : c ≠ '-')
include hc

theorem names_short : names (String.ofList ('-' :: c :: text)) .short =
    ((c :: text).takeWhile (· ≠ '=')).map Char.toString := by
  simp [names, hc]

theorem names_long_of_short : names (String.ofList ('-' :: c :: text)) .long = [] := by
  simp [names, hc]

end

end Argument

/-! ## Supplied switches -/

namespace Supplied

/-- The values under a name; none if the name is not there. -/
def valuesOf (m : Supplied) (name : String) : List String := (m.get? name).getD []

theorem get?_eq (m : Supplied) (name : String) :
    m.get? name = if m.contains name then some (m.valuesOf name) else none := by
  unfold NameMap.contains valuesOf
  cases m.get? name <;> rfl

/-- The second map is the first one with more names and with more values behind those there. -/
structure Gains (m m' : Supplied) (names : List String) (values : String → List String) :
    Prop where
  contains_iff : ∀ name, m'.contains name = true ↔ m.contains name = true ∨ name ∈ names
  valuesOf_eq : ∀ name, m'.valuesOf name = m.valuesOf name ++ values name

theorem gains_append (m : Supplied) (name : String) (values : List String) :
    Gains m (append m name values) [name] fun n => if n = name then values else [] := by
  constructor
  · intro n
    unfold NameMap.contains
    rw [get?_append, List.mem_singleton]
    split_ifs with h <;> simp [h]
  · intro n
    unfold valuesOf
    rw [get?_append]
    split_ifs with h <;> simp [h]

namespace Gains
variable {m m' m'' : Supplied} {names names' : List String} {values values' : String → List String}

theorem refl (m : Supplied) : Gains m m [] fun _ => [] :=
  ⟨fun name => by simp, fun name => by simp⟩

theorem trans (h : Gains m m' names values) (h' : Gains m' m'' names' values') :
    Gains m m'' (names ++ names') fun name => values name ++ values' name := by
  constructor
  · intro name
    rw [h'.contains_iff, h.contains_iff, List.mem_append, or_assoc]
  · intro name
    rw [h'.valuesOf_eq, h.valuesOf_eq, List.append_assoc]

/-- What a map gains determines the result, however the names are listed. -/
theorem unique (h : Gains m m' names values) (h' : Gains m m'' names' values')
    (hnames : ∀ name, name ∈ names ↔ name ∈ names') (hvalues : ∀ name, values name = values' name) :
    m' = m'' := by
  apply NameMap.ext_get?
  intro name
  have hcontains : m'.contains name = m''.contains name := by
    rw [Bool.eq_iff_iff, h.contains_iff, h'.contains_iff, hnames]
  have hvalue : m'.valuesOf name = m''.valuesOf name := by
    rw [h.valuesOf_eq, h'.valuesOf_eq, hvalues]
  rw [get?_eq m', get?_eq m'', hcontains, hvalue]

end Gains
end Supplied

/-! ## Arguments in a row -/

namespace Invocation
open Argument

/-- The switches supplied under names of one kind. -/
def supplied (input : Invocation) (kind : NameKind) : Supplied :=
  Supplied.under input.short input.long kind

theorem ext_supplied {input input' : Invocation} (hcommands : input.commands = input'.commands)
    (h : ∀ kind, input.supplied kind = input'.supplied kind) : input = input' := by
  obtain ⟨commands, short, long⟩ := input
  obtain ⟨commands', short', long'⟩ := input'
  obtain rfl : commands = commands' := hcommands
  obtain rfl : short = short' := h .short
  obtain rfl : long = long' := h .long
  rfl

theorem splitValue_eq (text : List Char) :
    splitValue text =
      (text.takeWhile (· ≠ '='), (value? (String.ofList text)).toList) := by
  unfold splitValue value?
  rw [String.toList_ofList]
  cases hvalue : text.dropWhile (· ≠ '=') with
  | nil =>
      have hwhole := List.takeWhile_append_dropWhile (p := (· ≠ '=')) (l := text)
      rw [hvalue, List.append_nil] at hwhole
      simp only [hwhole]
      rfl
  | cons c value => rfl

/-- The dashes have no part in the value. -/
theorem value?_dash (text : List Char) :
    value? (String.ofList ('-' :: text)) = value? (String.ofList text) := by
  simp [value?]

theorem addArgument_command (input : Invocation) {argument : String} (h : IsCommand argument) :
    input.addArgument argument = input.addCommand argument := by
  unfold addArgument
  rcases h with rfl | hhead
  · rfl
  · split
    · next heq => simp [heq] at hhead
    · rfl
    · next heq => simp [heq] at hhead
    · rfl

theorem addArgument_long (input : Invocation) (text : List Char) :
    input.addArgument (String.ofList ('-' :: '-' :: text)) =
      input.addLong (text.takeWhile (· ≠ '=')) (value? (String.ofList text)).toList := by
  unfold addArgument
  rw [String.toList_ofList]
  simp only [splitValue_eq]

theorem addArgument_short (input : Invocation) {c : Char} (text : List Char) (hc : c ≠ '-') :
    input.addArgument (String.ofList ('-' :: c :: text)) =
      input.addCluster ((c :: text).takeWhile (· ≠ '='))
        (value? (String.ofList (c :: text))).toList := by
  unfold addArgument
  rw [String.toList_ofList]
  simp [splitValue_eq, hc]

theorem gains_addCluster (input : Invocation) (cs : List Char) (values : List String) :
    (input.addCluster cs values).commands = input.commands ∧
      (input.addCluster cs values).long = input.long ∧
      Supplied.Gains input.short (input.addCluster cs values).short (cs.map Char.toString)
        fun name => if (cs.map Char.toString).getLast? = some name then values else [] := by
  induction cs generalizing input with
  | nil => exact ⟨rfl, rfl, .refl input.short⟩
  | cons c rest ih =>
      cases rest with
      | nil =>
          refine ⟨rfl, rfl, ?_⟩
          simpa [addCluster, eq_comm] using input.short.gains_append c.toString values
      | cons d rest =>
          have hstep : input.addCluster (c :: d :: rest) values =
              { input with short := input.short.append c.toString [] }.addCluster (d :: rest)
                values := rfl
          rw [hstep]
          have first := input.short.gains_append c.toString []
          obtain ⟨hcommands, hlong, later⟩ :=
            ih { input with short := input.short.append c.toString [] }
          refine ⟨hcommands, hlong, ?_⟩
          simpa [List.getLast?_cons_cons] using first.trans later

theorem commands_addArgument (input : Invocation) (argument : String) :
    (input.addArgument argument).commands =
      input.commands ++ if IsCommand argument then [argument] else [] := by
  cases form argument with
  | command h =>
      rw [addArgument_command input h, if_pos h]
      rfl
  | long text =>
      rw [addArgument_long, if_neg (not_isCommand_long text), List.append_nil]
      rfl
  | short c text hc =>
      rw [addArgument_short input text hc, if_neg (not_isCommand_short text c), List.append_nil]
      exact (gains_addCluster input _ _).1

/-- An argument in front of any `--` gives its names, and its value to the last of them. -/
theorem gains_addArgument (input : Invocation) (argument : String) (kind : NameKind) :
    Supplied.Gains (input.supplied kind) ((input.addArgument argument).supplied kind)
      (names argument kind) (valuesFor argument kind) := by
  cases form argument with
  | command h =>
      have hnames := names_of_isCommand h kind
      rw [addArgument_command input h, hnames, valuesFor_of_names_eq_nil hnames]
      exact .refl _
  | long text =>
      rw [addArgument_long]
      cases kind with
      | short =>
          have hnames := names_short_of_long text
          rw [hnames, valuesFor_of_names_eq_nil hnames]
          exact .refl _
      | long =>
          change Supplied.Gains input.long (input.long.append _ _) _ _
          unfold valuesFor
          rw [names_long, value?_dash, value?_dash]
          simpa [eq_comm] using input.long.gains_append _ _
  | short c text hc =>
      rw [addArgument_short input text hc]
      obtain ⟨-, hlong, gains⟩ := gains_addCluster input ((c :: text).takeWhile (· ≠ '='))
        (value? (String.ofList (c :: text))).toList
      cases kind with
      | short =>
          unfold valuesFor
          rw [names_short text hc, value?_dash]
          exact gains
      | long =>
          have hnames := names_long_of_short text hc
          change Supplied.Gains input.long (input.addCluster _ _).long _ _
          rw [hlong, hnames, valuesFor_of_names_eq_nil hnames]
          exact .refl _

/-! ## All arguments -/

/-- Reads arguments none of which is `--`. -/
def addAll (input : Invocation) (arguments : List String) : Invocation :=
  arguments.foldl addArgument input

theorem commands_addAll (input : Invocation) (arguments : List String) :
    (input.addAll arguments).commands = input.commands ++ arguments.filter (IsCommand ·) := by
  induction arguments generalizing input with
  | nil => exact (List.append_nil _).symm
  | cons argument rest ih =>
      change ((input.addArgument argument).addAll rest).commands = _
      rw [ih, commands_addArgument, List.append_assoc, List.filter_cons]
      split_ifs <;> simp_all

theorem gains_addAll (input : Invocation) (arguments : List String) (kind : NameKind) :
    Supplied.Gains (input.supplied kind) ((input.addAll arguments).supplied kind)
      (arguments.flatMap (names · kind))
      fun name => arguments.flatMap (valuesFor · kind name) := by
  induction arguments generalizing input with
  | nil => exact .refl _
  | cons argument rest ih =>
      exact (gains_addArgument input argument kind).trans (ih (input.addArgument argument))

/-- The arguments in front of the first `--`. -/
def front (arguments : List String) : List String := arguments.takeWhile (· ≠ "--")

/-- The arguments behind the first `--`. -/
def behind (arguments : List String) : List String := (arguments.dropWhile (· ≠ "--")).drop 1

/-- The arguments in front of the first `--` that are no commands. -/
def switches (arguments : List String) : List String :=
  (front arguments).filter (¬IsCommand ·)

section
variable {xs : List String}

theorem front_append (h : "--" ∉ xs) (ys : List String) : front (xs ++ ys) = xs ++ front ys := by
  apply List.takeWhile_append_of_pos
  intro argument hmem
  have hne : argument ≠ "--" := fun heq => h (heq ▸ hmem)
  simpa using hne

theorem behind_append (h : "--" ∉ xs) (ys : List String) : behind (xs ++ ys) = behind ys := by
  have hdrop : (xs ++ ys).dropWhile (· ≠ "--") = ys.dropWhile (· ≠ "--") := by
    apply List.dropWhile_append_of_pos
    intro argument hmem
    have hne : argument ≠ "--" := fun heq => h (heq ▸ hmem)
    simpa using hne
  rw [behind, hdrop, behind]

theorem front_cut (h : "--" ∉ xs) (ys : List String) : front (xs ++ "--" :: ys) = xs := by
  rw [front_append h]
  simp [front]

theorem behind_cut (h : "--" ∉ xs) (ys : List String) : behind (xs ++ "--" :: ys) = ys := by
  rw [behind_append h]
  simp [behind]

end

theorem addArguments_eq (input : Invocation) (arguments : List String) :
    input.addArguments arguments =
      { input.addAll (front arguments) with
        commands := (input.addAll (front arguments)).commands ++ behind arguments } := by
  induction arguments generalizing input with
  | nil => simp [addArguments, addAll, front, behind]
  | cons argument rest ih =>
      by_cases h : argument = "--"
      · subst h
        simp [addArguments, addAll, front, behind]
      · have hstep : input.addArguments (argument :: rest) =
            (input.addArgument argument).addArguments rest := by
          rw [addArguments]
          exact h
        have hfront : front (argument :: rest) = argument :: front rest := by simp [front, h]
        have hbehind : behind (argument :: rest) = behind rest := by simp [behind, h]
        rw [hstep, ih, hfront, hbehind]
        rfl

theorem commands_ofArguments (arguments : List String) :
    (ofArguments arguments).commands =
      (front arguments).filter (IsCommand ·) ++ behind arguments := by
  rw [ofArguments, addArguments_eq]
  change ((({} : Invocation).addAll (front arguments)).commands ++ _) = _
  rw [commands_addAll]
  rfl

theorem gains_ofArguments (arguments : List String) (kind : NameKind) :
    Supplied.Gains .empty ((ofArguments arguments).supplied kind)
      ((front arguments).flatMap (names · kind))
      fun name => (front arguments).flatMap (valuesFor · kind name) := by
  have gains := gains_addAll {} (front arguments) kind
  rw [ofArguments, addArguments_eq]
  cases kind <;> exact gains

/-- Commands name nothing, so they may be left out where only names or values are collected. -/
theorem flatMap_switches {α : Type} {f : String → List α}
    (h : ∀ argument, IsCommand argument → f argument = []) (arguments : List String) :
    arguments.flatMap f = (arguments.filter (¬IsCommand ·)).flatMap f := by
  induction arguments with
  | nil => rfl
  | cons argument rest ih =>
      rw [List.flatMap_cons, List.filter_cons, ih]
      by_cases hcommand : IsCommand argument
      · simp [hcommand, h argument hcommand]
      · simp [hcommand]

theorem contains_ofArguments (arguments : List String) (kind : NameKind) (name : String) :
    ((ofArguments arguments).supplied kind).contains name = true ↔
      ∃ argument ∈ switches arguments, name ∈ names argument kind := by
  have nameless : ∀ argument, IsCommand argument → names argument kind = [] :=
    fun argument h => names_of_isCommand h kind
  have absent : (NameMap.empty : Supplied).contains name ≠ true := Bool.false_ne_true
  rw [(gains_ofArguments arguments kind).contains_iff, flatMap_switches nameless, List.mem_flatMap,
    or_iff_right absent]
  rfl

theorem valuesOf_ofArguments (arguments : List String) (kind : NameKind) (name : String) :
    ((ofArguments arguments).supplied kind).valuesOf name =
      (switches arguments).flatMap (valuesFor · kind name) := by
  have valueless : ∀ argument, IsCommand argument → valuesFor argument kind name = [] := by
    intro argument h
    rw [valuesFor_of_names_eq_nil (names_of_isCommand h kind)]
  rw [(gains_ofArguments arguments kind).valuesOf_eq, flatMap_switches valueless]
  rfl

end Invocation
end CommandRoutes
