import CommandRoutes.Proofs.Invocation.Contributions

/-!
# Arguments joined

Splitting two lists of arguments in a row is splitting each of them, as long as
the first has no `--`: commands follow commands, and of each switch the values
follow the values. Behind a `--` whatever is added is a command. So in front of
it only the order among the commands and the order among the other arguments
matter.
-/
namespace CommandRoutes.Invocation
open Argument

variable {xs : List String}

/-- Arguments in front of a first `--` with the same commands and the same other arguments, each in
their order, come to the same. -/
theorem addAll_congr {xs' : List String} (input : Invocation)
    (hcommands : xs.filter (IsCommand ·) = xs'.filter (IsCommand ·))
    (hswitches : xs.filter (¬IsCommand ·) = xs'.filter (¬IsCommand ·)) :
    input.addAll xs = input.addAll xs' := by
  apply ext_supplied
  · rw [commands_addAll, commands_addAll, hcommands]
  · intro kind
    have nameless : ∀ argument, IsCommand argument → names argument kind = [] :=
      fun argument h => names_of_isCommand h kind
    have valueless : ∀ name argument, IsCommand argument → valuesFor argument kind name = [] := by
      intro name argument h
      rw [valuesFor_of_names_eq_nil (nameless argument h)]
    apply (input.gains_addAll xs kind).unique (input.gains_addAll xs' kind)
    · intro name
      rw [flatMap_switches nameless xs, flatMap_switches nameless xs', hswitches]
    · intro name
      rw [flatMap_switches (valueless name) xs, flatMap_switches (valueless name) xs', hswitches]

/-- In front of a `--` arguments are split each by itself and what they give is put together in
order; behind it they are commands; and commands may change places with other arguments in front
of it. -/
theorem ofArguments_append (xs ys : List String) :
    ("--" ∉ xs →
      (ofArguments (xs ++ ys)).commands = (ofArguments xs).commands ++ (ofArguments ys).commands ∧
      ∀ kind name,
        (((ofArguments (xs ++ ys)).supplied kind).contains name = true ↔
          ((ofArguments xs).supplied kind).contains name = true ∨
            ((ofArguments ys).supplied kind).contains name = true) ∧
        ((ofArguments (xs ++ ys)).supplied kind).valuesOf name =
          ((ofArguments xs).supplied kind).valuesOf name ++
            ((ofArguments ys).supplied kind).valuesOf name) ∧
    ("--" ∈ xs → ofArguments (xs ++ ys) =
      { ofArguments xs with commands := (ofArguments xs).commands ++ ys }) ∧
    ∀ xs', "--" ∉ xs → "--" ∉ xs' → xs.filter (IsCommand ·) = xs'.filter (IsCommand ·) →
      xs.filter (¬IsCommand ·) = xs'.filter (¬IsCommand ·) →
        ofArguments (xs ++ ys) = ofArguments (xs' ++ ys) := by
  refine ⟨?_, ?_, ?_⟩
  · intro h
    have hfront := front_append h ys
    have hself : front xs = xs := by simpa [front] using front_append h []
    have hnone : behind xs = [] := by simpa [behind] using behind_append h []
    constructor
    · rw [commands_ofArguments, commands_ofArguments, commands_ofArguments, hfront, hself, hnone,
        behind_append h, List.filter_append, List.append_nil, List.append_assoc]
    · intro kind name
      have gains := gains_ofArguments xs kind
      have gains' := gains_ofArguments ys kind
      have joined := gains_ofArguments (xs ++ ys) kind
      rw [hself] at gains
      rw [hfront, List.flatMap_append] at joined
      constructor
      · rw [joined.contains_iff, gains.contains_iff, gains'.contains_iff, List.mem_append]
        tauto
      · rw [joined.valuesOf_eq, gains.valuesOf_eq, gains'.valuesOf_eq, List.flatMap_append]
        rfl
  · intro h
    obtain ⟨before, after, rfl, hbefore⟩ := List.eq_append_cons_of_mem h
    rw [List.append_assoc, List.cons_append, ofArguments, ofArguments, addArguments_eq,
      addArguments_eq, front_cut hbefore, front_cut hbefore, behind_cut hbefore, behind_cut hbefore,
      List.append_assoc]
  · intro xs' h h' hcommands hswitches
    rw [ofArguments, ofArguments, addArguments_eq, addArguments_eq, front_append h, front_append h',
      behind_append h, behind_append h']
    have hsame :
        ({} : Invocation).addAll (xs ++ front ys) = ({} : Invocation).addAll (xs' ++ front ys) := by
      apply addAll_congr
      · rw [List.filter_append, List.filter_append, hcommands]
      · rw [List.filter_append, List.filter_append, hswitches]
    rw [hsame]

/-- A switch that is repeated behind the cut, in a cluster and with a value on both sides; then the
cut behind a `--`, and a command that changes places with the cluster. -/
theorem ofArguments_append_repeated_switch :
    (ofArguments ["run", "-vx=1", "-x=2", "--", "-v"]).commands = ["run", "-v"] ∧
      ((ofArguments ["run", "-vx=1", "-x=2", "--", "-v"]).supplied .short).valuesOf "x" =
        ["1", "2"] ∧
      (ofArguments ["-v", "--", "-x=2"]).commands = ["-x=2"] ∧
      ofArguments ["run", "-vx=1", "-x=2"] = ofArguments ["-vx=1", "run", "-x=2"] := by
  obtain ⟨joined, -, -⟩ := ofArguments_append ["run", "-vx=1"] ["-x=2", "--", "-v"]
  obtain ⟨-, kept, -⟩ := ofArguments_append ["-v", "--"] ["-x=2"]
  obtain ⟨-, -, moved⟩ := ofArguments_append ["run", "-vx=1"] ["-x=2"]
  obtain ⟨hcommands, hswitch⟩ := joined (by decide)
  have hswitched := moved ["-vx=1", "run"] (by decide) (by decide) (by decide +kernel)
    (by decide +kernel)
  refine ⟨hcommands.trans ?_, (hswitch .short "x").2.trans ?_, ?_, hswitched⟩
  · decide +kernel
  · decide +kernel
  · have hkept := congrArg commands (kept (by decide))
    exact hkept.trans (by decide +kernel)

end CommandRoutes.Invocation
