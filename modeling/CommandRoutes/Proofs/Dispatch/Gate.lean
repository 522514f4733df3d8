import CommandRoutes.Proofs.Dispatch.Plan
import CommandRoutes.Proofs.Matching.Selection

/-!
# The gate of a dispatch

A dispatch is cleared if its commands lead somewhere, no help is given on
request, the switches are accepted at the target and callbacks hang there. Only
then does it invoke anything. It calls the first callbacks of the target and no
others, and calls none just if a hook has decided. Where a dispatch is not
cleared it is settled: the first condition that fails determines the answer and
nothing is invoked.
-/
namespace CommandRoutes

variable {m : Type → Type}

/-! ## Events -/

namespace Event

/-- The callback that was called, with the item it hangs at. -/
def call? : Event m → Option (ItemId × Callback m)
  | .called item callback _ _ => some (item, callback)
  | .asked .. | .told .. => none

/-- The callbacks called, in order. -/
def calls (events : List (Event m)) : List (ItemId × Callback m) := events.filterMap call?

/-- Some hook that was asked has decided. -/
def Decided (events : List (Event m)) : Prop :=
  ∃ hook view ruling, Event.asked hook view (some ruling) ∈ events

theorem calls_append (events later : List (Event m)) :
    calls (events ++ later) = calls events ++ calls later :=
  List.filterMap_append

theorem decided_append {events later : List (Event m)} :
    Decided (events ++ later) ↔ Decided events ∨ Decided later := by
  simp only [Decided, List.mem_append, exists_or]

theorem calls_told (hooks : List (Hook m)) (view : HookView) (outcome : RunOutcome) :
    calls (hooks.map (.told · view outcome)) = [] := by
  simp [calls, List.filterMap_eq_nil_iff, call?]

theorem not_decided_told (hooks : List (Hook m)) (view : HookView) (outcome : RunOutcome) :
    ¬Decided (hooks.map (.told · view outcome)) := by
  simp [Decided]

end Event

open Event

namespace Hook.Asked
variable {view : HookView} {hooks : List (Hook m)} {ruling : Option Ruling}
  {events : List (Event m)}

theorem calls_eq_nil (h : Asked view hooks ruling events) : calls events = [] := by
  induction h with
  | undecided => rfl
  | decided => rfl
  | further _ ih => exact ih

theorem decided_iff (h : Asked view hooks ruling events) : Decided events ↔ ruling.isSome := by
  induction h with
  | undecided => simp [Decided]
  | decided => simp [Decided]
  | further _ ih =>
      rw [← ih]
      simp [Decided]

end Hook.Asked

namespace Callback.Ran
variable {item : ItemId} {view : CallView} {index : Nat} {callbacks : List (Callback m)}
  {outcome : Except Fault RunOutcome} {events : List (Event m)}

theorem calls_prefix (h : Ran item view index callbacks outcome events) :
    calls events <+: callbacks.map (item, ·) := by
  induction h with
  | done => exact List.prefix_rfl
  | failed => exact List.cons_prefix_cons.mpr ⟨rfl, List.nil_prefix⟩
  | stopped => exact List.cons_prefix_cons.mpr ⟨rfl, List.nil_prefix⟩
  | proceeded _ ih => exact List.cons_prefix_cons.mpr ⟨rfl, ih⟩
  | merged _ ih => exact List.cons_prefix_cons.mpr ⟨rfl, ih⟩

theorem calls_ne_nil (h : Ran item view index callbacks outcome events) (bound : callbacks ≠ []) :
    calls events ≠ [] := by
  cases h with
  | done => exact absurd rfl bound
  | failed => simp [calls, call?]
  | stopped => simp [calls, call?]
  | proceeded _ => simp [calls, call?]
  | merged _ => simp [calls, call?]

theorem not_decided (h : Ran item view index callbacks outcome events) : ¬Decided events := by
  induction h with
  | done => simp [Decided]
  | failed => simp [Decided]
  | stopped => simp [Decided]
  | proceeded _ ih => simpa [Decided] using ih
  | merged _ ih => simpa [Decided] using ih

end Callback.Ran

namespace Dispatcher

/-- Where callbacks hang at the target the first of them are called, unless a hook decides. -/
theorem Ran.calls {d : Dispatcher m} {target : ItemId} {bindings : Bindings} {input : Invocation}
    {context : Context} {answer : Except Fault Outcome} {events : List (Event m)}
    (h : d.Ran target bindings input context answer events) (bound : d.callbacksOf target ≠ []) :
    calls events <+: (d.callbacksOf target).map (target, ·) ∧
      (calls events = [] ↔ Decided events) := by
  cases h with
  | ruled _ hasked =>
      have hdecided := hasked.decided_iff.mpr rfl
      rw [calls_append, hasked.calls_eq_nil, calls_told]
      exact ⟨List.nil_prefix, iff_of_true rfl (decided_append.mpr (.inl hdecided))⟩
  | completed _ hasked hran =>
      have hundecided := (not_congr hasked.decided_iff).mpr (by simp)
      rw [calls_append, calls_append, hasked.calls_eq_nil, calls_told, List.nil_append,
        List.append_nil, decided_append, decided_append]
      exact ⟨hran.calls_prefix, iff_of_false (hran.calls_ne_nil bound)
        (not_or.mpr ⟨hundecided, not_or.mpr ⟨hran.not_decided, not_decided_told _ _ _⟩⟩)⟩
  | failed _ hasked hran =>
      have hundecided := (not_congr hasked.decided_iff).mpr (by simp)
      rw [calls_append, hasked.calls_eq_nil, List.nil_append, decided_append]
      exact ⟨hran.calls_prefix, iff_of_false (hran.calls_ne_nil bound)
        (not_or.mpr ⟨hundecided, hran.not_decided⟩)⟩

/-! ## The gate -/

/-- The commands lead to `item`, and from there the supplied switches to `target`. -/
structure Leads (d : Dispatcher m) (input : Invocation) (item target : ItemId)
    (bindings : Bindings) : Prop where
  followed : d.tree.follow input.commands = some (item, bindings)
  selected : d.tree.Target input.short input.long item target

/-- The input asks for help, and help is given on request. -/
def Helps (d : Dispatcher m) (input : Invocation) : Prop :=
  d.options.helpOnRequest = true ∧ d.options.asksForHelp input.short input.long = true

/-- The answer of a dispatch that is not to invoke anything. -/
inductive Settled (d : Dispatcher m) (input : Invocation) (context : Context) :
    Except Fault Outcome → Prop
  | unknownCommand : d.tree.follow input.commands = none →
      Settled d input context
        (if d.options.helpOnUnknownCommand then .ok (.help CommandTree.rootId .unknownCommand none)
        else .error (.noRoute input.commands))
  | asked {item : ItemId} {bindings : Bindings} :
      d.tree.follow input.commands = some (item, bindings) → d.Helps input →
      Settled d input context (.ok (.help item .asked none))
  | rejectedSwitches {item target : ItemId} {bindings : Bindings} {fault : Fault} :
      d.Leads input item target bindings → ¬d.Helps input →
      d.tree.verify target input.short input.long d.options = .error fault →
      Settled d input context
        (if d.options.helpOnRejectedSwitches then .ok (.help target .rejectedSwitches (some fault))
        else .error fault)
  | noAction {item target : ItemId} {bindings : Bindings} : d.Leads input item target bindings →
      ¬d.Helps input → d.tree.verify target input.short input.long d.options = .ok () →
      d.callbacksOf target = [] →
      Settled d input context
        (if d.options.helpOnNoAction then .ok (.help target .noAction none)
        else .ok (.completed target context bindings))

/-- What has to hold before a dispatch invokes anything. -/
structure Cleared (d : Dispatcher m) (input : Invocation) (target : ItemId)
    (bindings : Bindings) : Prop where
  leads : ∃ item, d.Leads input item target bindings
  unhelped : ¬d.Helps input
  accepted : d.tree.verify target input.short input.long d.options = .ok ()
  bound : d.callbacksOf target ≠ []

variable {d : Dispatcher m} {input : Invocation} {context : Context}

theorem locate_of_follow {item : ItemId} {bindings : Bindings}
    (h : d.tree.follow input.commands = some (item, bindings)) :
    d.tree.locate input =
      some ⟨item, d.tree.selectItem? item input.short input.long, bindings⟩ := by
  rw [CommandTree.locate, h]
  rfl

/-- Past the commands and the request for help it is the target that matters. -/
theorem gate_of_leads {item target : ItemId} {bindings : Bindings}
    (h : d.Leads input item target bindings) (unhelped : ¬d.Helps input) :
    d.gate input context =
      match d.tree.verify target input.short input.long d.options with
      | .error fault => .settled (if d.options.helpOnRejectedSwitches then
          .ok (.help target .rejectedSwitches (some fault)) else .error fault)
      | .ok _ => if (d.callbacksOf target).isEmpty then
          .settled (if d.options.helpOnNoAction then .ok (.help target .noAction none)
            else .ok (.completed target context bindings))
        else .pass target bindings := by
  have htarget : Resolution.target
      ⟨item, d.tree.selectItem? item input.short input.long, bindings⟩ = target :=
    CommandTree.target_iff.mp h.selected
  have hhelp : (d.options.helpOnRequest && d.options.asksForHelp input.short input.long) = false := by
    simpa [Helps] using unhelped
  rw [gate, locate_of_follow h.followed]
  simp only [hhelp, htarget, Bool.false_eq_true, if_false]
  cases d.tree.verify target input.short input.long d.options with
  | error fault => exact (apply_ite Gate.settled _ _ _).symm
  | ok _ =>
      dsimp only
      rw [apply_ite Gate.settled]

theorem gate_of_settled {answer : Except Fault Outcome} (h : d.Settled input context answer) :
    d.gate input context = .settled answer := by
  cases h with
  | unknownCommand hfollow =>
      have hlocate : d.tree.locate input = none := by
        rw [CommandTree.locate, hfollow]
        rfl
      rw [gate, hlocate]
      exact (apply_ite Gate.settled _ _ _).symm
  | asked hfollow hhelp =>
      rw [gate, locate_of_follow hfollow]
      simp [hhelp.1, hhelp.2]
  | rejectedSwitches hleads unhelped hverify => rw [gate_of_leads hleads unhelped, hverify]
  | noAction hleads unhelped hverify hbound =>
      rw [gate_of_leads hleads unhelped, hverify, hbound]
      rfl

theorem gate_of_cleared {target : ItemId} {bindings : Bindings}
    (h : d.Cleared input target bindings) : d.gate input context = .pass target bindings := by
  obtain ⟨item, hleads⟩ := h.leads
  rw [gate_of_leads hleads h.unhelped, h.accepted]
  simp [h.bound]

/-- One or the other is the case. -/
theorem settled_or_cleared (d : Dispatcher m) (input : Invocation) (context : Context) :
    (∃ answer, d.Settled input context answer) ∨
      ∃ target bindings, d.Cleared input target bindings := by
  cases hfollow : d.tree.follow input.commands with
  | none => exact .inl ⟨_, .unknownCommand hfollow⟩
  | some found =>
      obtain ⟨item, bindings⟩ := found
      by_cases hhelp : d.Helps input
      · exact .inl ⟨_, .asked hfollow hhelp⟩
      · have hleads : d.Leads input item _ bindings := ⟨hfollow, CommandTree.target_iff.mpr rfl⟩
        cases hverify : d.tree.verify _ input.short input.long d.options with
        | error fault => exact .inl ⟨_, .rejectedSwitches hleads hhelp hverify⟩
        | ok _ =>
            by_cases hbound : d.callbacksOf
                ((d.tree.selectItem? item input.short input.long).getD item) = []
            · exact .inl ⟨_, .noAction hleads hhelp hverify hbound⟩
            · exact .inr ⟨_, bindings, ⟨item, hleads⟩, hhelp, hverify, hbound⟩

/-- A dispatch is settled, and then it invokes nothing and has that answer, or it is cleared for a
target. Then what it invokes are hooks and the first callbacks of the target, and callbacks just
if no hook decides. -/
theorem dispatch_gated [Monad m] [LawfulMonad m] (d : Dispatcher m) (input : Invocation)
    (context : Context) :
    (d.planned.dispatch input context).perform = d.dispatch input context ∧
    ((∃ answer, d.Settled input context answer) ∨
      ∃ target bindings, d.Cleared input target bindings) ∧
    (∀ answer, d.Settled input context answer →
      d.planned.dispatch input context = .done answer ∧
      d.dispatch input context = pure answer) ∧
    ∀ target bindings, d.Cleared input target bindings →
      ∀ answer events, (d.planned.dispatch input context).Path answer events →
        calls events <+: (d.callbacksOf target).map (target, ·) ∧
        (calls events = [] ↔ Decided events) := by
  refine ⟨perform_dispatch d input context, settled_or_cleared d input context, ?_, ?_⟩
  · intro answer hsettled
    have hgate := gate_of_settled hsettled
    constructor
    · rw [dispatch, gate_planned, hgate]
      rfl
    · rw [dispatch, hgate]
  · intro target bindings hcleared answer events hpath
    rw [dispatch, gate_planned, gate_of_cleared hcleared] at hpath
    exact (ran_of_path hpath).calls hcleared.bound

/-- A supplied switch selects the switch item, whose callback may run; no command, no callback. -/
theorem dispatch_gated_switch_item :
    let d : Dispatcher Id := ((({} : Dispatcher Id).register "run" (.proceed none)).2.register
      "run[fast]" (.stop none)).2.withHook .idle
    let fast : Invocation := { commands := ["run"], long := NameMap.empty.insert "fast" [] }
    let walk : Invocation := { commands := ["walk"] }
    d.Cleared fast 2 [] ∧
    (∀ answer events, (d.planned.dispatch fast .empty).Path answer events →
      calls events <+: (d.callbacksOf 2).map (2, ·) ∧ (calls events = [] ↔ Decided events)) ∧
    d.dispatch walk .empty = pure (.error (.noRoute ["walk"])) := by
  intro d fast walk
  have hbound : (d.callbacksOf 2).length = 1 := by decide +kernel
  have hcleared : d.Cleared fast 2 [] := by
    refine ⟨⟨1, by decide +kernel, CommandTree.target_iff.mpr (by decide +kernel)⟩, ?_, ?_, ?_⟩
    · exact fun hhelp => absurd hhelp.1 (by decide +kernel)
    · decide +kernel
    · exact List.ne_nil_of_length_pos (by omega)
  obtain ⟨_, _, _, hpaths⟩ := d.dispatch_gated fast .empty
  obtain ⟨_, _, hsettled, _⟩ := d.dispatch_gated walk .empty
  have hnone : d.tree.follow walk.commands = none := by decide +kernel
  exact ⟨hcleared, hpaths 2 [] hcleared, (hsettled _ (.unknownCommand hnone)).2⟩

end Dispatcher
end CommandRoutes
