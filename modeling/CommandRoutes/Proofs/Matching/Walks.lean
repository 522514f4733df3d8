import CommandRoutes.Matching
import CommandRoutes.Proofs.Tree.Address

/-!
# Following tokens is walking greedily

A token is consumed by the static child that answers to it, else by the dynamic
child, else together with all later tokens by the spread child. A walk consumes
all tokens in this way, or gets stuck at one, and following tokens finds the item
at the end of the walk. The bindings made on the way account for every token: read
along the items from below the root down to the last one they give the tokens
back.
-/
namespace CommandRoutes.CommandTree

variable {t : CommandTree}

/-! ## Consuming one token -/

/-- A static child of `p` has the token as its name or as an alias. -/
def Answers (t : CommandTree) (p : ItemId) (token : String) (c : ItemId) : Prop :=
  t.parent? c = some p ∧
    ∃ name, t.slot? c = some (.static name) ∧ (token = name ∨ token ∈ t.aliasesOf c)

def DynamicChild (t : CommandTree) (p c : ItemId) : Prop :=
  t.parent? c = some p ∧ t.slot? c = some .dynamic

def SpreadChild (t : CommandTree) (p c : ItemId) : Prop :=
  t.parent? c = some p ∧ t.slot? c = some .spread

def literal? (t : CommandTree) (p : ItemId) (token : String) : Option ItemId :=
  (t.branch? p).bind (·.literalChild? token)

def dynamic? (t : CommandTree) (p : ItemId) : Option ItemId := (t.branch? p).bind Branch.dynamic

def spread? (t : CommandTree) (p : ItemId) : Option ItemId := (t.branch? p).bind Branch.spread

theorem followFrom_cons (p : ItemId) (token : String) (rest : List String) :
    t.followFrom p (token :: rest) =
      match t.literal? p token with
      | some next => t.followFrom next rest
      | none =>
        match t.dynamic? p with
        | some next =>
            (t.followFrom next rest).map fun r => (r.1, (t.name next, .one token) :: r.2)
        | none => (t.spread? p).map fun next => (next, [(t.name next, .many (token :: rest))]) := by
  rw [followFrom, literal?, dynamic?, spread?]
  cases t.branch? p with
  | none => rfl
  | some b =>
      simp only [Option.bind_some]
      cases b.spread <;> rfl

/-- Making bindings on the way does not change where it leads. -/
theorem destinationFrom?_eq (p : ItemId) (tokens : List String) :
    t.destinationFrom? p tokens = (t.followFrom p tokens).map Prod.fst := by
  induction tokens generalizing p with
  | nil => rfl
  | cons token rest ih =>
      rw [destinationFrom?, followFrom]
      cases t.branch? p with
      | none => rfl
      | some b =>
          dsimp only
          cases b.literalChild? token with
          | some next => exact ih next
          | none =>
              dsimp only
              cases b.dynamic with
              | some next =>
                  dsimp only
                  rw [ih, Option.map_map]
                  rfl
              | none => cases b.spread <;> rfl

theorem destination?_eq (tokens : List String) :
    t.destination? tokens = (t.follow tokens).map Prod.fst :=
  destinationFrom?_eq rootId tokens

theorem dynamic?_eq_some {p c : ItemId} : t.dynamic? p = some c ↔ c ∈ t.occupants p .dynamic := by
  cases hb : t.branch? p <;> simp [dynamic?, occupants, hb, Branch.occupants]

theorem spread?_eq_some {p c : ItemId} : t.spread? p = some c ↔ c ∈ t.occupants p .spread := by
  cases hb : t.branch? p <;> simp [spread?, occupants, hb, Branch.occupants]

theorem literal?_eq_some {p c : ItemId} {token : String} :
    t.literal? p token = some c ↔ c ∈ t.occupants p (.static token) ∨
      t.occupants p (.static token) = [] ∧ t.aliased? p token = some c := by
  cases hb : t.branch? p with
  | none => simp [literal?, occupants, aliased?, hb]
  | some b =>
      cases hs : b.statics.get? token <;>
        simp [literal?, occupants, aliased?, hb, Branch.literalChild?, Branch.occupants, hs,
          eq_comm]

theorem literal?_eq_none {p : ItemId} {token : String} :
    t.literal? p token = none ↔ t.occupants p (.static token) = [] ∧ t.aliased? p token = none := by
  cases hb : t.branch? p with
  | none => simp [literal?, occupants, aliased?, hb]
  | some b => simp [literal?, occupants, aliased?, hb, Branch.literalChild?, Branch.occupants]

namespace WellFormed
variable (w : t.WellFormed)
include w

theorem literal?_eq_some_iff {p c : ItemId} {token : String} :
    t.literal? p token = some c ↔ t.Answers p token c := by
  rw [literal?_eq_some, w.mem_occupants, w.aliased?_iff]
  constructor
  · rintro (⟨hp, hslot⟩ | ⟨_, hp, ⟨name, hslot⟩, halias⟩)
    · exact ⟨hp, token, hslot, .inl rfl⟩
    · exact ⟨hp, name, hslot, .inr halias⟩
  · rintro ⟨hp, name, hslot, rfl | halias⟩
    · exact .inl ⟨hp, hslot⟩
    · have haliased := w.aliased?_iff.mpr ⟨hp, ⟨name, hslot⟩, halias⟩
      exact .inr ⟨w.alias_free haliased, hp, ⟨name, hslot⟩, halias⟩

theorem dynamic?_eq_some_iff {p c : ItemId} : t.dynamic? p = some c ↔ t.DynamicChild p c := by
  rw [dynamic?_eq_some, w.mem_occupants, DynamicChild]

theorem spread?_eq_some_iff {p c : ItemId} : t.spread? p = some c ↔ t.SpreadChild p c := by
  rw [spread?_eq_some, w.mem_occupants, SpreadChild]

theorem literal?_eq_none_iff {p : ItemId} {token : String} :
    t.literal? p token = none ↔ ∀ c, ¬t.Answers p token c := by
  simp only [Option.eq_none_iff_forall_ne_some, ne_eq, w.literal?_eq_some_iff]

theorem dynamic?_eq_none_iff {p : ItemId} :
    t.dynamic? p = none ↔ ∀ c, ¬t.DynamicChild p c := by
  simp only [Option.eq_none_iff_forall_ne_some, ne_eq, w.dynamic?_eq_some_iff]

theorem spread?_eq_none_iff {p : ItemId} : t.spread? p = none ↔ ∀ c, ¬t.SpreadChild p c := by
  simp only [Option.eq_none_iff_forall_ne_some, ne_eq, w.spread?_eq_some_iff]

end WellFormed

/-! ## Walks -/

/-- From `p` the tokens lead to an item, each consumed in order, and no other way is open. -/
inductive Walk (t : CommandTree) : ItemId → List String → ItemId → Prop
  | done {n : ItemId} : Walk t n [] n
  | literal {p c n : ItemId} {token : String} {rest : List String} :
      t.Answers p token c → Walk t c rest n → Walk t p (token :: rest) n
  | dynamic {p c n : ItemId} {token : String} {rest : List String} :
      (∀ i, ¬t.Answers p token i) → t.DynamicChild p c → Walk t c rest n →
      Walk t p (token :: rest) n
  | spread {p c : ItemId} {token : String} {rest : List String} :
      (∀ i, ¬t.Answers p token i) → (∀ i, ¬t.DynamicChild p i) → t.SpreadChild p c →
      Walk t p (token :: rest) c

/-- The walk from `p` meets a token that nothing consumes. -/
inductive Stuck (t : CommandTree) : ItemId → List String → Prop
  | here {p : ItemId} {token : String} {rest : List String} :
      (∀ i, ¬t.Answers p token i) → (∀ i, ¬t.DynamicChild p i) → (∀ i, ¬t.SpreadChild p i) →
      Stuck t p (token :: rest)
  | literal {p c : ItemId} {token : String} {rest : List String} :
      t.Answers p token c → Stuck t c rest → Stuck t p (token :: rest)
  | dynamic {p c : ItemId} {token : String} {rest : List String} :
      (∀ i, ¬t.Answers p token i) → t.DynamicChild p c → Stuck t c rest →
      Stuck t p (token :: rest)

/-- Read along the items the bindings give the tokens: a static item stands for its name or one of
its aliases, a dynamic item for the token bound to it, a spread item at the end for all tokens that
are left. No switch item is read. -/
inductive Accounts (t : CommandTree) : List ItemId → List String → Bindings → Prop
  | nil : Accounts t [] [] []
  | literal {c : ItemId} {items : List ItemId} {name token : String} {rest : List String}
      {bindings : Bindings} :
      t.slot? c = some (.static name) → (token = name ∨ token ∈ t.aliasesOf c) →
      Accounts t items rest bindings → Accounts t (c :: items) (token :: rest) bindings
  | dynamic {c : ItemId} {items : List ItemId} {token : String} {rest : List String}
      {bindings : Bindings} :
      t.slot? c = some .dynamic → Accounts t items rest bindings →
      Accounts t (c :: items) (token :: rest) ((t.name c, .one token) :: bindings)
  | spread {c : ItemId} {token : String} {rest : List String} :
      t.slot? c = some .spread →
      Accounts t [c] (token :: rest) [(t.name c, .many (token :: rest))]

/-- Whether the item binds tokens to its name. -/
def binds (t : CommandTree) (id : ItemId) : Bool :=
  t.slot? id = some .dynamic ∨ t.slot? id = some .spread

namespace Accounts
variable {items : List ItemId} {tokens : List String} {bindings : Bindings}

/-- There is one binding for each item that binds, in their order. -/
theorem map_fst (h : t.Accounts items tokens bindings) :
    bindings.map Prod.fst = (items.filter t.binds).map t.name := by
  induction h with
  | nil => rfl
  | literal hslot _ _ ih => simp [binds, hslot, ih]
  | dynamic hslot _ ih => simp [binds, hslot, ih]
  | spread hslot => simp [binds, hslot]

theorem slot?_ne_switchItem (h : t.Accounts items tokens bindings) :
    ∀ c ∈ items, t.slot? c ≠ some .switchItem := by
  induction h with
  | nil => simp
  | literal hslot _ _ ih => exact List.forall_mem_cons.mpr ⟨by simp [hslot], ih⟩
  | dynamic hslot _ ih => exact List.forall_mem_cons.mpr ⟨by simp [hslot], ih⟩
  | spread hslot => exact List.forall_mem_singleton.mpr (by simp [hslot])

end Accounts

namespace WellFormed
variable (w : t.WellFormed)
include w

theorem walk_or_stuck (p : ItemId) (tokens : List String) :
    (∃ n, t.Walk p tokens n) ∨ t.Stuck p tokens := by
  induction tokens generalizing p with
  | nil => exact .inl ⟨p, .done⟩
  | cons token rest ih =>
      cases hl : t.literal? p token with
      | some c =>
          have hc := w.literal?_eq_some_iff.mp hl
          rcases ih c with ⟨n, hn⟩ | hstuck
          · exact .inl ⟨n, .literal hc hn⟩
          · exact .inr (.literal hc hstuck)
      | none =>
          have silent := w.literal?_eq_none_iff.mp hl
          cases hd : t.dynamic? p with
          | some c =>
              have hc := w.dynamic?_eq_some_iff.mp hd
              rcases ih c with ⟨n, hn⟩ | hstuck
              · exact .inl ⟨n, .dynamic silent hc hn⟩
              · exact .inr (.dynamic silent hc hstuck)
          | none =>
              have noDynamic := w.dynamic?_eq_none_iff.mp hd
              cases hs : t.spread? p with
              | some c => exact .inl ⟨c, .spread silent noDynamic (w.spread?_eq_some_iff.mp hs)⟩
              | none => exact .inr (.here silent noDynamic (w.spread?_eq_none_iff.mp hs))

theorem followFrom_of_stuck {p : ItemId} {tokens : List String} (h : t.Stuck p tokens) :
    t.followFrom p tokens = none := by
  induction h with
  | here silent noDynamic noSpread =>
      simp [followFrom_cons, w.literal?_eq_none_iff.mpr silent,
        w.dynamic?_eq_none_iff.mpr noDynamic, w.spread?_eq_none_iff.mpr noSpread]
  | literal hc _ ih => simp [followFrom_cons, w.literal?_eq_some_iff.mpr hc, ih]
  | dynamic silent hc _ ih =>
      simp [followFrom_cons, w.literal?_eq_none_iff.mpr silent, w.dynamic?_eq_some_iff.mpr hc, ih]

/-- The item at the end of a walk is found, with bindings that account for the tokens along the
items walked through. -/
theorem followFrom_of_walk {p n : ItemId} {tokens : List String} (h : t.Walk p tokens n) :
    ∃ items bindings, t.followFrom p tokens = some (n, bindings) ∧
      t.trail n = t.trail p ++ items ∧ t.Accounts items tokens bindings := by
  induction h with
  | @done n => exact ⟨[], [], rfl, by simp, .nil⟩
  | @literal p c n token rest hc _ ih =>
      obtain ⟨items, bindings, hfollow, htrail, haccounts⟩ := ih
      obtain ⟨hparent, name, hslot, htoken⟩ := id hc
      refine ⟨c :: items, bindings, ?_, ?_, .literal hslot htoken haccounts⟩
      · rw [followFrom_cons, w.literal?_eq_some_iff.mpr hc]
        exact hfollow
      · rw [htrail, w.trail_of_parent? hparent, List.append_assoc, List.singleton_append]
  | @dynamic p c n token rest silent hc _ ih =>
      obtain ⟨items, bindings, hfollow, htrail, haccounts⟩ := ih
      refine ⟨c :: items, _, ?_, ?_, .dynamic hc.2 haccounts⟩
      · rw [followFrom_cons, w.literal?_eq_none_iff.mpr silent, w.dynamic?_eq_some_iff.mpr hc]
        simp [hfollow]
      · rw [htrail, w.trail_of_parent? hc.1, List.append_assoc, List.singleton_append]
  | @spread p c token rest silent noDynamic hc =>
      refine ⟨[c], _, ?_, w.trail_of_parent? hc.1, .spread hc.2⟩
      rw [followFrom_cons, w.literal?_eq_none_iff.mpr silent, w.dynamic?_eq_none_iff.mpr noDynamic,
        w.spread?_eq_some_iff.mpr hc]
      rfl

/-- Tokens lead to an item just if the walk ends there. -/
theorem destinationFrom?_eq_some {p n : ItemId} {tokens : List String} :
    t.destinationFrom? p tokens = some n ↔ t.Walk p tokens n := by
  rw [destinationFrom?_eq]
  have followed : ∀ {m}, t.Walk p tokens m → (t.followFrom p tokens).map Prod.fst = some m := by
    intro m walk
    obtain ⟨_, _, hfollow, _⟩ := w.followFrom_of_walk walk
    rw [hfollow, Option.map_some]
  constructor
  · intro h
    rcases w.walk_or_stuck p tokens with ⟨m, walk⟩ | stuck
    · obtain rfl := Option.some.inj ((followed walk).symm.trans h)
      exact walk
    · rw [w.followFrom_of_stuck stuck] at h
      cases h
  · exact followed

theorem followFrom_eq_none {p : ItemId} {tokens : List String} :
    t.followFrom p tokens = none ↔ t.Stuck p tokens := by
  refine ⟨fun hnone => (w.walk_or_stuck p tokens).resolve_left ?_, w.followFrom_of_stuck⟩
  rintro ⟨n, walk⟩
  obtain ⟨_, _, hfollow, _⟩ := w.followFrom_of_walk walk
  cases hnone.symm.trans hfollow

end WellFormed

/-- Following tokens is the greedy walk from the root: it finds the item at the end of the walk and
nothing when the walk gets stuck, whether or not bindings are made. The bindings have one entry for
each dynamic and spread item on the way, and with the items they give all tokens back. Reading
bindings alone fails just where following does. -/
theorem Reachable.follow_sound (h : t.Reachable) (tokens : List String) :
    t.destination? tokens = (t.follow tokens).map Prod.fst ∧
    (∀ n, (t.follow tokens).map Prod.fst = some n ↔ t.Walk rootId tokens n) ∧
    (t.follow tokens = none ↔ t.Stuck rootId tokens) ∧
    (∀ n bindings, t.follow tokens = some (n, bindings) →
      t.slot? n ≠ some .switchItem ∧
      t.Accounts ((t.trail n).drop 1) tokens bindings ∧
      bindings.map Prod.fst = ((t.trail n).filter t.binds).map t.name ∧
      t.bindTokens tokens = .ok bindings) ∧
    (t.follow tokens = none → t.bindTokens tokens = .error (.noRoute tokens)) := by
  have w := h.wellFormed
  have walk_iff : ∀ n, (t.follow tokens).map Prod.fst = some n ↔ t.Walk rootId tokens n := by
    intro n
    rw [← destination?_eq]
    exact w.destinationFrom?_eq_some
  refine ⟨destination?_eq tokens, walk_iff, w.followFrom_eq_none, ?_, ?_⟩
  · intro n bindings hsome
    have walk : t.Walk rootId tokens n := (walk_iff n).mp (by rw [hsome, Option.map_some])
    obtain ⟨items, _, hfollow, htrail, haccounts⟩ := w.followFrom_of_walk walk
    cases hsome.symm.trans hfollow
    rw [w.trail_rootId, List.singleton_append] at htrail
    have hroot : t.slot? rootId = none := by
      rw [slot?_eq_map_segment?, w.segment?_rootId]
      rfl
    refine ⟨?_, by simpa [htrail] using haccounts, ?_, ?_⟩
    · have hmem : n ∈ rootId :: items := by
        rw [← htrail, trail, List.mem_reverse]
        exact self_mem_ancestry n
      rcases List.mem_cons.mp hmem with rfl | hmem
      · simp [hroot]
      · exact haccounts.slot?_ne_switchItem n hmem
    · rw [htrail, haccounts.map_fst, List.filter_cons_of_neg (by simp [binds, hroot])]
    · rw [bindTokens, hsome]
  · intro hnone
    rw [bindTokens, hnone]

/-- An alias is followed, one token is bound to a dynamic item and the rest to a spread item. -/
theorem follow_sound_alias_dynamic_spread :
    let t := ((CommandTree.new.perform (.route "copy/:from/...to")).tree.perform
      (.giveAlias 1 "cp")).tree
    let bindings : Bindings := [("from", .one "a"), ("to", .many ["b", "c"])]
    t.Reachable ∧ t.follow ["cp", "a", "b", "c"] = some (3, bindings) ∧
      t.destination? ["cp", "a", "b", "c"] = some 3 ∧ t.Walk rootId ["cp", "a", "b", "c"] 3 ∧
      t.Accounts [1, 2, 3] ["cp", "a", "b", "c"] bindings := by
  intro t bindings
  have reached : t.Reachable := .perform _ (.perform _ .new)
  have hfollow : t.follow ["cp", "a", "b", "c"] = some (3, bindings) := by decide +kernel
  obtain ⟨hsame, hwalk, _, haccounts, _⟩ := reached.follow_sound ["cp", "a", "b", "c"]
  have htrail : t.trail 3 = [0, 1, 2, 3] := by decide +kernel
  refine ⟨reached, hfollow, by rw [hsame, hfollow]; rfl,
    (hwalk 3).mp (by rw [hfollow]; rfl), ?_⟩
  simpa [htrail] using (haccounts 3 bindings hfollow).2.1

end CommandRoutes.CommandTree
