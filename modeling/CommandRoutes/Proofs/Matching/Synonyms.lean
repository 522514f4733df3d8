import CommandRoutes.Proofs.Matching.Walks

/-!
# Names and aliases of static items

A static item answers to its name and to each of its aliases, and nothing that matching answers
tells which of them was used: where a walk consumes a token with a static item, the token may be
exchanged for another name of the item. Elsewhere a token stands for itself, even if it reads like
a name, for dynamic and spread items bind the text. An alias that is given later is not noticed by
tokens that do not contain it.
-/
namespace CommandRoutes.CommandTree

variable {t : CommandTree}

/-! ## Tokens that static items consume -/

/-- The text is the name of the static item or one of its aliases. -/
def Names (t : CommandTree) (c : ItemId) (text : String) : Prop :=
  ∃ name, t.slot? c = some (.static name) ∧ (text = name ∨ text ∈ t.aliasesOf c)

/-- The walk from `p` consumes the token at this position with the static item: the tokens in front
lead to its parent, where it answers. -/
def LiteralAt (t : CommandTree) (p : ItemId) (tokens : List String) (position : Nat) (c : ItemId) :
    Prop :=
  ∃ q token, t.Walk p (tokens.take position) q ∧ tokens[position]? = some token ∧
    t.Answers q token c

/-- The second tokens are the first ones, save that where the walk of the first consumes a token
with a static item, the second may use any of its names. -/
structure Synonymous (t : CommandTree) (p : ItemId) (tokens tokens' : List String) : Prop where
  length_eq : tokens'.length = tokens.length
  alike : ∀ position token token', tokens[position]? = some token →
    tokens'[position]? = some token' →
    token' = token ∨ ∃ c, t.LiteralAt p tokens position c ∧ t.Names c token'

/-- The token is consumed alone, by a static or by a dynamic child. -/
def Consumes (t : CommandTree) (p : ItemId) (token : String) (c : ItemId) : Prop :=
  t.Answers p token c ∨ (∀ i, ¬t.Answers p token i) ∧ t.DynamicChild p c

variable {p c : ItemId} {token token' : String} {tokens tokens' rest rest' : List String}

theorem LiteralAt.answers (h : t.LiteralAt p (token :: rest) 0 c) : t.Answers p token c := by
  obtain ⟨q, first, walk, hfirst, hanswers⟩ := h
  cases walk
  cases hfirst
  exact hanswers

/-- The first tokens are the same or both names of one child. -/
theorem Synonymous.head (s : t.Synonymous p (token :: rest) (token' :: rest')) :
    token' = token ∨ ∃ c, t.Answers p token c ∧ t.Names c token' := by
  rcases s.alike 0 token token' rfl rfl with h | ⟨c, hat, hnames⟩
  · exact .inl h
  · exact .inr ⟨c, hat.answers, hnames⟩

namespace WellFormed
variable (w : t.WellFormed)
include w

theorem consumes_iff : t.Consumes p token c ↔ (t.literal? p token).or (t.dynamic? p) = some c := by
  rw [Consumes, ← w.literal?_eq_some_iff, ← w.literal?_eq_none_iff, ← w.dynamic?_eq_some_iff,
    Option.or_eq_some_iff]

/-- Behind the first token static items consume what they do from the item that consumes it; a
spread item leaves them nothing. -/
theorem literalAt_tail {position : Nat}
    (h : t.LiteralAt p (token :: rest) (position + 1) c) :
    ∃ next, t.Consumes p token next ∧ t.LiteralAt next rest position c := by
  obtain ⟨q, taken, walk, htaken, hanswers⟩ := h
  rw [List.take_succ_cons] at walk
  rw [List.getElem?_cons_succ] at htaken
  cases walk with
  | literal hc walk => exact ⟨_, .inl hc, q, taken, walk, htaken, hanswers⟩
  | dynamic silent hc walk => exact ⟨_, .inr ⟨silent, hc⟩, q, taken, walk, htaken, hanswers⟩
  | spread _ _ hc =>
      obtain ⟨b, hb⟩ := w.exists_branch_of_parent? hanswers.1
      have hleaf := (branch?_eq_none_iff (lt_size_of_branch? hb)).mpr (.inl hc.2)
      cases hleaf.symm.trans hb

theorem synonymous_tail (s : t.Synonymous p (token :: rest) (token' :: rest'))
    (hc : t.Consumes p token c) : t.Synonymous c rest rest' := by
  constructor
  · exact Nat.succ.inj s.length_eq
  · intro position first second hfirst hsecond
    rcases s.alike (position + 1) first second hfirst hsecond with h | ⟨i, hat, hnames⟩
    · exact .inl h
    · obtain ⟨next, hnext, hlater⟩ := w.literalAt_tail hat
      have hsame := (w.consumes_iff.mp hnext).symm.trans (w.consumes_iff.mp hc)
      cases hsame
      exact .inr ⟨i, hlater, hnames⟩

/-- Where no child consumes the first token alone, the others are the same. -/
theorem eq_of_synonymous (s : t.Synonymous p (token :: rest) (token' :: rest'))
    (unconsumed : ∀ next, ¬t.Consumes p token next) : rest' = rest := by
  apply List.ext_getElem (Nat.succ.inj s.length_eq)
  intro position hlt hlt'
  rcases s.alike (position + 1) rest[position] rest'[position] (by simp) (by simp) with
    h | ⟨i, hat, _⟩
  · exact h
  · obtain ⟨next, hnext, _⟩ := w.literalAt_tail hat
    exact absurd hnext (unconsumed next)

/-- Synonymous tokens lead to the same item, with the same bindings. -/
theorem followFrom_of_synonymous (s : t.Synonymous p tokens tokens') :
    t.followFrom p tokens' = t.followFrom p tokens := by
  induction tokens generalizing p tokens' with
  | nil => rw [List.length_eq_zero_iff.mp s.length_eq]
  | cons token rest ih =>
      cases tokens' with
      | nil => cases s.length_eq
      | cons token' rest' =>
          cases hl : t.literal? p token with
          | some c =>
              have hc := w.literal?_eq_some_iff.mp hl
              have hc' : t.Answers p token' c := by
                rcases s.head with rfl | ⟨i, hi, hnames⟩
                · exact hc
                · cases (w.literal?_eq_some_iff.mpr hi).symm.trans hl
                  exact ⟨hc.1, hnames⟩
              rw [followFrom_cons, followFrom_cons, hl, w.literal?_eq_some_iff.mpr hc']
              exact ih (w.synonymous_tail s (.inl hc))
          | none =>
              have silent := w.literal?_eq_none_iff.mp hl
              have htoken : token' = token := by
                apply s.head.resolve_right
                rintro ⟨i, hi, _⟩
                exact silent i hi
              subst htoken
              cases hd : t.dynamic? p with
              | some c =>
                  have hc := w.dynamic?_eq_some_iff.mp hd
                  have hrest := ih (w.synonymous_tail s (.inr ⟨silent, hc⟩))
                  rw [followFrom_cons, followFrom_cons, hl, hd]
                  simp only [hrest]
              | none =>
                  -- the rest goes into the binding of a spread item as it is
                  have hrest : rest' = rest := by
                    apply w.eq_of_synonymous s
                    intro next hnext
                    rw [w.consumes_iff, hl, hd] at hnext
                    cases hnext
                  rw [hrest]

end WellFormed

/-! ## Tokens that do not contain a new alias -/

section
variable {parent id : ItemId} {aliasName : String}

theorem literal?_enterAlias (hne : token ≠ aliasName) :
    (t.enterAlias parent id aliasName).literal? p token = t.literal? p token := by
  rw [literal?, literal?, branch?_enterAlias]
  split_ifs
  · cases t.branch? p with
    | none => rfl
    | some b => simp [Branch.literalChild?, hne]
  · rfl

theorem dynamic?_enterAlias : (t.enterAlias parent id aliasName).dynamic? p = t.dynamic? p := by
  apply Option.ext
  intro c
  rw [dynamic?_eq_some, dynamic?_eq_some, occupants_enterAlias]

theorem spread?_enterAlias : (t.enterAlias parent id aliasName).spread? p = t.spread? p := by
  apply Option.ext
  intro c
  rw [spread?_eq_some, spread?_eq_some, occupants_enterAlias]

theorem followFrom_enterAlias (absent : aliasName ∉ tokens) :
    (t.enterAlias parent id aliasName).followFrom p tokens = t.followFrom p tokens := by
  induction tokens generalizing p with
  | nil => rfl
  | cons token rest ih =>
      rw [List.mem_cons, not_or] at absent
      obtain ⟨hne, hrest⟩ := absent
      simp only [followFrom_cons, literal?_enterAlias (Ne.symm hne), dynamic?_enterAlias,
        spread?_enterAlias, name_enterAlias, ih hrest]

end

/-- Matching does not tell the names of a static item apart. Tokens that differ only where the walk
consumes a token with a static item, and there in the name they use for it, come to the same item
with the same bindings, or both to nothing; and an alias is not noticed by tokens that do not
contain it. -/
theorem Reachable.follow_synonymous (h : t.Reachable) :
    (∀ tokens tokens', t.Synonymous rootId tokens tokens' → t.follow tokens' = t.follow tokens) ∧
    ∀ id aliasName tokens, aliasName ∉ tokens →
      (t.giveAlias id aliasName).tree.follow tokens = t.follow tokens := by
  constructor
  · intro tokens tokens' s
    exact h.wellFormed.followFrom_of_synonymous s
  · intro id aliasName tokens absent
    obtain ⟨e, hgiven⟩ | hgiven | ⟨_, hgiven⟩ := t.giveAlias_cases id aliasName <;> rw [hgiven]
    exact followFrom_enterAlias absent

/-- The alias stands for the name in front, is bound as it is behind, and a second alias of the
same item changes nothing. -/
theorem follow_synonymous_alias_bound :
    let t := CommandTree.new.performAll [.route "copy/:from/...to", .giveAlias 1 "cp"]
    let tokens := ["copy", "cp", "copy", "b"]
    let tokens' := ["cp", "cp", "copy", "b"]
    let bindings : Bindings := [("from", .one "cp"), ("to", .many ["copy", "b"])]
    t.Reachable ∧ t.Synonymous rootId tokens tokens' ∧
      t.follow tokens = some (3, bindings) ∧ t.follow tokens' = some (3, bindings) ∧
      (t.giveAlias 1 "c").result = .ok () ∧
      (t.giveAlias 1 "c").tree.follow tokens' = some (3, bindings) := by
  intro t tokens tokens' bindings
  have reached : t.Reachable := Reachable.new.performAll _
  have hslot : t.slot? 1 = some (.static "copy") := by decide +kernel
  have halias : "cp" ∈ t.aliasesOf 1 := by decide +kernel
  have hanswers : t.Answers rootId "copy" 1 := ⟨by decide +kernel, "copy", hslot, .inl rfl⟩
  have synonymous : t.Synonymous rootId tokens tokens' := by
    constructor
    · rfl
    · intro position token token' htoken htoken'
      cases position with
      | zero =>
          cases htoken'
          exact .inr ⟨1, ⟨rootId, "copy", .done, rfl, hanswers⟩, "copy", hslot, .inr halias⟩
      | succ position => exact .inl (Option.some.inj (htoken'.symm.trans htoken))
  have hfollow : t.follow tokens = some (3, bindings) := by decide +kernel
  obtain ⟨names, aliases⟩ := reached.follow_synonymous
  have hfollow' := (names tokens tokens' synonymous).trans hfollow
  have hgiven := (aliases 1 "c" tokens' (by decide)).trans hfollow'
  exact ⟨reached, synonymous, hfollow, hfollow', by decide +kernel, hgiven⟩

end CommandRoutes.CommandTree
