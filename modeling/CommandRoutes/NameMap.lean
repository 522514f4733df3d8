/-!
# Maps from names, kept in name order

A `NameMap` holds its entries in strictly increasing order of their names.
Order is by code point, so listing the entries is listing them sorted, and a
name occurs at most once. Two maps are equal exactly when every name reads the
same in both (`NameMap.ext_get?`); writing is described by `NameMap.get?_alter`.
-/
namespace CommandRoutes

structure NameMap (α : Type) where
  entries : List (String × α) := []
  sorted : entries.Pairwise (fun a b => a.1 < b.1) := by exact List.Pairwise.nil
  deriving DecidableEq

namespace NameMap
variable {α β : Type}

def empty : NameMap α := {}

instance : Inhabited (NameMap α) := ⟨empty⟩

instance : EmptyCollection (NameMap α) := ⟨empty⟩

def get? (m : NameMap α) (name : String) : Option α := m.entries.lookup name

def contains (m : NameMap α) (name : String) : Bool := (m.get? name).isSome

def keys (m : NameMap α) : List String := m.entries.map Prod.fst

def values (m : NameMap α) : List α := m.entries.map Prod.snd

def isEmpty (m : NameMap α) : Bool := m.entries.isEmpty

/-- Changes the entry of `name` in a sorted list, or adds one at its place. -/
def alterEntries (name : String) (f : Option α → α) : List (String × α) → List (String × α)
  | [] => [(name, f none)]
  | (k, v) :: rest =>
    if name < k then (name, f none) :: (k, v) :: rest
    else if name = k then (k, f (some v)) :: rest
    else (k, v) :: alterEntries name f rest

theorem mem_keys_alterEntries {name : String} {f : Option α → α} {k : String} :
    ∀ {l : List (String × α)}, k ∈ (alterEntries name f l).map Prod.fst →
      k = name ∨ k ∈ l.map Prod.fst
  | [], h => by simpa [alterEntries] using h
  | (k', v) :: rest, h => by
    unfold alterEntries at h
    split at h
    · simpa using h
    · split at h
      · exact Or.inr (by simpa using h)
      · simp only [List.map_cons, List.mem_cons] at h ⊢
        rcases h with h | h
        · exact Or.inr (Or.inl h)
        · exact (mem_keys_alterEntries h).imp id Or.inr

private theorem lt_of_not_lt_of_ne {a b : String} (h : ¬a < b) (hne : ¬a = b) : b < a :=
  String.not_le.mp fun hle => hne (String.le_antisymm hle (String.not_lt.mp h))

theorem pairwise_alterEntries {name : String} {f : Option α → α} :
    ∀ {l : List (String × α)}, l.Pairwise (fun a b => a.1 < b.1) →
      (alterEntries name f l).Pairwise (fun a b => a.1 < b.1)
  | [], _ => by simp [alterEntries]
  | (k, v) :: rest, h => by
    have hrest := (List.pairwise_cons.mp h).1
    unfold alterEntries
    split
    · next hlt =>
      refine List.pairwise_cons.mpr ⟨fun e he => ?_, h⟩
      rcases List.mem_cons.mp he with rfl | he
      · exact hlt
      · exact String.lt_trans hlt (hrest e he)
    · next hlt =>
      split
      · exact List.pairwise_cons.mpr ⟨hrest, (List.pairwise_cons.mp h).2⟩
      · next hne =>
        refine List.pairwise_cons.mpr
          ⟨fun e he => ?_, pairwise_alterEntries (List.pairwise_cons.mp h).2⟩
        rcases mem_keys_alterEntries (List.mem_map_of_mem he) with hk | hk
        · exact hk ▸ lt_of_not_lt_of_ne hlt hne
        · obtain ⟨e', he', hee⟩ := List.mem_map.mp hk
          exact hee ▸ hrest e' he'

/-- Changes the value under `name`; `f` is handed what was there. -/
def alter (m : NameMap α) (name : String) (f : Option α → α) : NameMap α :=
  ⟨alterEntries name f m.entries, pairwise_alterEntries m.sorted⟩

def insert (m : NameMap α) (name : String) (value : α) : NameMap α :=
  m.alter name fun _ => value

/-- Writes the entries one after the other; a later entry replaces an earlier one. -/
def insertAll (m : NameMap α) (entries : List (String × α)) : NameMap α :=
  entries.foldl (fun m e => m.insert e.1 e.2) m

def ofList (entries : List (String × α)) : NameMap α := empty.insertAll entries

/-- The entries whose names satisfy `p`. -/
def restrict (m : NameMap α) (p : String → Bool) : NameMap α :=
  ⟨m.entries.filter fun e => p e.1, m.sorted.sublist List.filter_sublist⟩

theorem lookup_cons_if (k k' : String) (v : α) (rest : List (String × α)) :
    ((k', v) :: rest).lookup k = if k = k' then some v else rest.lookup k := by
  rw [List.lookup_cons]
  by_cases h : k = k'
  · simp [h]
  · have : (k == k') = false := beq_eq_false_iff_ne.mpr h
    simp [this, h]

private theorem lookup_eq_none_of_lt {name : String} :
    ∀ {l : List (String × α)}, (∀ e ∈ l, name < e.1) → l.lookup name = none
  | [], _ => rfl
  | (k, v) :: rest, h => by
    have hne : ¬name = k := fun he => String.lt_irrefl k (he ▸ h (k, v) List.mem_cons_self)
    rw [lookup_cons_if, if_neg hne]
    exact lookup_eq_none_of_lt fun e he => h e (List.mem_cons_of_mem _ he)

theorem lookup_alterEntries {name : String} {f : Option α → α} (k : String) :
    ∀ {l : List (String × α)}, l.Pairwise (fun a b => a.1 < b.1) →
      (alterEntries name f l).lookup k =
        if k = name then some (f (l.lookup name)) else l.lookup k
  | [], _ => by
    by_cases h : k = name <;> simp [alterEntries, lookup_cons_if, h]
  | (k', v) :: rest, hl => by
    have hhead := (List.pairwise_cons.mp hl).1
    unfold alterEntries
    by_cases hlt : name < k'
    · have hne : ¬name = k' := fun he => String.lt_irrefl k' (he ▸ hlt)
      have hnone : List.lookup name rest = none :=
        lookup_eq_none_of_lt fun e he => String.lt_trans hlt (hhead e he)
      by_cases h : k = name <;> simp [lookup_cons_if, hlt, h, hne, hnone]
    · rw [if_neg hlt]
      by_cases heq : name = k'
      · subst heq
        by_cases h : k = name <;> simp [lookup_cons_if, h]
      · rw [if_neg heq]
        have ih : (alterEntries name f rest).lookup k =
            if k = name then some (f (rest.lookup name)) else rest.lookup k :=
          lookup_alterEntries k (List.pairwise_cons.mp hl).2
        by_cases hk : k = k'
        · subst hk
          have : ¬k = name := fun he => heq he.symm
          simp [this]
        · simp [lookup_cons_if, hk, heq, ih]

@[simp] theorem get?_alter (m : NameMap α) (name : String) (f : Option α → α) (k : String) :
    (m.alter name f).get? k = if k = name then some (f (m.get? name)) else m.get? k :=
  lookup_alterEntries k m.sorted

@[simp] theorem get?_insert (m : NameMap α) (name : String) (value : α) (k : String) :
    (m.insert name value).get? k = if k = name then some value else m.get? k :=
  get?_alter m name _ k

theorem contains_iff {m : NameMap α} {name : String} :
    m.contains name = true ↔ ∃ value, m.get? name = some value := Option.isSome_iff_exists

theorem contains_eq_false_iff {m : NameMap α} {name : String} :
    m.contains name = false ↔ m.get? name = none := by
  rw [contains, Option.isSome_eq_false_iff, Option.isNone_iff_eq_none]

@[simp] theorem get?_empty (k : String) : (empty : NameMap α).get? k = none := rfl

private theorem eq_of_lookup_eq :
    ∀ {l l' : List (String × α)}, l.Pairwise (fun a b => a.1 < b.1) →
      l'.Pairwise (fun a b => a.1 < b.1) → (∀ k, l.lookup k = l'.lookup k) → l = l'
  | [], [], _, _, _ => rfl
  | [], (k, v) :: _, _, _, h => by simpa [lookup_cons_if] using h k
  | (k, v) :: _, [], _, _, h => by simpa [lookup_cons_if] using h k
  | (k, v) :: r, (k', v') :: r', hl, hl', h => by
    have hr := (List.pairwise_cons.mp hl).1
    have hr' := (List.pairwise_cons.mp hl').1
    have hk : k = k' := by
      refine Classical.byContradiction fun hne => ?_
      by_cases hlt : k < k'
      · have h1 := h k
        rw [lookup_eq_none_of_lt (l := (k', v') :: r')] at h1
        · simp at h1
        · intro e he
          rcases List.mem_cons.mp he with rfl | he
          · exact hlt
          · exact String.lt_trans hlt (hr' e he)
      · have hgt := lt_of_not_lt_of_ne hlt hne
        have h1 := h k'
        rw [lookup_eq_none_of_lt (l := (k, v) :: r)] at h1
        · simp at h1
        · intro e he
          rcases List.mem_cons.mp he with rfl | he
          · exact hgt
          · exact String.lt_trans hgt (hr e he)
    subst hk
    have hv : v = v' := by simpa [lookup_cons_if] using h k
    subst hv
    refine congrArg _ (eq_of_lookup_eq (List.pairwise_cons.mp hl).2 (List.pairwise_cons.mp hl').2
      fun j => ?_)
    by_cases hj : j = k
    · subst hj
      rw [lookup_eq_none_of_lt hr, lookup_eq_none_of_lt hr']
    · simpa [lookup_cons_if, hj] using h j

private theorem mem_iff_lookup {k : String} {v : α} :
    ∀ {l : List (String × α)}, l.Pairwise (fun a b => a.1 < b.1) →
      ((k, v) ∈ l ↔ l.lookup k = some v)
  | [], _ => by simp
  | (k', v') :: rest, hl => by
    have hrest := (List.pairwise_cons.mp hl).1
    rw [lookup_cons_if, List.mem_cons, mem_iff_lookup (List.pairwise_cons.mp hl).2]
    by_cases h : k = k'
    · subst h
      simp [lookup_eq_none_of_lt hrest, eq_comm]
    · simp [h]

theorem mem_entries {m : NameMap α} {k : String} {v : α} :
    (k, v) ∈ m.entries ↔ m.get? k = some v :=
  mem_iff_lookup m.sorted

theorem isEmpty_eq_false_iff {m : NameMap α} :
    m.isEmpty = false ↔ ∃ name, m.contains name = true := by
  rw [isEmpty, List.isEmpty_eq_false_iff_exists_mem]
  constructor
  · rintro ⟨⟨name, value⟩, hmem⟩
    exact ⟨name, contains_iff.mpr ⟨value, mem_entries.mp hmem⟩⟩
  · rintro ⟨name, hname⟩
    obtain ⟨value, hvalue⟩ := contains_iff.mp hname
    exact ⟨(name, value), mem_entries.mpr hvalue⟩

theorem mem_values {m : NameMap α} {v : α} : v ∈ m.values ↔ ∃ k, m.get? k = some v := by
  simp only [values, List.mem_map, Prod.exists, mem_entries, exists_eq_right]

/-! ## Writing several entries -/

section
variable {m : NameMap α} {entries : List (String × α)} {name : String} {value : α}

theorem get?_insertAll_of_not_mem (h : ∀ e ∈ entries, e.1 ≠ name) :
    (m.insertAll entries).get? name = m.get? name := by
  induction entries generalizing m with
  | nil => rfl
  | cons e rest ih =>
      obtain ⟨hne, hrest⟩ := List.forall_mem_cons.mp h
      change ((m.insert e.1 e.2).insertAll rest).get? name = _
      rw [ih hrest, get?_insert, if_neg (Ne.symm hne)]

theorem contains_insertAll :
    (m.insertAll entries).contains name = true ↔
      m.contains name = true ∨ ∃ e ∈ entries, e.1 = name := by
  induction entries generalizing m with
  | nil => simp [insertAll]
  | cons e rest ih =>
      change ((m.insert e.1 e.2).insertAll rest).contains name = true ↔ _
      have hfirst : (m.insert e.1 e.2).contains name = true ↔
          m.contains name = true ∨ e.1 = name := by
        by_cases hname : name = e.1
        · simp [contains, hname]
        · simp [contains, hname, Ne.symm hname]
      simp [ih, hfirst, or_assoc]

/-- A name that is written with one value alone has this value in the end. -/
theorem get?_insertAll_of_mem (h : (name, value) ∈ entries)
    (alike : ∀ v, (name, v) ∈ entries → v = value) :
    (m.insertAll entries).get? name = some value := by
  induction entries generalizing m with
  | nil => cases h
  | cons e rest ih =>
      change ((m.insert e.1 e.2).insertAll rest).get? name = _
      by_cases hlater : (name, value) ∈ rest
      · exact ih hlater fun v hv => alike v (List.mem_cons_of_mem _ hv)
      · obtain rfl : (name, value) = e := (List.mem_cons.mp h).resolve_right hlater
        have hrest : ∀ e ∈ rest, e.1 ≠ name := by
          rintro ⟨_, v⟩ hv rfl
          cases alike v (List.mem_cons_of_mem _ hv)
          exact hlater hv
        rw [get?_insertAll_of_not_mem hrest, get?_insert, if_pos rfl]

end

theorem get?_restrict (m : NameMap α) (p : String → Bool) (name : String) :
    (m.restrict p).get? name = if p name then m.get? name else none := by
  refine Option.ext fun value => ?_
  have hmem : (name, value) ∈ (m.restrict p).entries ↔ (name, value) ∈ m.entries ∧ p name = true :=
    List.mem_filter
  rw [← mem_entries, hmem, mem_entries]
  cases p name <;> simp

/-- Of two maps written one over the other the upper one decides. -/
theorem get?_insertAll_entries (lower upper : NameMap α) (name : String) :
    (lower.insertAll upper.entries).get? name = (upper.get? name).or (lower.get? name) := by
  cases h : upper.get? name with
  | some value =>
      refine get?_insertAll_of_mem (mem_entries.mpr h) fun v hv => ?_
      exact Option.some.inj ((mem_entries.mp hv).symm.trans h)
  | none =>
      refine get?_insertAll_of_not_mem fun e he heq => ?_
      have hsome := mem_entries.mp (show (e.1, e.2) ∈ upper.entries from he)
      rw [heq, h] at hsome
      cases hsome

/-- A map is what its names read as. -/
theorem ext_get? {m m' : NameMap α} (h : ∀ k, m.get? k = m'.get? k) : m = m' := by
  cases m with
  | mk e s =>
    cases m' with
    | mk e' s' => simpa using eq_of_lookup_eq s s' h

end NameMap
end CommandRoutes
