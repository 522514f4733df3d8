import CommandRoutes.Proofs.Predicate.Reading
import CommandRoutes.Proofs.Tree.Edit

/-!
# What reading a route promises

The names in a route that was read hold no blanks, slashes or brackets, a static
name begins like no other kind of segment, and a switch segment has at least one
predicate, each of them readable. Such names can be names of items. A spread or
switch segment stands only at the end.
-/
namespace CommandRoutes

open Text

/-- A text that can be a name in a route. -/
def IsName (name : List Char) : Prop :=
  name ≠ [] ∧ ∀ c ∈ name, isBlank c = false ∧ c ≠ '/' ∧ c ≠ '[' ∧ c ≠ ']'

theorem IsName.cons {c : Char} {name : List Char}
    (hc : isBlank c = false ∧ c ≠ '/' ∧ c ≠ '[' ∧ c ≠ ']') (h : IsName name) : IsName (c :: name) :=
  ⟨List.cons_ne_nil c name, List.forall_mem_cons.mpr ⟨hc, h.2⟩⟩

theorem IsName.colon {name : List Char} (h : IsName name) : IsName (':' :: name) :=
  h.cons (by decide)

theorem IsName.dots {name : List Char} (h : IsName name) : IsName ('.' :: '.' :: '.' :: name) :=
  have hdot : isBlank '.' = false ∧ '.' ≠ '/' ∧ '.' ≠ '[' ∧ '.' ≠ ']' := by decide
  ((h.cons hdot).cons hdot).cons hdot

theorem CommandTree.checkName_eq_ok {name : String} :
    checkName name = .ok () ↔ name.toList ≠ [] ∧ Text.hasBlank name = false := by
  unfold checkName
  split_ifs with hempty hblank
  · simp [hempty]
  · simp [hblank]
  · simp [hempty, hblank]

namespace Segment

/-- What a part of some route reads as. -/
def Readable : Segment → Prop
  | static name =>
      IsName name.toList ∧ ¬[':'] <+: name.toList ∧ ¬['.', '.', '.'] <+: name.toList
  | dynamic name | spread name => IsName name.toList
  | switch predicates => predicates ≠ [] ∧ ∀ p ∈ predicates, p.Readable

theorem Readable.wellNamed {s : Segment} (h : s.Readable) : s.WellNamed := by
  have named : ∀ {name : String}, IsName name.toList → CommandTree.checkName name = .ok () := by
    intro name hname
    refine CommandTree.checkName_eq_ok.mpr ⟨hname.1, ?_⟩
    simpa [hasBlank] using fun c hc => (hname.2 c hc).1
  cases s with
  | static name => exact named h.1
  | dynamic name => exact named h
  | spread name => exact named h
  | switch predicates => trivial

end Segment

namespace Route

/-- Segments that registering one below the other can be asked to do. -/
structure Registrable (segments : List Segment) : Prop where
  named : ∀ s ∈ segments, s.WellNamed
  last : misplaced? segments = none

namespace Registrable
variable {s : Segment} {rest : List Segment}

theorem head (h : Registrable (s :: rest)) : s.WellNamed := h.named s (List.mem_cons_self ..)

theorem rest_eq_nil (h : Registrable (s :: rest)) (terminal : s.endsRoute = true) : rest = [] := by
  have hlast := h.last
  unfold misplaced? at hlast
  rw [if_pos terminal] at hlast
  split_ifs at hlast with hrest
  exact hrest

theorem tail (h : Registrable (s :: rest)) : Registrable rest := by
  refine ⟨fun s' hs' => h.named s' (List.mem_cons_of_mem _ hs'), ?_⟩
  by_cases terminal : s.endsRoute = true
  · rw [h.rest_eq_nil terminal]
    rfl
  · have hlast := h.last
    unfold misplaced? at hlast
    rwa [if_neg terminal] at hlast

end Registrable

/-! ## Pieces -/

/-- The part of a piece in front of its first bracket holds no slash. -/
theorem slash_not_mem_splitPieces (nesting : Nesting) (cs : List Char) :
    ∃ first others, splitPieces nesting cs = first :: others ∧
      (nesting = .outside → '/' ∉ first.takeWhile (· ≠ '[')) ∧
      ∀ piece ∈ others, '/' ∉ piece.takeWhile (· ≠ '[') := by
  induction cs generalizing nesting with
  | nil => exact ⟨[], [], rfl, by simp, by simp⟩
  | cons c cs ih =>
      rw [splitPieces]
      split_ifs with hsplit
      · obtain ⟨first, others, heq, hfirst, hothers⟩ := ih .outside
        refine ⟨[], splitPieces .outside cs, rfl, by simp, ?_⟩
        rw [heq]
        exact List.forall_mem_cons.mpr ⟨hfirst rfl, hothers⟩
      · obtain ⟨first, others, heq, hfirst, hothers⟩ := ih (nesting.after c)
        refine ⟨c :: first, others, by rw [heq, consFirst], ?_, hothers⟩
        rintro rfl
        have hslash : c ≠ '/' := fun hc => hsplit ⟨rfl, hc⟩
        by_cases hopen : c = '['
        · simp [hopen]
        · have hafter : Nesting.outside.after c = .outside := if_neg hopen
          simpa [hopen, hslash.symm] using hfirst hafter

theorem splitPieces_ne_nil (nesting : Nesting) (cs : List Char) : splitPieces nesting cs ≠ [] := by
  obtain ⟨first, others, heq, _⟩ := slash_not_mem_splitPieces nesting cs
  rw [heq]
  exact List.cons_ne_nil _ _

theorem slash_not_mem_of_mem_splitPieces {cs piece : List Char}
    (h : piece ∈ splitPieces .outside cs) : '/' ∉ piece.takeWhile (· ≠ '[') := by
  obtain ⟨first, others, heq, hfirst, hothers⟩ := slash_not_mem_splitPieces .outside cs
  rw [heq] at h
  obtain rfl | h := List.mem_cons.mp h
  · exact hfirst rfl
  · exact hothers piece h

theorem readable_of_readName? {head : List Char} {s : Segment} (hname : IsName head)
    (h : readName? head = some s) : s.Readable := by
  obtain ⟨hne, hclean⟩ := hname
  unfold readName? at h
  split at h
  · next name =>
      split_ifs at h with hempty
      cases h
      simp only [List.mem_cons, forall_eq_or_imp] at hclean
      exact ⟨by simpa using hempty, by simpa using hclean.2.2.2⟩
  · next name =>
      split_ifs at h with hempty
      cases h
      simp only [List.mem_cons, forall_eq_or_imp] at hclean
      exact ⟨by simpa using hempty, by simpa using hclean.2⟩
  · next hspread hdynamic =>
      cases h
      rw [Segment.Readable, String.toList_ofList]
      refine ⟨⟨hne, hclean⟩, ?_, ?_⟩
      · rintro ⟨rest, rfl⟩
        exact hdynamic rest rfl
      · rintro ⟨rest, rfl⟩
        exact hspread rest rfl

/-- The name part of a piece is missing, or gives one segment. -/
def NameReads (head : List Char) (named : List Segment) : Prop :=
  head = [] ∧ named = [] ∨ head ≠ [] ∧ ∃ s, readName? head = some s ∧ named = [s]

/-- The bracket groups of a piece are missing, or give one segment. -/
def GroupReads (group : List Char) (switched : List Segment) : Prop :=
  group = [] ∧ switched = [] ∨ group ≠ [] ∧
    ∃ predicates, Predicate.readAll (String.ofList group) = .ok predicates ∧
      switched = [.switch predicates]

/-- A piece is read as its two parts are. -/
theorem readPiece_eq_ok {route : String} {piece : List Char} {segments : List Segment} :
    readPiece route piece = .ok segments ↔
      piece ≠ [] ∧ ']' ∉ piece.takeWhile (· ≠ '[') ∧
        (∀ c ∈ piece.takeWhile (· ≠ '['), isBlank c = false) ∧
        ∃ named switched, NameReads (piece.takeWhile (· ≠ '[')) named ∧
          GroupReads (piece.dropWhile (· ≠ '[')) switched ∧ segments = named ++ switched := by
  unfold readPiece
  generalize piece.takeWhile (· ≠ '[') = head
  generalize piece.dropWhile (· ≠ '[') = group
  dsimp only
  by_cases hpiece : piece = []
  · simp [hpiece]
  by_cases hstray : ']' ∈ head
  · simp [hpiece, hstray]
  by_cases hblank : head.any isBlank = true
  · have hfound : ¬∀ c ∈ head, isBlank c = false := by simpa using hblank
    simp [hpiece, hstray, hblank, hfound]
  have hclean : ∀ c ∈ head, isBlank c = false := by simpa using hblank
  rw [if_neg hpiece, if_neg hstray, if_neg hblank, and_iff_right hpiece, and_iff_right hstray,
    and_iff_right hclean]
  by_cases hhead : head = []
  · by_cases hgroup : group = []
    · simp [hhead, hgroup, NameReads, GroupReads, eq_comm]
    · cases hread : Predicate.readAll (String.ofList group) <;>
        simp [hhead, hgroup, NameReads, GroupReads, hread, eq_comm]
  · cases hs : readName? head with
    | none => simp [hhead, NameReads, hs]
    | some s =>
        by_cases hgroup : group = []
        · simp [hhead, hgroup, NameReads, GroupReads, hs, eq_comm]
        · cases hread : Predicate.readAll (String.ofList group) <;>
            simp [hhead, hgroup, NameReads, GroupReads, hs, hread, eq_comm]

theorem readable_of_readPiece {route : String} {piece : List Char} {segments : List Segment}
    (hslash : '/' ∉ piece.takeWhile (· ≠ '[')) (h : readPiece route piece = .ok segments) :
    ∀ s ∈ segments, s.Readable := by
  obtain ⟨_, hstray, hblank, named, switched, hnamed, hswitched, rfl⟩ := readPiece_eq_ok.mp h
  refine List.forall_mem_append.mpr ⟨?_, ?_⟩
  · obtain ⟨_, rfl⟩ | ⟨hhead, s, hs, rfl⟩ := hnamed
    · simp
    · refine List.forall_mem_singleton.mpr (readable_of_readName? ⟨hhead, fun c hc => ?_⟩ hs)
      refine ⟨hblank c hc, fun he => hslash (he ▸ hc), fun he => ?_, fun he => hstray (he ▸ hc)⟩
      subst he
      simpa using List.mem_takeWhile_imp hc
  · obtain ⟨_, rfl⟩ | ⟨hgroup, predicates, hread, rfl⟩ := hswitched
    · simp
    · obtain ⟨c, rest, heq⟩ := List.exists_cons_of_ne_nil hgroup
      have hstop := List.head?_dropWhile_not (· ≠ '[') piece
      rw [heq] at hstop hread
      obtain rfl : c = '[' := by simpa using hstop
      exact List.forall_mem_singleton.mpr
        ⟨Predicate.ne_nil_of_readAll hread, Predicate.readable_of_readAll hread⟩

theorem readPieces_cons_eq_ok {route : String} {piece : List Char} {pieces : List (List Char)}
    {segments : List Segment} :
    readPieces route (piece :: pieces) = .ok segments ↔
      ∃ first later, readPiece route piece = .ok first ∧ readPieces route pieces = .ok later ∧
        segments = first ++ later := by
  rw [readPieces]
  cases readPiece route piece with
  | error e => simp
  | ok first => cases readPieces route pieces <;> simp [Except.map, eq_comm]

theorem readable_of_readPieces {route : String} {pieces : List (List Char)}
    {segments : List Segment} (hslash : ∀ piece ∈ pieces, '/' ∉ piece.takeWhile (· ≠ '['))
    (h : readPieces route pieces = .ok segments) : ∀ s ∈ segments, s.Readable := by
  induction pieces generalizing segments with
  | nil =>
      cases h
      simp
  | cons piece pieces ih =>
      obtain ⟨hpiece, hpieces⟩ := List.forall_mem_cons.mp hslash
      obtain ⟨first, later, hfirst, hlater, rfl⟩ := readPieces_cons_eq_ok.mp h
      exact List.forall_mem_append.mpr ⟨readable_of_readPiece hpiece hfirst, ih hpieces hlater⟩

/-- A route is the root, or its pieces can be read and only the last segment ends it. -/
theorem read_eq_ok {route : String} {segments : List Segment} :
    read route = .ok segments ↔ body route = [] ∧ segments = [] ∨ body route ≠ [] ∧
      readPieces route (splitPieces .outside (body route)) = .ok segments ∧
      misplaced? segments = none := by
  unfold read
  by_cases hbody : body route = []
  · simp [hbody, eq_comm]
  · rw [if_neg hbody, or_iff_right (fun hroot => hbody hroot.1), and_iff_right hbody]
    cases readPieces route (splitPieces .outside (body route)) with
    | error e => simp
    | ok found =>
        constructor
        · intro h
          dsimp only at h
          cases hlast : misplaced? found with
          | some s => simp [hlast] at h
          | none =>
              simp only [hlast] at h
              cases h
              exact ⟨rfl, hlast⟩
        · rintro ⟨hfound, hlast⟩
          cases hfound
          simp only [hlast]

theorem readable_of_read {route : String} {segments : List Segment}
    (h : read route = .ok segments) : ∀ s ∈ segments, s.Readable := by
  obtain ⟨_, rfl⟩ | ⟨_, hpieces, _⟩ := read_eq_ok.mp h
  · simp
  · exact readable_of_readPieces (fun _ hpiece => slash_not_mem_of_mem_splitPieces hpiece) hpieces

theorem registrable_of_read {route : String} {segments : List Segment}
    (h : read route = .ok segments) : Registrable segments := by
  refine ⟨fun s hs => (readable_of_read h s hs).wellNamed, ?_⟩
  obtain ⟨_, rfl⟩ | ⟨_, _, hlast⟩ := read_eq_ok.mp h
  · rfl
  · exact hlast

end Route
end CommandRoutes
