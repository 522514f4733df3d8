import CommandRoutes.Proofs.Route.Grammar
import CommandRoutes.Proofs.Text.ByteOrder

/-!
# Brackets that faults point at

A fault about a bracket names a text and a byte of it, and at this byte stands
the bracket. In a text of bracket groups everything in front of the bracket is a
row of predicates, and from the bracket on there is no group: it closes nothing,
or nothing closes it before the next bracket opens or the text ends. Reading
finds such a fault just where there is such a bracket. A route is read piece by
piece; the text that the fault names is one of its pieces or the bracket groups
at the end of one.
-/
namespace CommandRoutes

open Text

/-! ## Bytes of a text -/

namespace Text

theorem length_bytes (text : String) : (bytes text).length = text.utf8ByteSize := rfl

theorem bytes_append (text more : String) : bytes (text ++ more) = bytes text ++ bytes more := by
  simp [bytes_eq]

theorem byteLength_toList (text : String) : Route.byteLength text.toList = text.utf8ByteSize := by
  rw [← length_bytes, bytes_eq]
  induction text.toList with
  | nil => rfl
  | cons c cs ih =>
      rw [Route.byteLength_cons, ih, List.flatMap_cons, List.length_append,
        String.length_utf8EncodeChar]

/-- This character of the text begins at this byte. -/
def CutAt (text : String) (position : Nat) (before : String) (c : Char) (after : String) : Prop :=
  text = before ++ String.singleton c ++ after ∧ before.utf8ByteSize = position

end Text

/-- The fault is about this bracket at this byte of the text. -/
inductive Fault.Blames : Fault → String → Nat → Char → Prop
  | stray (input : String) (position : Nat) :
      Blames (.strayClose input position) input position ']'
  | opened (input : String) (position : Nat) :
      Blames (.openGroup input position) input position '['

theorem Fault.Blames.byte {fault : Fault} {input before after : String} {position : Nat}
    {bracket : Char} (h : fault.Blames input position bracket)
    (hcut : CutAt input position before bracket after) :
    (bytes input)[position]? = some bracket.toUInt8 := by
  obtain ⟨rfl, rfl⟩ := hcut
  rw [bytes_append, bytes_append, List.append_assoc, List.getElem?_append_right (length_bytes _).le,
    length_bytes, Nat.sub_self]
  cases h <;> rfl

/-! ## Rows of groups -/

namespace Predicate
variable {fault : Fault} {input input' : String} {position : Nat} {bracket : Char}

/-- From this bracket on there is no group: it opens none, or none that is closed before the next
bracket opens or the text ends. -/
inductive Unpaired : Char → List Char → Prop
  | stray {rest : List Char} : Unpaired ']' rest
  | opened {raw rest : List Char} : Enclosed ['[', ']'] raw → (∀ c ∈ rest.head?, c = '[') →
      Unpaired '[' (raw ++ rest)

/-- Between groups such a bracket ends the scan. -/
theorem scan_unpaired (h : fault.Blames input position bracket) {rest : List Char}
    (unpaired : Unpaired bracket rest) :
    scan input .between position (bracket :: rest) = .error fault := by
  cases h with
  | stray => rw [scan, if_neg (by decide), if_pos rfl]
  | opened =>
      cases unpaired with
      | @opened raw rest hraw hrest =>
          obtain ⟨hshelter, hclosed⟩ := enclosed_brackets_iff.mp hraw
          rw [scan, if_pos rfl, scan_sheltered input _ hshelter, hclosed]
          cases rest with
          | nil => rfl
          | cons c rest =>
              obtain rfl : c = '[' := hrest c rfl
              rw [scan, if_neg (by decide), if_pos rfl]

theorem not_blames_of_readGroup {raw : List Char} (h : readGroup input raw = .error fault) :
    ¬fault.Blames input' position bracket := by
  intro hblames
  obtain rfl | rfl | ⟨found, rfl⟩ := readGroup_eq_error h <;> cases hblames

/-- Behind an opening bracket a fault about brackets is about this one, or the group can be read and
the fault comes later. -/
theorem exists_of_scan_opened_blamed (h : fault.Blames input' position bracket) {openedAt i : Nat}
    {cs : List Char} (hscan : scan input (.group openedAt [] none) i cs = .error fault) :
    (fault = .openGroup input openedAt ∧ Unpaired '[' cs) ∨
      ∃ raw rest p, cs = raw ++ ']' :: rest ∧ Enclosed ['[', ']'] raw ∧ Written raw p ∧
        scan input .between (i + Route.byteLength raw + ']'.utf8Size) rest = .error fault := by
  obtain ⟨raw, rest, rfl, hshelter, hrest⟩ := exists_sheltered_append none cs
  rw [scan_sheltered input openedAt hshelter, List.append_nil] at hscan
  obtain rfl | ⟨hclosed, c, more, rfl, hbracket⟩ := hrest
  · cases hquote : quotationAfter none raw with
    | some q =>
        rw [hquote] at hscan
        cases hscan
        cases h
    | none =>
        rw [hquote] at hscan
        cases hscan
        have hraw := enclosed_brackets_iff.mpr ⟨hshelter, hquote⟩
        exact .inl ⟨rfl, .opened hraw (by simp)⟩
  · have hraw := enclosed_brackets_iff.mpr ⟨hshelter, hclosed⟩
    rw [hclosed] at hscan
    obtain rfl | rfl := hbracket
    · rw [scan, if_neg (by decide), if_pos rfl] at hscan
      cases hscan
      exact .inl ⟨rfl, .opened hraw (by simp)⟩
    · rw [scan, if_pos rfl, List.reverse_reverse] at hscan
      cases hread : readGroup input raw with
      | error e =>
          simp only [hread] at hscan
          cases hscan
          exact absurd h (not_blames_of_readGroup hread)
      | ok p =>
          simp only [hread] at hscan
          have hmore := eq_error_of_map_eq_error hscan
          exact .inr ⟨raw, more, p, rfl, hraw, (readGroup_eq_ok_iff hclosed).mp hread, hmore⟩

/-- A fault about a bracket is found behind a row of predicates, where the bracket stands. -/
theorem exists_of_scan_blamed (h : fault.Blames input' position bracket) {i : Nat} {cs : List Char}
    (hscan : scan input .between i cs = .error fault) :
    input' = input ∧ ∃ front rest ps, cs = front ++ bracket :: rest ∧ Row front ps ∧
      i + Route.byteLength front = position ∧ Unpaired bracket rest := by
  induction hlength : cs.length using Nat.strong_induction_on generalizing cs i with
  | _ n ih =>
    subst hlength
    have hempty : Row [] [] := .blank (by simp)
    cases cs with
    | nil => cases hscan
    | cons c cs =>
        rw [scan] at hscan
        split_ifs at hscan with hopen hclose hblank
        · subst hopen
          obtain ⟨rfl, unpaired⟩ | ⟨raw, rest, p, rfl, hraw, hp, hlater⟩ :=
            exists_of_scan_opened_blamed h hscan
          · cases h
            exact ⟨rfl, [], cs, [], rfl, hempty, rfl, unpaired⟩
          · have hshorter : rest.length < ('[' :: (raw ++ ']' :: rest)).length := by
              simp only [List.length_cons, List.length_append]
              omega
            obtain ⟨rfl, front, later, ps, rfl, hrow, hposition, unpaired⟩ :=
              ih rest.length hshorter hlater rfl
            refine ⟨rfl, '[' :: (raw ++ ']' :: front), later, p :: ps, by simp,
              .cons_group hraw hp hrow, ?_, unpaired⟩
            simp only [Route.byteLength_cons, Route.byteLength_append]
            omega
        · subst hclose
          cases hscan
          cases h
          exact ⟨rfl, [], cs, [], rfl, hempty, rfl, .stray⟩
        · obtain ⟨rfl, front, later, ps, rfl, hrow, hposition, unpaired⟩ :=
            ih cs.length (by simp) hscan rfl
          refine ⟨rfl, c :: front, later, ps, rfl, .cons_blank hblank hrow, ?_, unpaired⟩
          rw [Route.byteLength_cons]
          omega
        · cases hscan
          cases h

/-- Reading points at a bracket just if the text is a row of predicates up to it and there is no
group from it on. -/
theorem readAll_eq_blamed_iff (h : fault.Blames input position bracket) {text : String} :
    readAll text = .error fault ↔ input = text ∧ ∃ before after ps,
      CutAt text position before bracket after ∧ readAll before = .ok ps ∧
        Unpaired bracket after.toList := by
  constructor
  · intro hread
    obtain ⟨rfl, front, rest, ps, htext, hrow, hposition, unpaired⟩ := exists_of_scan_blamed h hread
    refine ⟨rfl, String.ofList front, String.ofList rest, ps, ⟨?_, ?_⟩, ?_, ?_⟩
    · apply String.toList_injective
      simp [htext]
    · rw [← byteLength_toList, String.toList_ofList, ← hposition, Nat.zero_add]
    · rw [readAll_eq_ok_iff, String.toList_ofList]
      exact hrow
    · rw [String.toList_ofList]
      exact unpaired
  · rintro ⟨rfl, before, after, ps, ⟨htext, hposition⟩, hread, unpaired⟩
    have hlist : input.toList = before.toList ++ bracket :: after.toList := by simp [htext]
    rw [readAll, hlist, scan_row_append (readAll_eq_ok_iff.mp hread), byteLength_toList,
      Nat.zero_add, hposition, scan_unpaired h unpaired]
    rfl

end Predicate

/-! ## Routes -/

namespace Route

theorem body_suffix (route : String) : body route <:+ route.toList := by
  unfold body
  split
  · next rest heq => exact heq ▸ List.suffix_cons '/' rest
  · exact List.suffix_refl _

theorem infix_intercalate (separator : List Char) {piece : List Char} {pieces : List (List Char)}
    (h : piece ∈ pieces) : piece <:+: separator.intercalate pieces := by
  induction pieces with
  | nil => cases h
  | cons first others ih =>
      cases others with
      | nil =>
          obtain rfl := List.mem_singleton.mp h
          simp [List.intercalate_singleton]
      | cons next others =>
          rw [List.intercalate_cons_cons]
          obtain rfl | hlater := List.mem_cons.mp h
          · rw [List.append_assoc]
            exact (List.prefix_append _ _).isInfix
          · exact (ih hlater).trans (List.suffix_append _ _).isInfix

/-- What a route is split into are parts of it. -/
theorem infix_of_mem_splitPieces {route : String} {piece : List Char}
    (h : piece ∈ splitPieces .outside (body route)) : piece <:+: route.toList := by
  have hinfix := infix_intercalate ['/'] h
  rw [intercalate_splitPieces] at hinfix
  exact hinfix.trans (body_suffix route).isInfix

theorem exists_mem_of_readPieces {route : String} {pieces : List (List Char)} {fault : Fault}
    (h : readPieces route pieces = .error fault) :
    ∃ piece ∈ pieces, readPiece route piece = .error fault := by
  induction pieces with
  | nil => cases h
  | cons piece pieces ih =>
      rw [readPieces] at h
      cases hpiece : readPiece route piece with
      | error e =>
          simp only [hpiece] at h
          cases h
          exact ⟨piece, List.mem_cons_self, hpiece⟩
      | ok segments =>
          simp only [hpiece] at h
          obtain ⟨found, hmem, hfound⟩ := ih (eq_error_of_map_eq_error h)
          exact ⟨found, List.mem_cons_of_mem _ hmem, hfound⟩

/-- A piece is refused for its name part or for its bracket groups. -/
theorem readPiece_eq_error {route : String} {piece : List Char} {fault : Fault}
    (h : readPiece route piece = .error fault) :
    fault = .emptyName route ∨ fault = .blankInName route (String.ofList piece) ∨
      (']' ∈ piece.takeWhile (· ≠ '[') ∧ fault = .strayClose (String.ofList piece)
        (byteLength ((piece.takeWhile (· ≠ '[')).takeWhile (· ≠ ']')))) ∨
      Predicate.readAll (String.ofList (piece.dropWhile (· ≠ '['))) = .error fault := by
  unfold readPiece at h
  generalize piece.takeWhile (· ≠ '[') = head at h ⊢
  generalize piece.dropWhile (· ≠ '[') = group at h ⊢
  dsimp only at h
  split_ifs at h with _ hstray
  · cases h
    exact .inl rfl
  · cases h
    exact .inr (.inr (.inl ⟨hstray, rfl⟩))
  · cases h
    exact .inr (.inl rfl)
  · cases hread : Predicate.readAll (String.ofList group) with
    | ok predicates => simp [hread] at h
    | error e =>
        simp only [hread] at h
        cases h
        exact .inr (.inr (.inr rfl))
  · cases hname : readName? head with
    | some s => simp [hname] at h
    | none =>
        simp only [hname] at h
        cases h
        exact .inl rfl
  · cases hname : readName? head with
    | none =>
        simp only [hname] at h
        cases h
        exact .inl rfl
    | some s =>
        simp only [hname] at h
        cases hread : Predicate.readAll (String.ofList group) with
        | ok predicates => simp [hread] at h
        | error e =>
            simp only [hread] at h
            cases h
            exact .inr (.inr (.inr rfl))

theorem exists_of_read_eq_error {route : String} {fault : Fault} (h : read route = .error fault) :
    (∃ piece ∈ splitPieces .outside (body route), readPiece route piece = .error fault) ∨
      ∃ s : Segment, fault = .notLast route s.render := by
  unfold read at h
  split_ifs at h
  cases hpieces : readPieces route (splitPieces .outside (body route)) with
  | error e =>
      simp only [hpieces] at h
      cases h
      exact .inl (exists_mem_of_readPieces hpieces)
  | ok segments =>
      simp only [hpieces] at h
      cases hlast : misplaced? segments with
      | none => simp [hlast] at h
      | some s =>
          simp only [hlast] at h
          cases h
          exact .inr ⟨s, rfl⟩

section
variable {fault : Fault} {input : String} {position : Nat} {bracket : Char}

/-- In a piece a fault about a bracket is about a closing one that no bracket comes before, or it is
a fault of the bracket groups. -/
theorem exists_of_readPiece_blamed (h : fault.Blames input position bracket) {route : String}
    {piece : List Char} (hread : readPiece route piece = .error fault) :
    (input = String.ofList piece ∧ bracket = ']' ∧ ∃ before after,
        CutAt input position before bracket after ∧ ∀ c ∈ before.toList, c ≠ '[' ∧ c ≠ ']') ∨
      (input = String.ofList (piece.dropWhile (· ≠ '[')) ∧
        Predicate.readAll input = .error fault) := by
  obtain rfl | rfl | ⟨hstray, rfl⟩ | hgroups := readPiece_eq_error hread
  · cases h
  · cases h
  · cases h
    have hpiece := List.takeWhile_append_dropWhile (p := (· ≠ '[')) (l := piece)
    have hopen : ∀ c ∈ piece.takeWhile (· ≠ '['), c ≠ '[' := fun c hc => by
      simpa using List.mem_takeWhile_imp hc
    obtain ⟨front, back, hhead, hfront⟩ := List.eq_append_cons_of_mem hstray
    rw [hhead] at hpiece hopen ⊢
    rw [takeWhile_ne_append hfront]
    generalize piece.dropWhile (· ≠ '[') = group at hpiece
    refine .inl ⟨rfl, rfl, String.ofList front, String.ofList (back ++ group), ⟨?_, ?_⟩, ?_⟩
    · apply String.toList_injective
      simp [← hpiece]
    · rw [← byteLength_toList, String.toList_ofList]
    · intro c hc
      rw [String.toList_ofList] at hc
      exact ⟨hopen c (List.mem_append_left _ hc), ne_of_mem_of_not_mem hc hfront⟩
  · obtain ⟨hsame, _⟩ := (Predicate.readAll_eq_blamed_iff h).mp hgroups
    exact .inr ⟨hsame, hsame ▸ hgroups⟩

/-- What a fault about a bracket points at is the bracket. In bracket groups a row of predicates
stands in front of it and breaks off there. In a route it stands in a piece, in front of all other
brackets of the piece, or in the bracket groups at the end of one, as reading these finds it. -/
theorem read_blames_bracket (h : fault.Blames input position bracket) :
    (∀ text, (Predicate.readAll text = .error fault ↔ input = text ∧ ∃ before after ps,
        CutAt text position before bracket after ∧ Predicate.readAll before = .ok ps ∧
          Predicate.Unpaired bracket after.toList) ∧
      (Predicate.readAll text = .error fault →
        (bytes text)[position]? = some bracket.toUInt8)) ∧
    ∀ route, read route = .error fault →
      (bytes input)[position]? = some bracket.toUInt8 ∧
      ∃ piece ∈ splitPieces .outside (body route), piece <:+: route.toList ∧
        ((input = String.ofList piece ∧ bracket = ']' ∧ ∃ before after,
            CutAt input position before bracket after ∧ ∀ c ∈ before.toList, c ≠ '[' ∧ c ≠ ']') ∨
          (input = String.ofList (piece.dropWhile (· ≠ '[')) ∧
            Predicate.readAll input = .error fault)) := by
  have hbyte : ∀ text, Predicate.readAll text = .error fault →
      (bytes text)[position]? = some bracket.toUInt8 := by
    intro text hread
    obtain ⟨rfl, before, after, _, hcut, _⟩ := (Predicate.readAll_eq_blamed_iff h).mp hread
    exact h.byte hcut
  refine ⟨fun text => ⟨Predicate.readAll_eq_blamed_iff h, hbyte text⟩, ?_⟩
  intro route hread
  obtain ⟨piece, hmem, hpiece⟩ | ⟨s, rfl⟩ := exists_of_read_eq_error hread
  · have hblamed := exists_of_readPiece_blamed h hpiece
    refine ⟨?_, piece, hmem, infix_of_mem_splitPieces hmem, hblamed⟩
    obtain ⟨_, _, before, after, hcut, _⟩ | ⟨_, hgroups⟩ := hblamed
    · exact h.byte hcut
    · exact hbyte input hgroups
  · cases h

end

/-- Positions count bytes: in front of both brackets stand characters of more than one. The bracket
groups of the route hold a slash and a bracket in quotes. -/
theorem read_blames_bracket_behind_wide_characters :
    let text := "[é]\u3000]"
    let route := "é/ü[é=\"]/\"] [ñ"
    let groups := "[é=\"]/\"] [ñ"
    Predicate.readAll text = .error (.strayClose text 7) ∧
      (bytes text)[7]? = some ']'.toUInt8 ∧
      read route = .error (.openGroup groups 10) ∧ (bytes groups)[10]? = some '['.toUInt8 ∧
      ∃ before after ps, CutAt groups 10 before '[' after ∧ Predicate.readAll before = .ok ps := by
  intro text route groups
  have htext : Predicate.readAll text = .error (.strayClose text 7) := by decide +kernel
  have hroute : read route = .error (.openGroup groups 10) := by decide +kernel
  have hgroups : Predicate.readAll groups = .error (.openGroup groups 10) := by decide +kernel
  have stray := read_blames_bracket (.stray text 7)
  have opened := read_blames_bracket (.opened groups 10)
  obtain ⟨_, before, after, ps, hcut, hbefore, _⟩ := (opened.1 groups).1.mp hgroups
  exact ⟨htext, (stray.1 text).2 htext, hroute, (opened.2 route hroute).1, before, after, ps, hcut,
    hbefore⟩

end Route
end CommandRoutes
