import CommandRoutes.Proofs.Predicate.Grammar
import CommandRoutes.Proofs.Route.Reading

/-!
# The language of routes

A route is written as pieces with slashes between them and, if one likes, a slash
in front. A piece is a name or, after a colon, the name of a parameter; the last
one may be a spread name after three dots instead, or bracket groups, which may
also follow directly after a name. Bracket groups are one piece whatever slashes
they hold. Reading accepts the texts of this language and no others, and answers
with the segments of the pieces in order.
-/
namespace CommandRoutes.Route

open Text

/-- The piece is a name that any further piece may follow. -/
inductive NamePiece : List Char → Segment → Prop
  | static {name : List Char} : IsName name → ¬[':'] <+: name → ¬['.', '.', '.'] <+: name →
      NamePiece name (.static (String.ofList name))
  | dynamic {name : List Char} : IsName name → NamePiece (':' :: name) (.dynamic (String.ofList name))

/-- The piece can be the last one. -/
inductive LastPiece : List Char → List Segment → Prop
  | name {piece : List Char} {s : Segment} : NamePiece piece s → LastPiece piece [s]
  | spread {name : List Char} : IsName name →
      LastPiece ('.' :: '.' :: '.' :: name) [.spread (String.ofList name)]
  | groups {rest : List Char} {ps : List Predicate} :
      Predicate.readAll (String.ofList ('[' :: rest)) = .ok ps → LastPiece ('[' :: rest) [.switch ps]
  | namedGroups {piece rest : List Char} {s : Segment} {ps : List Predicate} : NamePiece piece s →
      Predicate.readAll (String.ofList ('[' :: rest)) = .ok ps →
      LastPiece (piece ++ '[' :: rest) [s, .switch ps]

/-- The pieces are one way to write the segments. -/
inductive Pieces : List (List Char) → List Segment → Prop
  | last {piece : List Char} {segments : List Segment} : LastPiece piece segments →
      Pieces [piece] segments
  | cons {piece : List Char} {s : Segment} {pieces : List (List Char)} {segments : List Segment} :
      NamePiece piece s → Pieces pieces segments → Pieces (piece :: pieces) (s :: segments)

/-! ## Splitting -/

/-- Splitting takes nothing but slashes away. -/
theorem intercalate_splitPieces (nesting : Nesting) (cs : List Char) :
    ['/'].intercalate (splitPieces nesting cs) = cs := by
  induction cs generalizing nesting with
  | nil => rfl
  | cons c cs ih =>
      rw [splitPieces]
      split_ifs with hsplit
      · obtain ⟨first, others, heq⟩ :=
          List.exists_cons_of_ne_nil (splitPieces_ne_nil .outside cs)
        have hrest := ih .outside
        rw [heq] at hrest ⊢
        rw [List.intercalate_cons_cons, hrest, hsplit.2]
        rfl
      · obtain ⟨first, others, heq⟩ :=
          List.exists_cons_of_ne_nil (splitPieces_ne_nil (nesting.after c) cs)
        have hrest := ih (nesting.after c)
        rw [heq] at hrest ⊢
        cases others with
        | nil => simpa [consFirst] using hrest
        | cons next others =>
            rw [List.intercalate_cons_cons] at hrest
            rw [consFirst, List.intercalate_cons_cons, List.cons_append, List.cons_append, hrest]

/-- What holds neither slashes nor opening brackets goes to the first piece. -/
theorem splitPieces_append {front : List Char} (h : ∀ c ∈ front, c ≠ '/' ∧ c ≠ '[')
    {rest first : List Char} {others : List (List Char)}
    (hrest : splitPieces .outside rest = first :: others) :
    splitPieces .outside (front ++ rest) = (front ++ first) :: others := by
  induction front with
  | nil => exact hrest
  | cons c front ih =>
      obtain ⟨⟨hslash, hopen⟩, hfront⟩ := List.forall_mem_cons.mp h
      have hafter : Nesting.outside.after c = .outside := if_neg hopen
      rw [List.cons_append, splitPieces, if_neg (fun hsplit => hslash hsplit.2), hafter, ih hfront]
      rfl

/-- A name is one piece, and a slash after it begins the next one. -/
theorem splitPieces_name {name : List Char} (h : IsName name) :
    splitPieces .outside name = [name] ∧ ∀ rest,
      splitPieces .outside (name ++ '/' :: rest) = name :: splitPieces .outside rest := by
  have hflat : ∀ c ∈ name, c ≠ '/' ∧ c ≠ '[' := fun c hc => ⟨(h.2 c hc).2.1, (h.2 c hc).2.2.1⟩
  constructor
  · simpa using splitPieces_append hflat (show splitPieces .outside [] = [[]] from rfl)
  · intro rest
    have hnext : splitPieces .outside ('/' :: rest) = [] :: splitPieces .outside rest := rfl
    simpa using splitPieces_append hflat hnext

/-- What is sheltered in a group does not end its piece. -/
theorem splitPieces_sheltered {quote : Option Char} {cs : List Char} (h : Sheltered quote cs)
    (hclosed : quotationAfter quote cs = none) {rest : List Char}
    (hrest : splitPieces .outside rest = [rest]) :
    splitPieces (.group quote) (cs ++ ']' :: rest) = [cs ++ ']' :: rest] := by
  induction cs generalizing quote with
  | nil =>
      obtain rfl : quote = none := hclosed
      simp [splitPieces, Nesting.after, hrest, consFirst]
  | cons c cs ih =>
      have hafter : (Nesting.group quote).after c = .group (quoteAfter quote c) := by
        cases quote with
        | none => exact if_neg (h.1 rfl).2
        | some q => rfl
      simp [splitPieces, hafter, ih h.2 hclosed, consFirst]

/-- Bracket groups are one piece, whatever slashes they hold. -/
theorem splitPieces_of_row {cs : List Char} {ps : List Predicate} (h : Predicate.Row cs ps) :
    splitPieces .outside cs = [cs] := by
  have flat : ∀ {gap : List Char}, (∀ c ∈ gap, isBlank c = true) →
      ∀ c ∈ gap, c ≠ '/' ∧ c ≠ '[' := by
    intro gap hgap c hc
    constructor
    · rintro rfl
      exact absurd (hgap _ hc) (by decide)
    · rintro rfl
      exact absurd (hgap _ hc) (by decide)
  induction h with
  | @blank gap hgap =>
      have hsplit := splitPieces_append (flat hgap) (show splitPieces .outside [] = [[]] from rfl)
      rwa [List.append_nil] at hsplit
  | @group gap raw rest p ps hgap hraw _ _ ih =>
      obtain ⟨hshelter, hclosed⟩ := enclosed_brackets_iff.mp hraw
      refine splitPieces_append (flat hgap) ?_
      rw [splitPieces, if_neg (by simp), show Nesting.outside.after '[' = .group none from rfl,
        splitPieces_sheltered hshelter hclosed ih]
      rfl

/-! ## One piece -/

namespace NamePiece
variable {piece : List Char} {s : Segment}

theorem isName (h : NamePiece piece s) : IsName piece := by
  cases h with
  | static hname _ _ => exact hname
  | dynamic hname => exact hname.colon

theorem endsRoute (h : NamePiece piece s) : s.endsRoute = false := by cases h <;> rfl

theorem render (h : NamePiece piece s) : s.render.toList = piece := by
  cases h <;> simp [Segment.render]

end NamePiece

theorem readName?_eq_some_iff {head : List Char} {s : Segment} (hname : IsName head) :
    readName? head = some s ↔
      NamePiece head s ∨ ∃ name, IsName name ∧ head = '.' :: '.' :: '.' :: name ∧
        s = .spread (String.ofList name) := by
  constructor
  · intro h
    have readable := readable_of_readName? hname h
    unfold readName? at h
    split at h
    · next name =>
        split_ifs at h
        cases h
        exact .inr ⟨name, by simpa [Segment.Readable] using readable, rfl, rfl⟩
    · next name =>
        split_ifs at h
        cases h
        exact .inl (.dynamic (by simpa [Segment.Readable] using readable))
    · cases h
      obtain ⟨_, hdynamic, hspread⟩ := readable
      rw [String.toList_ofList] at hdynamic hspread
      exact .inl (.static hname hdynamic hspread)
  · rintro (h | ⟨name, hspread, rfl, rfl⟩)
    · cases h with
      | static _ hdynamic hspread =>
          unfold readName?
          split
          · next rest _ => exact absurd ⟨rest, rfl⟩ hspread
          · next rest _ => exact absurd ⟨rest, rfl⟩ hdynamic
          · rfl
      | dynamic hparameter => simp [readName?, hparameter.1]
    · simp [readName?, hspread.1]

/-- A name is the part of a piece in front of its first bracket. -/
theorem takeWhile_dropWhile_name {name group : List Char} (hname : ∀ c ∈ name, c ≠ '[')
    (hgroup : ∀ c ∈ group.head?, c = '[') :
    (name ++ group).takeWhile (· ≠ '[') = name ∧ (name ++ group).dropWhile (· ≠ '[') = group := by
  have hpass : ∀ c ∈ name, decide (c ≠ '[') = true := fun c hc => by simpa using hname c hc
  rw [List.takeWhile_append_of_pos hpass, List.dropWhile_append_of_pos hpass]
  cases group with
  | nil => simp
  | cons c group => simp [hgroup c rfl]

/-- A piece is read part by part; either part may be missing. -/
theorem readPiece_of_parts (route : String) {name group : List Char}
    {named switched : List Segment} (hne : name ++ group ≠ [])
    (hname : ∀ c ∈ name, isBlank c = false ∧ c ≠ '[' ∧ c ≠ ']')
    (hgroup : ∀ c ∈ group.head?, c = '[') (hnamed : NameReads name named)
    (hswitched : GroupReads group switched) :
    readPiece route (name ++ group) = .ok (named ++ switched) := by
  obtain ⟨hhead, htail⟩ := takeWhile_dropWhile_name (fun c hc => (hname c hc).2.1) hgroup
  rw [readPiece_eq_ok, hhead, htail]
  exact ⟨hne, fun hclose => (hname _ hclose).2.2 rfl, fun c hc => (hname c hc).1, named, switched,
    hnamed, hswitched, rfl⟩

theorem ne_nil_of_readPiece {route : String} {piece : List Char} {segments : List Segment}
    (h : readPiece route piece = .ok segments) : segments ≠ [] := by
  obtain ⟨hne, _, _, named, switched, hnamed, hswitched, rfl⟩ := readPiece_eq_ok.mp h
  obtain ⟨hhead, rfl⟩ | ⟨_, s, _, rfl⟩ := hnamed
  · obtain ⟨hgroup, rfl⟩ | ⟨_, ps, _, rfl⟩ := hswitched
    · rw [← List.takeWhile_append_dropWhile (p := (· ≠ '[')) (l := piece), hhead, hgroup] at hne
      exact absurd rfl hne
    · simp
  · simp

/-- Only the last segment ends the route. -/
theorem misplaced?_eq_none_iff {segments : List Segment} :
    misplaced? segments = none ↔ ∀ s ∈ segments.dropLast, s.endsRoute = false := by
  induction segments with
  | nil => simp [misplaced?]
  | cons s rest ih =>
      cases rest with
      | nil => simp [misplaced?]
      | cons next rest =>
          rw [misplaced?, List.dropLast_cons_cons, List.forall_mem_cons, ← ih]
          cases s.endsRoute <;> simp

theorem NamePiece.nameReads {piece : List Char} {s : Segment} (h : NamePiece piece s) :
    NameReads piece [s] :=
  .inr ⟨h.isName.1, s, (readName?_eq_some_iff h.isName).mpr (.inl h), rfl⟩

theorem groupReads_of_readAll {rest : List Char} {ps : List Predicate}
    (h : Predicate.readAll (String.ofList ('[' :: rest)) = .ok ps) :
    GroupReads ('[' :: rest) [.switch ps] :=
  .inr ⟨by simp, ps, h, rfl⟩

theorem readPiece_of_lastPiece (route : String) {piece : List Char} {segments : List Segment}
    (h : LastPiece piece segments) :
    readPiece route piece = .ok segments ∧ misplaced? segments = none := by
  have clean : ∀ {name : List Char}, IsName name →
      ∀ c ∈ name, isBlank c = false ∧ c ≠ '[' ∧ c ≠ ']' :=
    fun hname c hc => ⟨(hname.2 c hc).1, (hname.2 c hc).2.2⟩
  have alone : ∀ {name : List Char} {s : Segment}, IsName name → NameReads name [s] →
      readPiece route name = .ok [s] := by
    intro name s hname hreads
    have hread : readPiece route (name ++ []) = .ok ([s] ++ []) :=
      readPiece_of_parts route (by simpa using hname.1) (clean hname) (by simp) hreads
        (.inl ⟨rfl, rfl⟩)
    simpa using hread
  cases h with
  | name hpiece => exact ⟨alone hpiece.isName hpiece.nameReads, by simp [misplaced?]⟩
  | @spread name hname =>
      have hspread : readName? ('.' :: '.' :: '.' :: name) = some (.spread (String.ofList name)) :=
        (readName?_eq_some_iff hname.dots).mpr (.inr ⟨name, hname, rfl, rfl⟩)
      exact ⟨alone hname.dots (.inr ⟨hname.dots.1, _, hspread, rfl⟩), by simp [misplaced?]⟩
  | @groups rest ps hread =>
      have hpiece : readPiece route ([] ++ '[' :: rest) = .ok ([] ++ [.switch ps]) :=
        readPiece_of_parts route (by simp) (by simp) (by simp) (.inl ⟨rfl, rfl⟩)
          (groupReads_of_readAll hread)
      exact ⟨hpiece, by simp [misplaced?]⟩
  | namedGroups hname hread =>
      have hpiece := readPiece_of_parts route (by simp) (clean hname.isName) (by simp)
        hname.nameReads (groupReads_of_readAll hread)
      exact ⟨hpiece, by simp [misplaced?, hname.endsRoute]⟩

theorem lastPiece_of_readPiece {route : String} {piece : List Char} {segments : List Segment}
    (hslash : '/' ∉ piece.takeWhile (· ≠ '[')) (h : readPiece route piece = .ok segments)
    (hlast : misplaced? segments = none) : LastPiece piece segments := by
  obtain ⟨hne, hstray, hblank, named, switched, hnamed, hswitched, rfl⟩ := readPiece_eq_ok.mp h
  have hparts : piece.takeWhile (· ≠ '[') ++ piece.dropWhile (· ≠ '[') = piece :=
    List.takeWhile_append_dropWhile
  have hstop := List.head?_dropWhile_not (· ≠ '[') piece
  have hclean : ∀ c ∈ piece.takeWhile (· ≠ '['),
      isBlank c = false ∧ c ≠ '/' ∧ c ≠ '[' ∧ c ≠ ']' := by
    intro c hc
    have hopen : c ≠ '[' := by simpa using List.mem_takeWhile_imp hc
    exact ⟨hblank c hc, ne_of_mem_of_not_mem hc hslash, hopen, ne_of_mem_of_not_mem hc hstray⟩
  generalize piece.takeWhile (· ≠ '[') = name at hnamed hparts hclean
  generalize piece.dropWhile (· ≠ '[') = group at hswitched hparts hstop
  subst hparts
  -- the group part begins with its bracket
  have opened : ∀ {ps : List Predicate}, group ≠ [] →
      Predicate.readAll (String.ofList group) = .ok ps → ∃ rest, group = '[' :: rest := by
    intro ps hgroup _
    obtain ⟨c, rest, rfl⟩ := List.exists_cons_of_ne_nil hgroup
    obtain rfl : c = '[' := by simpa using hstop
    exact ⟨rest, rfl⟩
  obtain ⟨rfl, rfl⟩ | ⟨hname, s, hs, rfl⟩ := hnamed
  · obtain ⟨rfl, rfl⟩ | ⟨hgroup, ps, hread, rfl⟩ := hswitched
    · exact absurd rfl hne
    · obtain ⟨rest, rfl⟩ := opened hgroup hread
      exact .groups hread
  · rw [readName?_eq_some_iff ⟨hname, hclean⟩] at hs
    obtain ⟨rfl, rfl⟩ | ⟨hgroup, ps, hread, rfl⟩ := hswitched
    · rw [List.append_nil]
      obtain hpiece | ⟨spreadName, hspread, rfl, rfl⟩ := hs
      · exact .name hpiece
      · exact .spread hspread
    · obtain ⟨rest, rfl⟩ := opened hgroup hread
      obtain hpiece | ⟨spreadName, _, rfl, rfl⟩ := hs
      · exact .namedGroups hpiece hread
      · simp [misplaced?, Segment.endsRoute] at hlast

/-! ## All pieces -/

theorem Pieces.ne_nil {pieces : List (List Char)} {segments : List Segment}
    (h : Pieces pieces segments) : pieces ≠ [] ∧ segments ≠ [] := by
  cases h with
  | last hpiece => exact ⟨by simp, by cases hpiece <;> simp⟩
  | cons _ _ => exact ⟨by simp, by simp⟩

theorem readPieces_of_pieces (route : String) {pieces : List (List Char)}
    {segments : List Segment} (h : Pieces pieces segments) :
    readPieces route pieces = .ok segments ∧ misplaced? segments = none := by
  induction h with
  | last hpiece =>
      obtain ⟨hread, hlast⟩ := readPiece_of_lastPiece route hpiece
      simp [readPieces, hread, hlast, Except.map]
  | cons hpiece _ ih =>
      have hread := (readPiece_of_lastPiece route (.name hpiece)).1
      obtain ⟨hreads, hlast⟩ := ih
      simp [readPieces, hread, hreads, hlast, Except.map, misplaced?, hpiece.endsRoute]

theorem pieces_of_readPieces {route : String} {pieces : List (List Char)}
    {segments : List Segment} (hne : pieces ≠ [])
    (hslash : ∀ piece ∈ pieces, '/' ∉ piece.takeWhile (· ≠ '['))
    (h : readPieces route pieces = .ok segments) (hlast : misplaced? segments = none) :
    Pieces pieces segments := by
  induction pieces generalizing segments with
  | nil => exact absurd rfl hne
  | cons piece pieces ih =>
      obtain ⟨hpiece, hpieces⟩ := List.forall_mem_cons.mp hslash
      obtain ⟨first, later, hfirst, hlater, rfl⟩ := readPieces_cons_eq_ok.mp h
      cases pieces with
      | nil =>
          cases hlater
          rw [List.append_nil] at hlast ⊢
          exact .last (lastPiece_of_readPiece hpiece hfirst hlast)
      | cons next others =>
          have hmore : later ≠ [] := by
            obtain ⟨_, _, hnext, _, rfl⟩ := readPieces_cons_eq_ok.mp hlater
            exact List.append_ne_nil_of_left_ne_nil (ne_nil_of_readPiece hnext) _
          -- what more segments follow cannot end the route
          rw [misplaced?_eq_none_iff, List.dropLast_append_of_ne_nil hmore,
            List.forall_mem_append] at hlast
          obtain ⟨hopen, hends⟩ := hlast
          have hrest := ih (by simp) hpieces hlater (misplaced?_eq_none_iff.mpr hends)
          have hsingle := lastPiece_of_readPiece hpiece hfirst
            (misplaced?_eq_none_iff.mpr fun s hs => hopen s (List.dropLast_subset first hs))
          cases hsingle with
          | name hname => exact .cons hname hrest
          | spread _ => simp [Segment.endsRoute] at hopen
          | groups _ => simp [Segment.endsRoute] at hopen
          | namedGroups _ _ => simp [Segment.endsRoute] at hopen

/-- Pieces are told apart again, whatever slashes the bracket groups of the last one hold. -/
theorem splitPieces_intercalate {pieces : List (List Char)} {segments : List Segment}
    (h : Pieces pieces segments) : splitPieces .outside (['/'].intercalate pieces) = pieces := by
  have groups : ∀ {rest : List Char} {ps : List Predicate},
      Predicate.readAll (String.ofList ('[' :: rest)) = .ok ps →
      splitPieces .outside ('[' :: rest) = ['[' :: rest] := by
    intro rest ps hread
    have hrow := Predicate.readAll_eq_ok_iff.mp hread
    rw [String.toList_ofList] at hrow
    exact splitPieces_of_row hrow
  induction h with
  | last hpiece =>
      rw [List.intercalate_singleton]
      cases hpiece with
      | name hname => exact (splitPieces_name hname.isName).1
      | spread hname => exact (splitPieces_name hname.dots).1
      | groups hread => exact groups hread
      | namedGroups hname hread =>
          refine splitPieces_append (fun c hc => ?_) (groups hread)
          exact ⟨(hname.isName.2 c hc).2.1, (hname.isName.2 c hc).2.2.1⟩
  | @cons piece s pieces segments hname hpieces ih =>
      obtain ⟨next, others, rfl⟩ := List.exists_cons_of_ne_nil hpieces.ne_nil.1
      rw [List.intercalate_cons_cons, List.append_assoc, List.singleton_append,
        (splitPieces_name hname.isName).2, ih]

/-- Reading answers with the segments that some pieces, with slashes between them, are one way to
write. -/
theorem read_eq_ok_iff {route : String} {segments : List Segment} :
    read route = .ok segments ↔ body route = [] ∧ segments = [] ∨
      ∃ pieces, Pieces pieces segments ∧ body route = ['/'].intercalate pieces := by
  rw [read_eq_ok]
  refine or_congr_right ⟨?_, ?_⟩
  · rintro ⟨_, hread, hlast⟩
    have hpieces := pieces_of_readPieces (splitPieces_ne_nil .outside (body route))
      (fun _ hpiece => slash_not_mem_of_mem_splitPieces hpiece) hread hlast
    exact ⟨_, hpieces, (intercalate_splitPieces _ _).symm⟩
  · rintro ⟨pieces, hpieces, hbody⟩
    have hsplit := splitPieces_intercalate hpieces
    obtain ⟨hread, hlast⟩ := readPieces_of_pieces route hpieces
    rw [hbody, hsplit]
    refine ⟨fun hempty => ?_, hread, hlast⟩
    rw [hempty] at hsplit
    rw [← hsplit] at hread
    simp [splitPieces, readPieces, readPiece] at hread

/-- A slash in front of a route decides nothing about its segments. -/
theorem read_of_body_eq_body {route again : String} {segments : List Segment}
    (hread : read route = .ok segments) (h : body again = body route) :
    read again = .ok segments := by
  rw [read_eq_ok_iff] at hread ⊢
  rwa [h]

/-- A route with two slashes in front cannot be read. -/
theorem body_ofList_body {route : String} {segments : List Segment}
    (hread : read route = .ok segments) : body (String.ofList (body route)) = body route := by
  obtain ⟨hbody, _⟩ | ⟨_, hpieces, _⟩ := read_eq_ok.mp hread
  · rw [hbody]
    rfl
  · rw [body, String.toList_ofList]
    split
    · next rest heq =>
      -- the piece in front of a second slash is empty
      have hsplit : splitPieces .outside (body route) = [] :: splitPieces .outside rest := by
        rw [heq, splitPieces, if_pos ⟨rfl, rfl⟩]
      rw [hsplit] at hpieces
      obtain ⟨first, later, hfirst, _⟩ := readPieces_cons_eq_ok.mp hpieces
      cases hfirst
    · rfl

/-- Reading answers with some segments just if the route is one way to write them. Then only the
last of them can end a route and a row of predicates is not empty. However the segments are
written, splitting gives the pieces they are written in. -/
theorem read_iff_pieces (route : String) (segments : List Segment) :
    (read route = .ok segments ↔ body route = [] ∧ segments = [] ∨
      ∃ pieces, Pieces pieces segments ∧ body route = ['/'].intercalate pieces) ∧
    (read route = .ok segments → (∀ s ∈ segments.dropLast, s.endsRoute = false) ∧
      ∀ ps, .switch ps ∈ segments → ps ≠ []) ∧
    ∀ pieces, Pieces pieces segments → body route = ['/'].intercalate pieces →
      splitPieces .outside (body route) = pieces := by
  refine ⟨read_eq_ok_iff, fun hread => ⟨?_, fun ps hmem => ?_⟩, fun pieces hpieces hbody => ?_⟩
  · exact misplaced?_eq_none_iff.mp (registrable_of_read hread).last
  · exact (readable_of_read hread _ hmem).1
  · rw [hbody, splitPieces_intercalate hpieces]

/-- A row of predicates with a slash in it is one piece with the name in front of it. -/
theorem read_iff_pieces_slash_in_group :
    let route := "/get/:id[path='a/b'] [json]"
    let segments : List Segment := [.static "get", .dynamic "id",
      .switch [⟨"path", some (.quoted "a/b")⟩, ⟨"json", none⟩]]
    let pieces := ["get".toList, ":id[path='a/b'] [json]".toList]
    read route = .ok segments ∧ Pieces pieces segments ∧
      splitPieces .outside (body route) = pieces ∧
      ∀ s ∈ segments.dropLast, s.endsRoute = false := by
  intro route segments pieces
  have hread : read route = .ok segments := by decide +kernel
  have hsplit : splitPieces .outside (body route) = pieces := by decide +kernel
  obtain ⟨haccepts, hends, hpieces⟩ := read_iff_pieces route segments
  obtain ⟨hempty, _⟩ | ⟨found, hfound, hbody⟩ := haccepts.mp hread
  · exact absurd hempty (by decide +kernel)
  · have hsame : found = pieces := (hpieces found hfound hbody).symm.trans hsplit
    exact ⟨hread, hsame ▸ hfound, hsplit, (hends hread).1⟩

end CommandRoutes.Route
