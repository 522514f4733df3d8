import CommandRoutes.Proofs.Predicate.Reading

/-!
# The language of bracket groups

A row of predicates is written as bracket groups with blanks in front of, between
and behind them. Inside a group every quotation is closed by the quote that opens
it, and no bracket stands outside quotations; the first equals sign outside
quotations, if there is one, separates the id from the literal, and blanks around
either are left out. Reading accepts the texts of this language and no others, and
answers with the predicates that are written. What it refuses is malformed.
-/
namespace CommandRoutes

open Text

theorem Text.takeWhile_ne_append {c : Char} {front rest : List Char} (h : c ∉ front) :
    (front ++ c :: rest).takeWhile (· ≠ c) = front := by
  have hpass : ∀ d ∈ front, decide (d ≠ c) = true := fun d hd => by
    simpa using ne_of_mem_of_not_mem hd h
  rw [List.takeWhile_append_of_pos hpass]
  simp

/-- Every quotation of the text is closed by the quote that opens it, and no barred character
stands outside quotations. -/
inductive Enclosed (barred : List Char) : List Char → Prop
  | nil : Enclosed barred []
  | plain {c : Char} {cs : List Char} : isQuote c = false → c ∉ barred → Enclosed barred cs →
      Enclosed barred (c :: cs)
  | quotation {q : Char} {inner cs : List Char} : isQuote q = true → q ∉ inner →
      Enclosed barred cs → Enclosed barred (q :: (inner ++ q :: cs))

/-- The trimmed text is one way to write the literal. -/
inductive Literal.Written : List Char → Literal → Prop
  | bare {text : List Char} : (∀ c ∈ text, isQuote c = false) →
      Written text (.bare (String.ofList text))
  | quoted {q : Char} {inner : List Char} : isQuote q = true → q ∉ inner →
      Written (q :: (inner ++ [q])) (.quoted (String.ofList inner))

namespace Predicate

/-- A text that can be the id of a predicate. -/
def IsId (id : List Char) : Prop :=
  id ≠ [] ∧ ∀ c ∈ id, isQuote c = false ∧ isBlank c = false

/-- The text between a bracket and its partner is one way to write the predicate. -/
inductive Written : List Char → Predicate → Prop
  | presence {raw : List Char} : Enclosed ['='] raw → IsId (trim raw) →
      Written raw { id := String.ofList (trim raw) }
  | valued {left right : List Char} {literal : Literal} : Enclosed ['='] left →
      IsId (trim left) → Literal.Written (trim right) literal →
      Written (left ++ '=' :: right) { id := String.ofList (trim left), value := some literal }

/-- The text is one way to write the predicates in a row. -/
inductive Row : List Char → List Predicate → Prop
  | blank {gap : List Char} : (∀ c ∈ gap, isBlank c = true) → Row gap []
  | group {gap raw rest : List Char} {p : Predicate} {ps : List Predicate} :
      (∀ c ∈ gap, isBlank c = true) → Enclosed ['[', ']'] raw → Written raw p → Row rest ps →
      Row (gap ++ '[' :: (raw ++ ']' :: rest)) (p :: ps)

end Predicate

/-! ## Closed quotations -/

namespace Enclosed
variable {barred cs : List Char}

/-- Barring less is less to ask. -/
theorem mono {fewer : List Char} (hsub : ∀ c ∈ fewer, c ∈ barred) (h : Enclosed barred cs) :
    Enclosed fewer cs := by
  induction h with
  | nil => exact .nil
  | plain hc hbarred _ ih => exact .plain hc (fun hmem => hbarred (hsub _ hmem)) ih
  | quotation hq hinner _ ih => exact .quotation hq hinner ih

theorem append {ds : List Char} (h : Enclosed barred cs) (hds : Enclosed barred ds) :
    Enclosed barred (cs ++ ds) := by
  induction h with
  | nil => exact hds
  | plain hc hbarred _ ih => exact .plain hc hbarred ih
  | @quotation q inner cs hq hinner _ ih =>
      have hwhole := Enclosed.quotation hq hinner ih
      simpa using hwhole

/-- A quotation ends at the first quote of its kind. -/
theorem quotation_inj {q : Char} {inner inner' rest rest' : List Char} (hinner : q ∉ inner)
    (hinner' : q ∉ inner') (heq : inner ++ q :: rest = inner' ++ q :: rest') :
    inner = inner' ∧ rest = rest' := by
  have hsame : inner = inner' := by
    rw [← takeWhile_ne_append hinner, heq, takeWhile_ne_append hinner']
  subst hsame
  exact ⟨rfl, (List.cons.inj (List.append_cancel_left heq)).2⟩

/-- Where a barred character follows, the enclosed text in front of it is determined. -/
theorem append_cons_inj {ds rest rest' : List Char} {c : Char} (hbarred : c ∈ barred)
    (hquote : isQuote c = false) (h : Enclosed barred cs) (hds : Enclosed barred ds)
    (heq : cs ++ c :: rest = ds ++ c :: rest') : cs = ds ∧ rest = rest' := by
  induction h generalizing ds with
  | nil =>
      cases hds with
      | nil => exact ⟨rfl, (List.cons.inj heq).2⟩
      | plain _ hfree _ => exact absurd ((List.cons.inj heq).1 ▸ hbarred) hfree
      | quotation hq _ _ => simp [← (List.cons.inj heq).1, hquote] at hq
  | plain hd hfree _ ih =>
      cases hds with
      | nil => exact absurd ((List.cons.inj heq).1 ▸ hbarred) hfree
      | plain _ _ hds =>
          obtain ⟨rfl, hrest⟩ := List.cons.inj heq
          obtain ⟨rfl, hsame⟩ := ih hds hrest
          exact ⟨rfl, hsame⟩
      | quotation hq _ _ => simp [← (List.cons.inj heq).1, hd] at hq
  | @quotation q inner cs hq hinner _ ih =>
      cases hds with
      | nil => simp [(List.cons.inj heq).1, hquote] at hq
      | plain hd _ _ => simp [(List.cons.inj heq).1, hd] at hq
      | @quotation _ inner' ds _ hinner' hds =>
          simp only [List.cons_append, List.append_assoc, List.cons.injEq] at heq
          obtain ⟨rfl, hrest⟩ := heq
          obtain ⟨rfl, hlater⟩ := quotation_inj hinner hinner' hrest
          obtain ⟨rfl, hafter⟩ := ih hds hlater
          exact ⟨rfl, hafter⟩

theorem of_unquoted (h : ∀ c ∈ cs, isQuote c = false ∧ c ∉ barred) : Enclosed barred cs := by
  induction cs with
  | nil => exact .nil
  | cons c cs ih =>
      obtain ⟨⟨hc, hbarred⟩, hcs⟩ := List.forall_mem_cons.mp h
      exact .plain hc hbarred (ih hcs)

end Enclosed

theorem quoteAfter_of_isQuote {q : Char} (h : isQuote q = true) : quoteAfter none q = some q :=
  if_pos h

theorem quoteAfter_of_unquoted {c : Char} (h : isQuote c = false) : quoteAfter none c = none := by
  simp [quoteAfter, h]

/-- A whole quotation leaves nothing open. -/
theorem quotationAfter_quotation {q : Char} {inner : List Char} (hq : isQuote q = true)
    (hinner : q ∉ inner) (cs : List Char) :
    quotationAfter none (q :: (inner ++ q :: cs)) = quotationAfter none cs := by
  have hstill := (quoted_of_not_mem hinner).2
  change quotationAfter (quoteAfter none q) (inner ++ q :: cs) = _
  rw [quoteAfter_of_isQuote hq, quotationAfter_append, hstill]
  change quotationAfter (quoteAfter (some q) q) cs = _
  rw [quoteAfter, if_pos rfl]

/-- Where nothing is barred, a text is enclosed if its quotations are closed. -/
theorem enclosed_nil_iff {cs : List Char} : Enclosed [] cs ↔ quotationAfter none cs = none := by
  constructor
  · intro h
    induction h with
    | nil => rfl
    | @plain c cs hc _ _ ih =>
        change quotationAfter (quoteAfter none c) cs = none
        rw [quoteAfter_of_unquoted hc, ih]
    | quotation hq hinner _ ih => rw [quotationAfter_quotation hq hinner, ih]
  · -- a quotation that is open has to be closed somewhere
    have closes : ∀ quote, quotationAfter quote cs = none →
        match quote with
        | none => Enclosed [] cs
        | some q => ∃ inner rest, cs = inner ++ q :: rest ∧ q ∉ inner ∧ Enclosed [] rest := by
      induction cs with
      | nil =>
          rintro (_ | q) h
          · exact .nil
          · cases h
      | cons c cs ih =>
          rintro (_ | q) h
          · change quotationAfter (quoteAfter none c) cs = none at h
            cases hc : isQuote c with
            | false =>
                rw [quoteAfter_of_unquoted hc] at h
                exact .plain hc (List.not_mem_nil) (ih none h)
            | true =>
                rw [quoteAfter_of_isQuote hc] at h
                obtain ⟨inner, rest, rfl, hinner, hrest⟩ := ih (some c) h
                exact .quotation hc hinner hrest
          · by_cases hc : c = q
            · subst hc
              have hclosed : quotationAfter (quoteAfter (some c) c) cs = none := h
              rw [quoteAfter, if_pos rfl] at hclosed
              exact ⟨[], cs, rfl, List.not_mem_nil, ih none hclosed⟩
            · have hopen : quotationAfter (quoteAfter (some q) c) cs = none := h
              rw [quoteAfter, if_neg hc] at hopen
              obtain ⟨inner, rest, rfl, hinner, hrest⟩ := ih (some q) hopen
              exact ⟨c :: inner, rest, rfl, List.not_mem_cons_of_ne_of_not_mem (Ne.symm hc) hinner,
                hrest⟩
    exact closes none

theorem sheltered_quotation {q : Char} {inner cs : List Char} (hq : isQuote q = true)
    (hinner : q ∉ inner) :
    Sheltered none (q :: (inner ++ q :: cs)) ↔ Sheltered none cs := by
  obtain ⟨hshelter, hstill⟩ := quoted_of_not_mem hinner
  have hbracket : q ≠ '[' ∧ q ≠ ']' := by
    constructor <;> rintro rfl <;> simp [isQuote] at hq
  have hclosed : quoteAfter (some q) q = none := if_pos rfl
  simp [Sheltered, quoteAfter_of_isQuote hq, sheltered_append, hshelter, hstill, hbracket, hclosed]

/-- A text can stand in a bracket group if it is sheltered and its quotations are closed. -/
theorem enclosed_brackets_iff {cs : List Char} :
    Enclosed ['[', ']'] cs ↔ Sheltered none cs ∧ quotationAfter none cs = none := by
  rw [← enclosed_nil_iff]
  constructor
  · intro h
    refine ⟨?_, h.mono (by simp)⟩
    induction h with
    | nil => exact trivial
    | plain hc hbracket _ ih =>
        refine ⟨fun _ => by simpa using hbracket, ?_⟩
        rw [quoteAfter_of_unquoted hc]
        exact ih
    | quotation hq hinner _ ih => exact (sheltered_quotation hq hinner).mpr ih
  · rintro ⟨hshelter, h⟩
    induction h with
    | nil => exact .nil
    | plain hc _ _ ih =>
        obtain ⟨hbracket, hrest⟩ := hshelter
        rw [quoteAfter_of_unquoted hc] at hrest
        exact .plain hc (by simpa using hbracket rfl) (ih hrest)
    | quotation hq hinner _ ih =>
        exact .quotation hq hinner (ih ((sheltered_quotation hq hinner).mp hshelter))

/-! ## One group -/

theorem Literal.written_iff {text : List Char} {literal : Literal} :
    Literal.Written text literal ↔ Predicate.readLiteral? text = some literal := by
  constructor
  · rintro (⟨hbare⟩ | ⟨hq, hinner⟩)
    · cases text with
      | nil => rfl
      | cons c cs =>
          obtain ⟨hc, hcs⟩ := List.forall_mem_cons.mp hbare
          have hnone : cs.any isQuote = false := by simpa using hcs
          simp [Predicate.readLiteral?, hc, hnone]
    · simp [Predicate.readLiteral?, hq, hinner]
  · intro h
    unfold Predicate.readLiteral? at h
    split at h
    · cases h
      exact .bare (by simp)
    · next q rest =>
        split_ifs at h with hq hclosed hquote
        · cases h
          obtain ⟨hlast, hinner⟩ := hclosed
          have hrest : rest = rest.dropLast ++ [q] :=
            (List.dropLast_append_getLast? q hlast).symm
          have hwritten := Literal.Written.quoted hq hinner
          rwa [← hrest] at hwritten
        · cases h
          refine .bare (List.forall_mem_cons.mpr ⟨by simpa using hq, by simpa using hquote⟩)

namespace Route

theorem byteLength_cons (c : Char) (cs : List Char) :
    byteLength (c :: cs) = c.utf8Size + byteLength cs := rfl

theorem byteLength_append (cs ds : List Char) :
    byteLength (cs ++ ds) = byteLength cs + byteLength ds := by
  induction cs with
  | nil => simp [byteLength]
  | cons c cs ih => rw [List.cons_append, byteLength_cons, byteLength_cons, ih, Nat.add_assoc]

end Route

namespace Predicate

/-- No equals sign counts in a quotation. -/
theorem splitAtEquals_quotation {q : Char} {inner : List Char} (hq : isQuote q = true)
    (hinner : q ∉ inner) (cs : List Char) :
    splitAtEquals none (q :: (inner ++ q :: cs)) =
      (q :: (inner ++ q :: (splitAtEquals none cs).1), (splitAtEquals none cs).2) := by
  have hne : q ≠ '=' := by
    rintro rfl
    simp [isQuote] at hq
  have within : ∀ inner, q ∉ inner → splitAtEquals (some q) (inner ++ q :: cs) =
      (inner ++ q :: (splitAtEquals none cs).1, (splitAtEquals none cs).2) := by
    intro inner hinner
    induction inner with
    | nil => simp [splitAtEquals, quoteAfter]
    | cons c inner ih =>
        obtain ⟨hc, hrest⟩ := not_or.mp (mt List.mem_cons.mpr hinner)
        have hopen : quoteAfter (some q) c = some q := if_neg (Ne.symm hc)
        simp [splitAtEquals, hopen, ih hrest]
  simp [splitAtEquals, hne, quoteAfter_of_isQuote hq, within inner hinner]

theorem splitAtEquals_plain {c : Char} (hc : isQuote c = false) (hne : c ≠ '=') (cs : List Char) :
    splitAtEquals none (c :: cs) =
      (c :: (splitAtEquals none cs).1, (splitAtEquals none cs).2) := by
  simp [splitAtEquals, hne, quoteAfter_of_unquoted hc]

/-- What has no equals sign outside quotations is the left part of a split. -/
theorem splitAtEquals_of_enclosed {left : List Char} (h : Enclosed ['='] left) :
    splitAtEquals none left = (left, none) ∧
      ∀ right, splitAtEquals none (left ++ '=' :: right) = (left, some right) := by
  induction h with
  | nil => exact ⟨rfl, fun right => rfl⟩
  | plain hc hequals _ ih =>
      obtain ⟨halone, hsplit⟩ := ih
      have hne := List.ne_of_not_mem_cons hequals
      simp [splitAtEquals_plain hc hne, halone, hsplit]
  | quotation hq hinner _ ih =>
      obtain ⟨halone, hsplit⟩ := ih
      simp [splitAtEquals_quotation hq hinner, halone, hsplit]

/-- A text with closed quotations is split at its first equals sign outside them. -/
theorem enclosed_splitAtEquals {cs : List Char} (h : Enclosed [] cs) :
    Enclosed ['='] (splitAtEquals none cs).1 := by
  induction h with
  | nil => exact .nil
  | @plain c cs hc _ _ ih =>
      by_cases hequals : c = '='
      · simpa [splitAtEquals, hequals] using Enclosed.nil
      · rw [splitAtEquals_plain hc hequals]
        exact .plain hc (by simpa using hequals) ih
  | quotation hq hinner _ ih =>
      rw [splitAtEquals_quotation hq hinner]
      exact .quotation hq hinner ih

theorem isId_iff {id : List Char} :
    IsId id ↔ id ≠ [] ∧ id.any isQuote = false ∧ id.find? isBlank = none := by
  simp [IsId, forall_and]

/-- What stands in a group whose quotations are closed is read as it is written. -/
theorem readGroup_eq_ok_iff {input : String} {raw : List Char} {p : Predicate}
    (closed : quotationAfter none raw = none) : readGroup input raw = .ok p ↔ Written raw p := by
  constructor
  · intro h
    have hleft := enclosed_splitAtEquals (enclosed_nil_iff.mpr closed)
    have hspec := splitAtEquals_spec none raw
    unfold readGroup at h
    generalize splitAtEquals none raw = parts at h hleft hspec
    obtain ⟨left, right⟩ := parts
    dsimp only at h hleft
    split_ifs at h with hne hquote
    cases hblank : (trim left).find? isBlank with
    | some found => simp [hblank] at h
    | none =>
        simp only [hblank] at h
        have hid : IsId (trim left) := isId_iff.mpr ⟨hne, by simpa using hquote, hblank⟩
        cases right with
        | none =>
            cases h
            obtain rfl : left = raw := hspec
            exact .presence hleft hid
        | some value =>
            dsimp only at h hspec
            cases hliteral : readLiteral? (trim value) with
            | none => simp [hliteral] at h
            | some literal =>
                simp only [hliteral] at h
                cases h
                obtain ⟨rfl, _⟩ := hspec
                exact .valued hleft hid (Literal.written_iff.mpr hliteral)
  · rintro (⟨hraw, hid⟩ | ⟨hleft, hid, hliteral⟩)
    · obtain ⟨hne, hquote, hblank⟩ := isId_iff.mp hid
      simp [readGroup, (splitAtEquals_of_enclosed hraw).1, hne, hquote, hblank]
    · obtain ⟨hne, hquote, hblank⟩ := isId_iff.mp hid
      simp [readGroup, (splitAtEquals_of_enclosed hleft).2, hne, hquote, hblank,
        Literal.written_iff.mp hliteral]

/-! ## Rows of groups -/

theorem scan_blanks (input : String) {gap : List Char} (h : ∀ c ∈ gap, isBlank c = true) (i : Nat)
    (rest : List Char) :
    scan input .between i (gap ++ rest) = scan input .between (i + Route.byteLength gap) rest := by
  induction gap generalizing i with
  | nil => rfl
  | cons c gap ih =>
      obtain ⟨hc, hgap⟩ := List.forall_mem_cons.mp h
      have hlength : i + c.utf8Size + Route.byteLength gap = i + Route.byteLength (c :: gap) :=
        Nat.add_assoc ..
      have hopen : c ≠ '[' := by
        rintro rfl
        exact absurd hc (by decide)
      have hclose : c ≠ ']' := by
        rintro rfl
        exact absurd hc (by decide)
      rw [List.cons_append, scan, if_neg hopen, if_neg hclose, if_pos hc, ih hgap, hlength]

theorem Row.cons_blank {c : Char} {cs : List Char} {ps : List Predicate} (hc : isBlank c = true)
    (h : Row cs ps) : Row (c :: cs) ps := by
  cases h with
  | blank hgap => exact .blank (List.forall_mem_cons.mpr ⟨hc, hgap⟩)
  | group hgap hraw hp hrest => exact .group (List.forall_mem_cons.mpr ⟨hc, hgap⟩) hraw hp hrest

theorem Row.cons_group {raw rest : List Char} {p : Predicate} {ps : List Predicate}
    (hraw : Enclosed ['[', ']'] raw) (hp : Written raw p) (hrest : Row rest ps) :
    Row ('[' :: (raw ++ ']' :: rest)) (p :: ps) := by
  have hgroup := Row.group (List.forall_mem_nil _) hraw hp hrest
  exact hgroup

/-- A row that begins with a bracket begins with a group. -/
theorem Row.exists_of_opened {cs : List Char} {ps : List Predicate} (h : Row ('[' :: cs) ps) :
    ∃ raw rest p ps', cs = raw ++ ']' :: rest ∧ Enclosed ['[', ']'] raw ∧ Written raw p ∧
      Row rest ps' ∧ ps = p :: ps' := by
  have hopen : isBlank '[' = false := by decide
  generalize htext : '[' :: cs = text at h
  cases h with
  | blank hgap =>
      subst htext
      simp [hopen] at hgap
  | @group gap raw rest p ps hgap hraw hp hrest =>
      cases gap with
      | nil => exact ⟨raw, rest, p, ps, (List.cons.inj htext).2, hraw, hp, hrest, rfl⟩
      | cons c gap =>
          obtain ⟨rfl, _⟩ := List.cons.inj htext
          simp [hopen] at hgap

theorem row_of_scan {input : String} {i : Nat} {cs : List Char} {ps : List Predicate}
    (h : scan input .between i cs = .ok ps) : Row cs ps := by
  induction hlength : cs.length using Nat.strong_induction_on generalizing cs ps i with
  | _ n ih =>
    subst hlength
    cases cs with
    | nil =>
        cases h
        exact .blank (by simp)
    | cons c cs =>
        rw [scan] at h
        split_ifs at h with hopen hclose hblank
        · subst hopen
          obtain ⟨raw, rest, p, ps', j, rfl, hshelter, hclosed, hread, hrest, rfl⟩ :=
            exists_of_scan_group h
          have hrow := ih rest.length (by simp only [List.length_cons, List.length_append]; omega)
            hrest rfl
          exact .cons_group (enclosed_brackets_iff.mpr ⟨hshelter, hclosed⟩)
            ((readGroup_eq_ok_iff hclosed).mp hread) hrow
        · exact .cons_blank hblank (ih cs.length (by simp) h rfl)

/-- Behind a row the scan goes on between groups. -/
theorem scan_row_append {cs : List Char} {ps : List Predicate} (h : Row cs ps) (input : String)
    (i : Nat) (rest : List Char) :
    scan input .between i (cs ++ rest) =
      (scan input .between (i + Route.byteLength cs) rest).map (ps ++ ·) := by
  induction h generalizing i with
  | blank hgap =>
      rw [scan_blanks input hgap]
      cases scan input .between _ rest <;> rfl
  | @group gap raw behind p ps hgap hraw hp _ ih =>
      obtain ⟨hshelter, hclosed⟩ := enclosed_brackets_iff.mp hraw
      have hlength : i + Route.byteLength gap + '['.utf8Size + Route.byteLength raw +
          ']'.utf8Size + Route.byteLength behind =
          i + Route.byteLength (gap ++ '[' :: (raw ++ ']' :: behind)) := by
        simp only [Route.byteLength_append, Route.byteLength_cons]
        omega
      rw [List.append_assoc, List.cons_append, List.append_assoc, List.cons_append,
        scan_blanks input hgap, scan, if_pos rfl, scan_sheltered input _ hshelter, hclosed, scan,
        if_pos rfl, List.append_nil, List.reverse_reverse, (readGroup_eq_ok_iff hclosed).mpr hp, ih,
        hlength]
      cases scan input .between _ rest <;> rfl

theorem scan_of_row {cs : List Char} {ps : List Predicate} (h : Row cs ps) (input : String)
    (i : Nat) : scan input .between i cs = .ok ps := by
  have hscan := scan_row_append h input i []
  rw [List.append_nil, scan, Except.map, List.append_nil] at hscan
  exact hscan

theorem readAll_eq_ok_iff {text : String} {ps : List Predicate} :
    readAll text = .ok ps ↔ Row text.toList ps :=
  ⟨row_of_scan, fun h => scan_of_row h text 0⟩

/-! ## Refusals -/

/-- A group is refused for its id or for a quotation. -/
theorem readGroup_eq_error {input : String} {raw : List Char} {e : Fault}
    (h : readGroup input raw = .error e) :
    e = .missingId input ∨ e = .brokenQuotation (String.ofList raw) ∨
      ∃ found, e = .strayCharacter input found := by
  unfold readGroup at h
  generalize splitAtEquals none raw = parts at h
  obtain ⟨left, right⟩ := parts
  dsimp only at h
  split_ifs at h
  · cases h
    exact .inl rfl
  · cases h
    exact .inr (.inl rfl)
  · cases hblank : (trim left).find? isBlank with
    | some found =>
        simp only [hblank] at h
        cases h
        exact .inr (.inr ⟨found, rfl⟩)
    | none =>
        simp only [hblank] at h
        cases right with
        | none => cases h
        | some value =>
            dsimp only at h
            cases hliteral : readLiteral? (trim value) with
            | none =>
                simp only [hliteral] at h
                cases h
                exact .inr (.inl rfl)
            | some literal => simp [hliteral] at h

theorem kind_of_readGroup {input : String} {raw : List Char} {e : Fault}
    (h : readGroup input raw = .error e) : e.kind = .malformed := by
  obtain rfl | rfl | ⟨found, rfl⟩ := readGroup_eq_error h <;> rfl

theorem kind_of_scan {input : String} {state : Scan} {i : Nat} {cs : List Char} {e : Fault}
    (h : scan input state i cs = .error e) : e.kind = .malformed := by
  induction cs generalizing state i with
  | nil =>
      cases state with
      | between => cases h
      | group openedAt raw quote => cases quote <;> cases h <;> rfl
  | cons c cs ih =>
      cases state with
      | between =>
          rw [scan] at h
          split_ifs at h
          · exact ih h
          · cases h
            rfl
          · exact ih h
          · cases h
            rfl
      | group openedAt raw quote =>
          cases quote with
          | none =>
              rw [scan] at h
              split_ifs at h
              · cases hread : readGroup input raw.reverse with
                | error e' =>
                    simp only [hread] at h
                    cases h
                    exact kind_of_readGroup hread
                | ok p =>
                    simp only [hread] at h
                    exact ih (eq_error_of_map_eq_error h)
              · cases h
                rfl
              · exact ih h
          | some q =>
              rw [scan] at h
              exact ih h

/-- Reading answers with some predicates just if the text is one way to write them in a row, and
refuses a text that is none as malformed. -/
theorem readAll_iff_row (text : String) :
    (∀ ps, readAll text = .ok ps ↔ Row text.toList ps) ∧
    ((∃ ps, Row text.toList ps) ∨
      ∃ fault, readAll text = .error fault ∧ fault.kind = .malformed) := by
  refine ⟨fun ps => readAll_eq_ok_iff, ?_⟩
  cases h : readAll text with
  | ok ps => exact .inl ⟨ps, readAll_eq_ok_iff.mp h⟩
  | error fault => exact .inr ⟨fault, rfl, kind_of_scan h⟩

example : readAll " [a = \"b]='c'\"] [d]" = .ok [⟨"a", some (.quoted "b]='c'")⟩, ⟨"d", none⟩] := by
  decide +kernel

end Predicate
end CommandRoutes
