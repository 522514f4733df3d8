import CommandRoutes.Route.Reader
import Mathlib.Data.List.DropRight
import Mathlib.Tactic.SplitIfs

/-!
# What reading predicates promises

Everything that is read from bracket groups has a certain form: an identifier is
not empty and has no blanks, quotes, brackets or equals signs, a bare literal is
trimmed and has no quotes or brackets, and a quoted literal lacks the quote that
enclosed it. Such predicates are called readable. A bracket counts only outside
quotations, and a text none of whose brackets counts is called sheltered.
-/
namespace CommandRoutes

namespace Text

/-! ## Blanks at the ends -/

/-- Neither the first nor the last character is a blank. -/
def Trimmed (cs : List Char) : Prop :=
  (∀ c ∈ cs.head?, isBlank c = false) ∧ ∀ c ∈ cs.getLast?, isBlank c = false

theorem trimEnd_concat (cs : List Char) (c : Char) :
    trimEnd (cs ++ [c]) = if isBlank c then trimEnd cs else cs ++ [c] := by
  induction cs with
  | nil => rfl
  | cons d cs ih =>
      rw [List.cons_append, trimEnd, ih]
      by_cases hc : isBlank c = true
      · rw [if_pos hc, if_pos hc, trimEnd]
      · cases cs <;> simp [hc]

theorem trimEnd_eq_rdropWhile (cs : List Char) : trimEnd cs = cs.rdropWhile isBlank := by
  induction cs using List.reverseRecOn with
  | nil => rfl
  | append_singleton cs c ih => rw [trimEnd_concat, List.rdropWhile_concat, ih]

theorem trim_eq_self {cs : List Char} (h : Trimmed cs) : trim cs = cs := by
  have hfront : cs.dropWhile isBlank = cs := by
    cases cs with
    | nil => rfl
    | cons c cs => simp [h.1 c rfl]
  have hback : cs.rdropWhile isBlank = cs := by
    rw [List.rdropWhile_eq_self_iff]
    intro hne
    simp [h.2 _ (List.getLast?_eq_some_getLast hne)]
  rw [trim, hfront, trimEnd_eq_rdropWhile, hback]

theorem trimmed_trim (cs : List Char) : Trimmed (trim cs) := by
  rw [trim, trimEnd_eq_rdropWhile]
  generalize hfront : cs.dropWhile isBlank = front
  constructor
  · intro c hc
    have hhead : c ∈ front.head? := by
      obtain ⟨rest, hrest⟩ := List.rdropWhile_prefix isBlank front
      rw [← hrest, List.head?_append]
      simp [Option.mem_def.mp hc]
    have hstop := List.head?_dropWhile_not isBlank cs
    rwa [hfront, Option.mem_def.mp hhead] at hstop
  · intro c hc
    obtain ⟨hne, hlast⟩ := List.mem_getLast?_eq_getLast hc
    simpa [hlast] using List.rdropWhile_last_not isBlank front hne

/-- Trimming takes nothing but blanks away. -/
theorem exists_eq_append_trim (cs : List Char) :
    ∃ front back, cs = front ++ trim cs ++ back ∧ ∀ c ∈ front ++ back, isBlank c = true := by
  refine ⟨cs.takeWhile isBlank, (cs.dropWhile isBlank).rtakeWhile isBlank, ?_, ?_⟩
  · rw [trim, trimEnd_eq_rdropWhile, List.append_assoc, List.rdropWhile_append_rtakeWhile,
      List.takeWhile_append_dropWhile]
  · intro c hc
    rcases List.mem_append.mp hc with hc | hc
    · exact List.mem_takeWhile_imp hc
    · exact List.mem_rtakeWhile_imp hc

theorem mem_of_mem_trim {cs : List Char} {c : Char} (h : c ∈ trim cs) : c ∈ cs := by
  obtain ⟨front, back, heq, _⟩ := exists_eq_append_trim cs
  rw [heq]
  simp [h]

theorem mem_trim {cs : List Char} {c : Char} (h : c ∈ cs) (hc : isBlank c = false) :
    c ∈ trim cs := by
  obtain ⟨front, back, heq, hblank⟩ := exists_eq_append_trim cs
  rw [heq, List.append_assoc, List.mem_append, List.mem_append] at h
  rcases h with h | h | h
  · simp [hblank c (List.mem_append_left _ h)] at hc
  · exact h
  · simp [hblank c (List.mem_append_right _ h)] at hc

end Text

/-! ## Answers of a step that may fail -/

section
variable {ε α β : Type} {result : Except ε α} {f : α → β}

theorem exists_of_map_eq_ok {b : β} (h : result.map f = .ok b) : ∃ a, result = .ok a ∧ f a = b := by
  cases result with
  | error e => cases h
  | ok a => exact ⟨a, rfl, Except.ok.inj h⟩

theorem eq_error_of_map_eq_error {e : ε} (h : result.map f = .error e) : result = .error e := by
  cases result with
  | error e' => exact congrArg _ (Except.error.inj h)
  | ok a => cases h

end

/-! ## Quotations -/

open Text

theorem isBlank_of_isQuote {c : Char} (h : isQuote c = true) : isBlank c = false := by
  simp only [isQuote, Bool.or_eq_true, decide_eq_true_eq] at h
  rcases h with rfl | rfl <;> decide

/-- The quotation open after a text that begins while `quote` is open. -/
def quotationAfter (quote : Option Char) (cs : List Char) : Option Char :=
  cs.foldl quoteAfter quote

/-- No bracket of the text stands outside its quotations. -/
def Sheltered : Option Char → List Char → Prop
  | _, [] => True
  | quote, c :: cs => (quote = none → c ≠ '[' ∧ c ≠ ']') ∧ Sheltered (quoteAfter quote c) cs

theorem quotationAfter_append (quote : Option Char) (cs ds : List Char) :
    quotationAfter quote (cs ++ ds) = quotationAfter (quotationAfter quote cs) ds :=
  List.foldl_append

theorem sheltered_append {quote : Option Char} {cs ds : List Char} :
    Sheltered quote (cs ++ ds) ↔ Sheltered quote cs ∧ Sheltered (quotationAfter quote cs) ds := by
  induction cs generalizing quote with
  | nil => simp [Sheltered, quotationAfter]
  | cons c cs ih => simp only [List.cons_append, Sheltered, ih, quotationAfter, List.foldl_cons,
      and_assoc]

/-- Where nothing is quoted, being sheltered is having no brackets. -/
theorem sheltered_of_unquoted {cs : List Char} (h : ∀ c ∈ cs, isQuote c = false) :
    Sheltered none cs ↔ ∀ c ∈ cs, c ≠ '[' ∧ c ≠ ']' := by
  induction cs with
  | nil => simp [Sheltered]
  | cons c cs ih =>
      obtain ⟨hc, hcs⟩ := List.forall_mem_cons.mp h
      simp [Sheltered, quoteAfter, hc, ih hcs]

/-- Inside a quotation everything but its own quote is sheltered. -/
theorem quoted_of_not_mem {q : Char} {cs : List Char} (h : q ∉ cs) :
    Sheltered (some q) cs ∧ quotationAfter (some q) cs = some q := by
  induction cs with
  | nil => exact ⟨trivial, rfl⟩
  | cons c cs ih =>
      obtain ⟨hc, hcs⟩ := not_or.mp (mt List.mem_cons.mpr h)
      have hstep : quoteAfter (some q) c = some q := if_neg (Ne.symm hc)
      simpa [Sheltered, quotationAfter, hstep] using ih hcs

/-! ## Predicates that reading can give -/

/-- What some text in a bracket group reads as. -/
def Literal.Readable : Literal → Prop
  | .bare text =>
      Trimmed text.toList ∧ ∀ c ∈ text.toList, isQuote c = false ∧ c ≠ '[' ∧ c ≠ ']'
  | .quoted text => ∃ q, isQuote q = true ∧ q ∉ text.toList

namespace Predicate

structure Readable (p : Predicate) : Prop where
  id_ne_nil : p.id.toList ≠ []
  id_clean : ∀ c ∈ p.id.toList,
    isBlank c = false ∧ isQuote c = false ∧ c ≠ '[' ∧ c ≠ ']' ∧ c ≠ '='
  literal : ∀ l ∈ p.value, l.Readable

/-! ## What reading promises -/

theorem splitAtEquals_spec (quote : Option Char) (cs : List Char) :
    match splitAtEquals quote cs with
    | (left, none) => left = cs
    | (left, some right) => cs = left ++ '=' :: right ∧ quotationAfter quote left = none := by
  induction cs generalizing quote with
  | nil => rfl
  | cons c cs ih =>
      rw [splitAtEquals]
      split_ifs with h
      · obtain ⟨rfl, rfl⟩ := h
        exact ⟨rfl, rfl⟩
      · specialize ih (quoteAfter quote c)
        generalize splitAtEquals (quoteAfter quote c) cs = parts at ih
        obtain ⟨left, none | right⟩ := parts
        · exact congrArg (c :: ·) ih
        · exact ⟨congrArg (c :: ·) ih.1, ih.2⟩

/-- The split is at the first equals sign outside quotations. -/
theorem not_mem_splitAtEquals (cs : List Char)
    (h : ∀ c ∈ (splitAtEquals none cs).1, isQuote c = false) :
    '=' ∉ (splitAtEquals none cs).1 := by
  induction cs with
  | nil => simp [splitAtEquals]
  | cons c cs ih =>
      rw [splitAtEquals] at h ⊢
      split_ifs at h ⊢ with heq
      · simp
      · obtain ⟨hc, hrest⟩ := List.forall_mem_cons.mp h
        have hnone : quoteAfter none c = none := by simp [quoteAfter, hc]
        rw [hnone] at hrest ⊢
        have hne : c ≠ '=' := fun he => heq ⟨rfl, he⟩
        exact List.not_mem_cons_of_ne_of_not_mem hne.symm (ih hrest)

/-- What is found unquoted in a trimmed text was unquoted before. -/
theorem unquoted_of_trim {cs : List Char} (h : ∀ c ∈ trim cs, isQuote c = false) :
    ∀ c ∈ cs, isQuote c = false := by
  intro c hc
  by_contra hquote
  have hquote : isQuote c = true := by simpa using hquote
  simp [h c (mem_trim hc (isBlank_of_isQuote hquote))] at hquote

theorem readable_of_readLiteral? {value : List Char} {l : Literal}
    (sheltered : Sheltered none value) (h : readLiteral? (trim value) = some l) :
    l.Readable := by
  have trimmed := trimmed_trim value
  generalize htext : trim value = text at h trimmed
  unfold readLiteral? at h
  split at h
  · cases h
    simpa [Literal.Readable] using trimmed
  · next q rest =>
    split_ifs at h with hquote hclosed hinner
    · cases h
      exact ⟨q, hquote, by simpa using hclosed.2⟩
    · cases h
      have hclean : ∀ c ∈ trim value, isQuote c = false := by
        rw [htext]
        simpa [hquote] using hinner
      have hbare := (sheltered_of_unquoted (unquoted_of_trim hclean)).mp sheltered
      simp only [Literal.Readable, String.toList_ofList, ← htext]
      exact ⟨htext ▸ trimmed, fun c hc => ⟨hclean c hc, hbare c (mem_of_mem_trim hc)⟩⟩

theorem readable_of_readGroup {input : String} {raw : List Char} {p : Predicate}
    (sheltered : Sheltered none raw) (h : readGroup input raw = .ok p) : p.Readable := by
  have hsplit := splitAtEquals_spec none raw
  have hequals := not_mem_splitAtEquals raw
  unfold readGroup at h
  generalize splitAtEquals none raw = parts at h hsplit hequals
  obtain ⟨left, right⟩ := parts
  dsimp only at h hequals
  split_ifs at h with hne hquote
  have hunquoted : ∀ c ∈ left, isQuote c = false := unquoted_of_trim (by simpa using hquote)
  cases hblank : (trim left).find? isBlank with
  | some found => simp [hblank] at h
  | none =>
      simp only [hblank] at h
      have hleft : Sheltered none left := by
        cases right with
        | none => exact hsplit ▸ sheltered
        | some value =>
            rw [hsplit.1] at sheltered
            exact (sheltered_append.mp sheltered).1
      have hclean : ∀ c ∈ trim left,
          isBlank c = false ∧ isQuote c = false ∧ c ≠ '[' ∧ c ≠ ']' ∧ c ≠ '=' := by
        intro c hc
        have hmem := mem_of_mem_trim hc
        have hbracket := (sheltered_of_unquoted hunquoted).mp hleft c hmem
        refine ⟨by simpa using List.find?_eq_none.mp hblank c hc, hunquoted c hmem, hbracket.1,
          hbracket.2, ?_⟩
        rintro rfl
        exact hequals hunquoted hmem
      cases right with
      | none =>
          cases h
          exact ⟨by simpa using hne, by simpa using hclean, by simp⟩
      | some value =>
          dsimp only at h
          cases hl : readLiteral? (trim value) with
          | none => simp [hl] at h
          | some literal =>
              simp only [hl] at h
              cases h
              have hvalue : Sheltered none value := by
                rw [hsplit.1, sheltered_append, hsplit.2] at sheltered
                exact sheltered.2.2
              refine ⟨by simpa using hne, by simpa using hclean, ?_⟩
              simpa using readable_of_readLiteral? hvalue hl

/-! ## Scanning a group -/

/-- An open group goes on up to the first bracket that counts, or to the end of the text. -/
theorem exists_sheltered_append (quote : Option Char) (cs : List Char) :
    ∃ inner rest, cs = inner ++ rest ∧ Sheltered quote inner ∧
      (rest = [] ∨ quotationAfter quote inner = none ∧
        ∃ bracket more, rest = bracket :: more ∧ (bracket = '[' ∨ bracket = ']')) := by
  induction cs generalizing quote with
  | nil => exact ⟨[], [], rfl, trivial, .inl rfl⟩
  | cons c cs ih =>
      by_cases hcounts : quote = none ∧ (c = '[' ∨ c = ']')
      · obtain ⟨rfl, hbracket⟩ := hcounts
        exact ⟨[], c :: cs, rfl, trivial, .inr ⟨rfl, c, cs, rfl, hbracket⟩⟩
      · obtain ⟨inner, rest, rfl, hshelter, hrest⟩ := ih (quoteAfter quote c)
        refine ⟨c :: inner, rest, rfl, ⟨fun hquote => ?_, hshelter⟩, hrest⟩
        exact not_or.mp fun hbracket => hcounts ⟨hquote, hbracket⟩

theorem scan_sheltered (input : String) (openedAt : Nat) {quote : Option Char} {cs : List Char}
    (h : Sheltered quote cs) (raw : List Char) (i : Nat) (rest : List Char) :
    scan input (.group openedAt raw quote) i (cs ++ rest) =
      scan input (.group openedAt (cs.reverse ++ raw) (quotationAfter quote cs))
        (i + Route.byteLength cs) rest := by
  induction cs generalizing quote raw i with
  | nil => rfl
  | cons c cs ih =>
      have hlength : i + c.utf8Size + Route.byteLength cs = i + Route.byteLength (c :: cs) :=
        Nat.add_assoc ..
      have step : scan input (.group openedAt raw quote) i (c :: (cs ++ rest)) =
          scan input (.group openedAt (c :: raw) (quoteAfter quote c)) (i + c.utf8Size)
            (cs ++ rest) := by
        cases quote with
        | none =>
            obtain ⟨hopen, hclose⟩ := h.1 rfl
            rw [scan, if_neg hclose, if_neg hopen]
        | some q => rw [scan]
      rw [List.cons_append, step, ih h.2, hlength, List.reverse_cons, List.append_assoc]
      rfl

/-- An open group that can be read ends at the first bracket that is not sheltered, and the text
between the brackets gives the first predicate. -/
theorem exists_of_scan_group {input : String} {openedAt i : Nat} {raw cs : List Char}
    {quote : Option Char} {ps : List Predicate}
    (h : scan input (.group openedAt raw quote) i cs = .ok ps) :
    ∃ inner rest p ps' j, cs = inner ++ ']' :: rest ∧ Sheltered quote inner ∧
      quotationAfter quote inner = none ∧ readGroup input (raw.reverse ++ inner) = .ok p ∧
      scan input .between j rest = .ok ps' ∧ ps = p :: ps' := by
  obtain ⟨inner, rest, rfl, hshelter, hrest⟩ := exists_sheltered_append quote cs
  rw [scan_sheltered input openedAt hshelter] at h
  obtain rfl | ⟨hclosed, bracket, more, rfl, hbracket⟩ := hrest
  · cases hquote : quotationAfter quote inner <;> rw [hquote] at h <;> cases h
  · rw [hclosed, scan, List.reverse_append, List.reverse_reverse] at h
    split_ifs at h with hclose hopen
    · subst hclose
      cases hread : readGroup input (raw.reverse ++ inner) with
      | error e => simp [hread] at h
      | ok p =>
          simp only [hread] at h
          obtain ⟨ps', hmore, rfl⟩ := exists_of_map_eq_ok h
          exact ⟨inner, more, p, ps', _, rfl, hshelter, hclosed, hread, hmore, rfl⟩
    · exact absurd hbracket (not_or.mpr ⟨hopen, hclose⟩)

/-- What holds of the scan where it stands. -/
def Scan.Sound : Scan → Prop
  | .between => True
  | .group _ raw quote => Sheltered none raw.reverse ∧ quotationAfter none raw.reverse = quote

theorem Scan.sound_between : Scan.between.Sound := trivial

theorem Scan.sound_opened (openedAt : Nat) : (Scan.group openedAt [] none).Sound := ⟨trivial, rfl⟩

theorem readable_of_scan {input : String} {state : Scan} {i : Nat} {cs : List Char}
    {ps : List Predicate} (sound : state.Sound) (h : scan input state i cs = .ok ps) :
    ∀ p ∈ ps, p.Readable := by
  induction hlength : cs.length using Nat.strong_induction_on generalizing state i cs ps with
  | _ n ih =>
    subst hlength
    cases state with
    | between =>
        cases cs with
        | nil =>
            cases h
            simp
        | cons c cs =>
            rw [scan] at h
            split_ifs at h
            · exact ih _ (by simp) (Scan.sound_opened i) h rfl
            · exact ih _ (by simp) Scan.sound_between h rfl
    | group openedAt raw quote =>
        obtain ⟨inner, rest, p, ps, j, rfl, hshelter, _, hread, hrest, rfl⟩ :=
          exists_of_scan_group h
        obtain ⟨hraw, hquote⟩ := sound
        have hwhole : Sheltered none (raw.reverse ++ inner) :=
          sheltered_append.mpr ⟨hraw, hquote ▸ hshelter⟩
        have hshorter : rest.length < (inner ++ ']' :: rest).length := by
          simp only [List.length_append, List.length_cons]
          omega
        exact List.forall_mem_cons.mpr
          ⟨readable_of_readGroup hwhole hread, ih _ hshorter Scan.sound_between hrest rfl⟩

theorem readable_of_readAll {text : String} {ps : List Predicate} (h : readAll text = .ok ps) :
    ∀ p ∈ ps, p.Readable :=
  readable_of_scan Scan.sound_between h

theorem ne_nil_of_readAll {rest : List Char} {ps : List Predicate}
    (h : readAll (String.ofList ('[' :: rest)) = .ok ps) : ps ≠ [] := by
  unfold readAll at h
  rw [String.toList_ofList, scan, if_pos rfl] at h
  obtain ⟨_, _, p, ps, _, _, _, _, _, _, rfl⟩ := exists_of_scan_group h
  exact List.cons_ne_nil p ps

end Predicate
end CommandRoutes
