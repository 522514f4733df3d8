import CommandRoutes.Proofs.Predicate.Grammar

/-!
# Reading back what was written

Predicates are written with single quotes alone, whatever quotes they were read
from. A literal without single quotes is safe in them: rows of readable
predicates whose quoted literals hold none are read back as they were written,
and so no two of them are written alike. A literal with a single quote gives no
such promise.
-/
namespace CommandRoutes

open Text

/-- Single quotes can enclose the literal if it has to be quoted. -/
def Literal.Plain : Literal → Prop
  | .bare _ => True
  | .quoted text => '\'' ∉ text.toList

namespace Predicate

/-- No quoted literal of the predicate holds a single quote. -/
def Plain (p : Predicate) : Prop := ∀ l ∈ p.value, l.Plain

/-! ## Reading what was written -/

/-- What stands between the brackets. -/
def body (p : Predicate) : List Char :=
  match p.value with
  | none => p.id.toList
  | some (.bare text) => p.id.toList ++ '=' :: text.toList
  | some (.quoted text) => p.id.toList ++ '=' :: '\'' :: (text.toList ++ ['\''])

theorem toList_render (p : Predicate) : p.render.toList = '[' :: (p.body ++ [']']) := by
  rcases p with ⟨id, _ | ⟨text⟩ | ⟨text⟩⟩ <;> simp [render, body]

theorem toList_renderAll (ps : List Predicate) :
    (renderAll ps).toList = ps.flatMap fun p => '[' :: (p.body ++ [']']) := by
  rw [renderAll, String.toList_join, List.flatMap_map]
  exact List.flatMap_congr fun p _ => toList_render p

variable {p : Predicate}

namespace Readable

theorem trim_id (h : p.Readable) : trim p.id.toList = p.id.toList := by
  refine trim_eq_self ⟨fun c hc => ?_, fun c hc => ?_⟩
  · exact (h.id_clean c (List.mem_of_mem_head? hc)).1
  · exact (h.id_clean c (List.mem_of_mem_getLast? hc)).1

theorem isId (h : p.Readable) : IsId p.id.toList :=
  ⟨h.id_ne_nil, fun c hc => ⟨(h.id_clean c hc).2.1, (h.id_clean c hc).1⟩⟩

/-- Neither brackets nor equals signs stand in an id. -/
theorem enclosed_id {barred : List Char} (h : p.Readable) (hsub : barred ⊆ ['[', ']', '=']) :
    Enclosed barred p.id.toList := by
  refine .of_unquoted fun c hc => ?_
  obtain ⟨_, hquote, hopen, hclose, hequals⟩ := h.id_clean c hc
  refine ⟨hquote, fun hbarred => ?_⟩
  simpa [hopen, hclose, hequals] using hsub hbarred

end Readable

theorem enclosed_quoted {barred : List Char} {text : String} (h : (Literal.quoted text).Plain) :
    Enclosed barred ('\'' :: (text.toList ++ ['\''])) :=
  .quotation (by decide) h .nil

theorem written_quoted {text : String} (h : (Literal.quoted text).Plain) :
    Literal.Written (trim ('\'' :: (text.toList ++ ['\'']))) (.quoted text) := by
  have hquote : isBlank '\'' = false := by decide
  have trimmed : Trimmed ('\'' :: (text.toList ++ ['\''])) := by
    constructor
    · simp [hquote]
    · simp [List.getLast?_cons, hquote]
  rw [trim_eq_self trimmed]
  simpa using Literal.Written.quoted (by decide : isQuote '\'' = true) h

/-- What stands between the brackets is one way to write the predicate. -/
theorem written_body (h : p.Readable) (plain : p.Plain) : Written p.body p := by
  have hleft := h.enclosed_id (by simp : ['='] ⊆ ['[', ']', '='])
  have hid : IsId (trim p.id.toList) := h.trim_id.symm ▸ h.isId
  have hsame : String.ofList (trim p.id.toList) = p.id := by rw [h.trim_id, String.ofList_toList]
  obtain ⟨id, value⟩ := p
  cases value with
  | none =>
      have hwritten := Written.presence hleft hid
      rwa [hsame] at hwritten
  | some l =>
      have valued : ∀ {right : List Char}, Literal.Written (trim right) l →
          Written (id.toList ++ '=' :: right) ⟨id, some l⟩ := by
        intro right hliteral
        have hwritten := Written.valued hleft hid hliteral
        rwa [hsame] at hwritten
      cases l with
      | bare text =>
          obtain ⟨htrim, hclean⟩ := h.literal _ rfl
          refine valued ?_
          rw [trim_eq_self htrim]
          simpa using Literal.Written.bare fun c hc => (hclean c hc).1
      | quoted text => exact valued (written_quoted (plain _ rfl))

/-- Between its brackets a plain predicate hides every bracket and closes every quotation. -/
theorem enclosed_body (h : p.Readable) (plain : p.Plain) : Enclosed ['[', ']'] p.body := by
  have hid := h.enclosed_id (by simp : ['[', ']'] ⊆ ['[', ']', '='])
  have hequals : Enclosed ['[', ']'] ['='] := .plain (by decide) (by decide) .nil
  obtain ⟨id, value⟩ := p
  cases value with
  | none => exact hid
  | some l =>
      cases l with
      | bare text =>
          have htext : Enclosed ['[', ']'] text.toList := .of_unquoted fun c hc => by
            simpa using (h.literal _ rfl).2 c hc
          exact hid.append (hequals.append htext)
      | quoted text => exact hid.append (hequals.append (enclosed_quoted (plain _ rfl)))

theorem row_renderAll {ps : List Predicate} (h : ∀ p ∈ ps, p.Readable)
    (plain : ∀ p ∈ ps, p.Plain) : Row (renderAll ps).toList ps := by
  rw [toList_renderAll]
  induction ps with
  | nil => exact .blank (by simp)
  | cons p ps ih =>
      obtain ⟨hp, hps⟩ := List.forall_mem_cons.mp h
      obtain ⟨hplain, hplains⟩ := List.forall_mem_cons.mp plain
      have hrow := Row.cons_group (enclosed_body hp hplain) (written_body hp hplain)
        (ih hps hplains)
      simpa using hrow

/-- Plain predicates are read back as they were written. -/
theorem readAll_renderAll {ps : List Predicate} (h : ∀ p ∈ ps, p.Readable)
    (plain : ∀ p ∈ ps, p.Plain) : readAll (renderAll ps) = .ok ps :=
  readAll_eq_ok_iff.mpr (row_renderAll h plain)

/-- Plain predicates that are written alike are alike. -/
theorem eq_of_renderAll_eq {ps qs : List Predicate} (hps : ∀ p ∈ ps, p.Readable)
    (hqs : ∀ p ∈ qs, p.Readable) (plain : ∀ p ∈ ps, p.Plain) (plain' : ∀ p ∈ qs, p.Plain)
    (h : renderAll ps = renderAll qs) : ps = qs := by
  have hread := readAll_renderAll hps plain
  rw [h, readAll_renderAll hqs plain'] at hread
  exact (Except.ok.inj hread).symm

end Predicate
end CommandRoutes
